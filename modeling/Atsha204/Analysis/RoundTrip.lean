import Atsha204.Analysis.Operations
import Atsha204.Interface.Packets

/-!
# Encoders and decoders are inverse

A command of at most 248 data bytes and an answer of at most 252 are built, accepted, and
read back: the fields of a command at the positions where the emulator looks
(`carriesCommand_commandPacket`), the data of an answer by `read_long_data`
(`carriesData_answerPacket`).
-/

set_option autoImplicit false

namespace Atsha204.Analysis

open Atsha204.Library
open Atsha204.Model
open Atsha204.Interface

/-! ## Commands -/

/-- The two bytes of a parameter of 16 bits.
SOURCE: tools.c:86-87 -/
theorem param2_bytes (param2 : UInt16) :
    (param2 &&& 0x00FF).toUInt8.toNat + 256 * ((param2 &&& 0xFF00) >>> 8).toUInt8.toNat =
      param2.toNat := by
  have hlow : (param2 &&& 0x00FF).toUInt8.toNat = param2.toNat % 256 := by
    rw [UInt16.toNat_toUInt8, UInt16.toNat_and]
    change (param2.toNat &&& 2 ^ 8 - 1) % 2 ^ 8 = _
    rw [Nat.and_two_pow_sub_one_eq_mod, Nat.mod_mod]
  have hhigh : ((param2 &&& 0xFF00) >>> 8).toUInt8.toNat = param2.toNat / 256 := by
    have hshift : ((param2 &&& 0xFF00) >>> 8).toNat = (param2.toNat &&& 0xFF00) >>> 8 :=
      UInt16.toNat_shiftRight _ _
    have hmask : (param2.toNat &&& 0xFF00) >>> 8 = param2.toNat / 256 := by
      rw [Nat.shiftRight_and_distrib, Nat.shiftRight_eq_div_pow]
      change param2.toNat / 2 ^ 8 &&& 2 ^ 8 - 1 = _
      rw [Nat.and_two_pow_sub_one_eq_mod]
      have := param2.toNat_lt
      omega
    rw [UInt16.toNat_toUInt8, hshift, hmask]
    have := param2.toNat_lt
    omega
  rw [hlow, hhigh, Nat.mod_add_div]

/-- A command with up to 248 bytes of data carries its parts. -/
theorem carriesCommand_commandPacket (opcode param1 : UInt8) (param2 : UInt16) {data : Block}
    (h : data.length ≤ 248) :
    CarriesCommand opcode param1 param2 data (commandPacket opcode param1 param2 data) where
  length := by
    rw [commandPacket, sealed_length, commandBody, List.length_append, List.length_cons]
    simp only [List.length_cons, List.length_nil]
    omega
  count := congrArg some (ofNat_toNat_of_lt (by omega))
  accepted := checkPacket_commandPacket opcode param1 param2 (by omega)
  opcode := rfl
  param1 := rfl
  param2 := ⟨_, _, rfl, rfl, param2_bytes param2⟩
  data := copyOut_commandData opcode param1 param2 rfl

/-! ## Answers -/

/-- An answer with up to 252 bytes carries its data. -/
theorem carriesData_answerPacket {data : Block} (h : data.length ≤ 252) :
    CarriesData data (answerPacket data) := by
  have hframed : Framed (answerPacket data) := framed_answerPacket (by omega)
  have hthree : 3 ≤ (answerPacket data).length := by
    rw [answerPacket_length]
    omega
  refine ⟨answerPacket_length data, checkPacket_answerPacket (by omega), ?_, ?_⟩
  · intro _ hle σ buffer s
    have hread : wp (readLongData (answerPacket data) buffer)
        (fun r _ => r = (((data.length : ℕ) : Int), filled buffer data)) (fun _ => False) s := by
      rw [wp_readLongData hframed hthree, answerPacket_length, if_pos (by omega),
        payload_answerPacket]
    obtain ⟨_, s', hrun, rfl⟩ := (wp_returns_iff _ _ _).mp hread
    obtain ⟨buffer', hbuffer, hval⟩ := overwrite_of_le buffer hle
    refine ⟨_, s', hrun, ?_⟩
    rw [filled, hbuffer]
    exact hval
  · intro hlong σ buffer s
    have hread : wp (readLongData (answerPacket data) buffer)
        (fun r _ => r = (0, buffer)) (fun _ => False) s := by
      rw [wp_readLongData hframed hthree, answerPacket_length, if_neg (by omega)]
    obtain ⟨_, s', hrun, rfl⟩ := (wp_returns_iff _ _ _).mp hread
    exact ⟨s', hrun⟩

/-! ## Both encoders -/

/-- Every command of at most 248 data bytes is built, accepted, and read back by the
emulator; every answer of at most 252 is built, accepted, and read back by
`read_long_data`, or dropped when it is too long.
SOURCE: tools.c:52-114, operations.c:40-50, emulation.c:37-50 -/
theorem encoders_roundTrip :
    (∀ (opcode param1 : UInt8) (param2 : UInt16) (data : Block), data.length ≤ 248 →
      ∃ packet, generateCommandPacket opcode param1 param2 data (UInt8.ofNat data.length) =
          some packet ∧ CarriesCommand opcode param1 param2 data packet) ∧
    ∀ data : Block, data.length ≤ 252 →
      ∃ packet, generateAnswerPacket data (UInt8.ofNat data.length) = some packet ∧
        CarriesData data packet := by
  constructor
  · intro opcode param1 param2 data h
    have hcount : (UInt8.ofNat data.length).toNat = data.length := ofNat_toNat_of_lt (by omega)
    refine ⟨_, generateCommandPacket_eq hcount.le (by omega), ?_⟩
    rw [hcount, List.take_length]
    exact carriesCommand_commandPacket opcode param1 param2 h
  · intro data h
    have hcount : (UInt8.ofNat data.length).toNat = data.length := ofNat_toNat_of_lt (by omega)
    refine ⟨_, generateAnswerPacket_eq hcount.le (by omega), ?_⟩
    rw [hcount, List.take_length]
    exact carriesData_answerPacket h

/-- A nonce of four bytes, and an answer with a status. -/
theorem encoders_roundTrip_short :
    (∃ packet, generateCommandPacket atsha204OpcodeNonce 0x03 0x1234 [1, 2, 3, 4] 4 =
        some packet ∧ CarriesCommand atsha204OpcodeNonce 0x03 0x1234 [1, 2, 3, 4] packet) ∧
    ∃ packet, generateAnswerPacket [atsha204StatusSucces] 1 = some packet ∧
      CarriesData [atsha204StatusSucces] packet :=
  ⟨encoders_roundTrip.1 _ _ _ [1, 2, 3, 4] (by decide),
    encoders_roundTrip.2 [atsha204StatusSucces] (by decide)⟩

end Atsha204.Analysis
