import Atsha204.Interface.CrcDivision
import Atsha204.Analysis.ErrorDetection

/-!
# The checksum is a remainder

The mask of the inner loop is gone after eight rounds (`crcByteRounds_eq`) and the counter
of the outer one reaches the length without wrapping (`crcLoops_eq`), so both loops end, in
the register that `calculate_crc` splits into two bytes. By `Library.CrcPolynomial` that
register is a remainder, of the message behind sixteen zeros.
-/

set_option autoImplicit false

namespace Atsha204.Analysis

open Atsha204.Library
open Atsha204.Model
open Atsha204.Interface
open Polynomial

/-! ## The loops end -/

/-- The inner loop takes eight rounds and is then left with the register of `crcByte`.
SOURCE: tools.c:135-141 -/
theorem crcByteRounds_eq {fuel : ℕ} (hfuel : 9 ≤ fuel) (data : UInt8) (crcRegister : UInt16) :
    crcByteRounds data fuel 0x01 crcRegister = some (8, crcByte crcRegister data) := by
  obtain ⟨fuel, rfl⟩ := Nat.exists_eq_add_of_le' hfuel
  rfl

/-- From a counter below the length on, the outer loop takes in the bytes up to there.
SOURCE: tools.c:134-142 -/
theorem crcLoops_eq {length : UInt16} {data : Block} (hlength : length.toNat ≤ data.length)
    (todo fuel : ℕ) (counter crcRegister : UInt16) (htodo : counter.toNat + todo = length.toNat)
    (hfuel : todo + 9 ≤ fuel) : crcLoops length data fuel counter crcRegister =
      some (List.replicate todo 8,
        ((data.drop counter.toNat).take todo).foldl crcByte crcRegister) := by
  induction todo generalizing fuel counter crcRegister with
  | zero =>
    obtain ⟨fuel, rfl⟩ := Nat.exists_eq_add_of_le' hfuel
    have hdone : ¬ counter < length := by
      rw [UInt16.lt_iff_toNat_lt]
      omega
    simp only [crcLoops, if_neg hdone]
    rfl
  | succ todo ih =>
    obtain ⟨fuel, rfl⟩ : ∃ n, fuel = n + 1 := ⟨fuel - 1, by omega⟩
    have hmore : counter < length := by
      rw [UInt16.lt_iff_toNat_lt]
      omega
    have hcell : counter.toNat < data.length := by omega
    have hnext : (counter + 1).toNat = counter.toNat + 1 := by
      have hlt := length.toNat_lt
      rw [UInt16.toNat_add]
      exact Nat.mod_eq_of_lt (by rw [UInt16.toNat_one]; omega)
    have hrest := ih fuel (counter + 1) (crcByte crcRegister data[counter.toNat]) (by omega)
      (by omega)
    rw [hnext] at hrest
    simp only [crcLoops, if_pos hmore, peek_natCast, List.getElem?_eq_getElem hcell,
      Option.bind_eq_bind, Option.bind_some, crcByteRounds_eq (by omega : 9 ≤ fuel), hrest]
    rw [List.drop_eq_getElem_cons hcell, List.take_succ_cons, List.foldl_cons]
    rfl

/-! ## The register as a polynomial -/

/-- The two bytes of a register are the register. -/
theorem bytes_append_eq (r : UInt16) :
    ((r >>> 8).toUInt8.toBitVec ++ (r &&& 0x00FF).toUInt8.toBitVec : BitVec 16) = r.toBitVec := by
  apply BitVec.eq_of_toNat_eq
  have hhigh : (r >>> 8).toUInt8.toNat = r.toNat / 2 ^ 8 := by
    have hlt := r.toNat_lt
    have hshift : (r >>> 8).toNat = r.toNat >>> 8 := UInt16.toNat_shiftRight r 8
    rw [UInt16.toNat_toUInt8, hshift, Nat.shiftRight_eq_div_pow]
    omega
  have hlow : (r &&& 0x00FF).toUInt8.toNat = r.toNat % 2 ^ 8 := by
    have hmask : (r &&& 0x00FF).toNat = r.toNat % 2 ^ 8 := by
      rw [UInt16.toNat_and]
      exact Nat.and_two_pow_sub_one_eq_mod r.toNat 8
    rw [UInt16.toNat_toUInt8, hmask]
    omega
  rw [BitVec.toNat_append, UInt8.toNat_toBitVec, UInt8.toNat_toBitVec, UInt16.toNat_toBitVec,
    hhigh, hlow, ← Nat.shiftLeft_add_eq_or_of_lt (Nat.mod_lt _ (by decide)),
    Nat.shiftLeft_eq]
  omega

/-- The generator of the register is the one of the checksum.
SOURCE: tools.c:28 -/
theorem generator_polynom : generator polynom.toBitVec = crcGenerator := by
  have hbits : ∀ i < 16, polynom.toBitVec.getLsbD i = decide (i = 0 ∨ i = 2 ∨ i = 15) := by
    decide
  have hword : wordPolynomial polynom.toBitVec = X ^ 15 + X ^ 2 + 1 := by
    unfold wordPolynomial
    rw [Finset.sum_congr rfl fun i hi => by rw [hbits i (Finset.mem_range.mp hi)]]
    simp [Finset.sum_range_succ]
    ring
  unfold generator crcGenerator
  rw [hword]
  ring

/-- The checksum of some bytes is the remainder of their polynomial. -/
theorem crcPolynomial_checksum (bytes : Block) :
    crcPolynomial (checksum bytes) = (messagePolynomial bytes * X ^ 16) %ₘ crcGenerator := by
  unfold crcPolynomial messagePolynomial checksum
  rw [bytes_append_eq, foldl_crcByte_toBitVec, ← generator_polynom]
  exact wordPolynomial_register polynom.toBitVec (packetBits bytes)

/-! ## The checksum -/

/-- Whatever lies behind the message, the loops end, with eight rounds for each of its bytes,
and the checksum is the remainder of the message times `X ^ 16`.
SOURCE: tools.c:127-145 -/
theorem calculateCrc_is_remainder (message behind : Block) (hlen : message.length ≤ 65535) :
    ∃ (crc : UInt8 × UInt8) (crcRegister : UInt16),
      calculateCrc (UInt16.ofNat message.length) (message ++ behind) = some crc ∧
      crc = ((crcRegister &&& 0x00FF).toUInt8, (crcRegister >>> 8).toUInt8) ∧
      crcPolynomial crc = (messagePolynomial message * X ^ 16) %ₘ
        (X ^ 16 + X ^ 15 + X ^ 2 + 1) ∧
      ∀ fuel ≥ message.length + 9,
        crcLoops (UInt16.ofNat message.length) (message ++ behind) fuel 0 0 =
          some (List.replicate message.length 8, crcRegister) := by
  have hlength : (UInt16.ofNat message.length).toNat = message.length := by
    rw [UInt16.toNat_ofNat']
    omega
  have hinside : (UInt16.ofNat message.length).toNat ≤ (message ++ behind).length := by
    rw [hlength, List.length_append]
    omega
  refine ⟨checksum message, message.foldl crcByte 0, ?_, rfl, crcPolynomial_checksum message, ?_⟩
  · rw [calculateCrc_of_le hinside, hlength, List.take_left' rfl]
  · intro fuel hfuel
    have hloops := crcLoops_eq hinside message.length fuel 0 0 (by rw [hlength]; exact zero_add _)
      hfuel
    rw [hloops]
    simp

/-- The checksum of the answer to a wake, 0x4333, is the remainder of its two bytes. -/
theorem calculateCrc_is_remainder_wake :
    calculateCrc 2 [0x04, 0x11] = some (0x33, 0x43) ∧
      crcPolynomial (0x33, 0x43) = (messagePolynomial [0x04, 0x11] * X ^ 16) %ₘ
        (X ^ 16 + X ^ 15 + X ^ 2 + 1) := by
  obtain ⟨crc, _, hcrc, -, hremainder, -⟩ := calculateCrc_is_remainder [0x04, 0x11] [] (by decide)
  have hvalue : calculateCrc 2 [0x04, 0x11] = some (0x33, 0x43) := by decide +kernel
  obtain rfl : crc = (0x33, 0x43) := Option.some_inj.mp (hcrc.symm.trans hvalue)
  exact ⟨hvalue, hremainder⟩

end Atsha204.Analysis
