import Atsha204.Library.Crc
import Atsha204.Interface.Packets
import Atsha204.Analysis.PacketCodec

/-!
# Which errors of transmission the packet check sees

The inner loop of `calculate_crc` is the register of `Library.Crc` with the generator of
`tools.c` (`crcByte_toBitVec`), and the two bytes it leaves are the bits of that register
in the order of their place values (`packetBits_checksum`). The bits of a sealed body are
therefore a valid word (`valid_of_sealed`), the low byte of the checksum following the
data although the register drops its bits at the other end.

The generator has an odd number of bits, its lowest bit is set, and it neither comes back
to itself nor ends in a single bit within the 2024 bits that a packet holds in front of
its checksum (`polynom_seesPairs`).
-/

set_option autoImplicit false

namespace Atsha204.Analysis

open Atsha204.Library
open Atsha204.Model
open Atsha204.Interface

/-! ## Bits -/

/-- A byte has eight bits. -/
@[simp] theorem byteBits_length (byte : UInt8) : (byteBits byte).length = 8 := by
  simp [byteBits]

/-- The bits of the first byte stand in front. -/
theorem packetBits_cons (byte : UInt8) (packet : Block) :
    packetBits (byte :: packet) = byteBits byte ++ packetBits packet := List.flatMap_cons

/-- The bits of one piece stand behind those of the other. -/
theorem packetBits_append (packet packet' : Block) :
    packetBits (packet ++ packet') = packetBits packet ++ packetBits packet' :=
  List.flatMap_append

/-- A packet has eight bits for each byte. -/
@[simp] theorem packetBits_length (packet : Block) :
    (packetBits packet).length = 8 * packet.length := by
  induction packet with
  | nil => rfl
  | cons byte packet ih =>
    rw [packetBits_cons, List.length_append, ih, byteBits_length, List.length_cons]
    omega

/-- A byte is its bits. -/
theorem byteBits_inj {byte byte' : UInt8} (h : byteBits byte = byteBits byte') :
    byte = byte' := by
  apply UInt8.toNat_inj.mp
  apply Nat.eq_of_testBit_eq
  intro i
  by_cases hi : i < 8
  · exact List.map_inj_left.mp h i (List.mem_range.mpr hi)
  · have hbig : 2 ^ 8 ≤ 2 ^ i := Nat.pow_le_pow_right (by decide) (by omega)
    rw [Nat.testBit_lt_two_pow (byte.toNat_lt.trans_le hbig),
      Nat.testBit_lt_two_pow (byte'.toNat_lt.trans_le hbig)]

/-- A packet is its bits. -/
theorem packetBits_inj {packet packet' : Block} (h : packetBits packet = packetBits packet') :
    packet = packet' := by
  induction packet generalizing packet' with
  | nil =>
    have hlen := congrArg List.length h
    rw [packetBits_length, packetBits_length, List.length_nil] at hlen
    exact (List.length_eq_zero_iff.mp (by omega)).symm
  | cons byte packet ih =>
    cases packet' with
    | nil =>
      have hlen := congrArg List.length h
      simp at hlen
    | cons byte' packet' =>
      rw [packetBits_cons, packetBits_cons] at h
      obtain ⟨hbyte, hrest⟩ := List.append_inj h (by simp)
      rw [byteBits_inj hbyte, ih hrest]

/-! ## The loop as a register -/

/-- What `crc_register >> 15` is. -/
theorem shiftRight_fifteen (crcRegister : UInt16) :
    crcRegister >>> 15 = if crcRegister.toBitVec.msb then 1 else 0 := by
  have hlt := crcRegister.toNat_lt
  apply UInt16.toNat_inj.mp
  have hdiv : (crcRegister >>> 15).toNat = crcRegister.toNat / 2 ^ 15 := by
    rw [UInt16.toNat_shiftRight]
    exact Nat.shiftRight_eq_div_pow _ _
  rw [BitVec.msb_eq_decide, hdiv, UInt16.toNat_toBitVec]
  by_cases htop : 2 ^ 15 ≤ crcRegister.toNat
  · have hone : crcRegister.toNat / 2 ^ 15 = 1 := by omega
    rw [decide_eq_true htop, hone]
    rfl
  · have hzero : crcRegister.toNat / 2 ^ 15 = 0 := by omega
    rw [decide_eq_false htop, hzero]
    rfl

/-- A round of the loop takes in the bit that the mask selects. -/
theorem crcBit_toBitVec (data shiftRegister : UInt8) (crcRegister : UInt16) :
    (crcBit data shiftRegister crcRegister).toBitVec =
      shiftIn polynom.toBitVec crcRegister.toBitVec (data &&& shiftRegister != 0) := by
  have hshift : (crcRegister <<< 1).toBitVec = crcRegister.toBitVec <<< 1 := rfl
  unfold crcBit shiftIn
  rw [shiftRight_fifteen]
  by_cases hbit : data &&& shiftRegister = 0 <;> cases hmsb : crcRegister.toBitVec.msb <;>
    simp [hbit, hshift]

/-- The bits of a byte, as the masks of the inner loop select them. -/
theorem byteBits_eq (byte : UInt8) : byteBits byte =
    [byte &&& 0x01 != 0, byte &&& 0x02 != 0, byte &&& 0x04 != 0, byte &&& 0x08 != 0,
      byte &&& 0x10 != 0, byte &&& 0x20 != 0, byte &&& 0x40 != 0, byte &&& 0x80 != 0] := by
  have hall : ∀ n : Fin 256, byteBits (UInt8.ofNat n) =
      [UInt8.ofNat n &&& 0x01 != 0, UInt8.ofNat n &&& 0x02 != 0, UInt8.ofNat n &&& 0x04 != 0,
        UInt8.ofNat n &&& 0x08 != 0, UInt8.ofNat n &&& 0x10 != 0, UInt8.ofNat n &&& 0x20 != 0,
        UInt8.ofNat n &&& 0x40 != 0, UInt8.ofNat n &&& 0x80 != 0] := by
    decide +kernel
  have hbyte := hall ⟨byte.toNat, byte.toNat_lt⟩
  rwa [UInt8.ofNat_toNat] at hbyte

/-- The inner loop takes in the bits of its byte, from the least significant one on.
SOURCE: tools.c:135-141 -/
theorem crcByte_toBitVec (crcRegister : UInt16) (data : UInt8) :
    (crcByte crcRegister data).toBitVec =
      register polynom.toBitVec crcRegister.toBitVec (byteBits data) := by
  rw [byteBits_eq]
  simp only [register_cons, register_nil, ← crcBit_toBitVec]
  rfl

/-- The outer loop takes in all bits in processing order.
SOURCE: tools.c:134-142 -/
theorem foldl_crcByte_toBitVec (crcRegister : UInt16) (bytes : Block) :
    (bytes.foldl crcByte crcRegister).toBitVec =
      register polynom.toBitVec crcRegister.toBitVec (packetBits bytes) := by
  induction bytes generalizing crcRegister with
  | nil => rfl
  | cons byte bytes ih =>
    rw [List.foldl_cons, ih, crcByte_toBitVec, packetBits_cons, register_append]

/-- The bits of the two bytes of a checksum are those of the register. -/
theorem packetBits_checksum (bytes : Block) :
    packetBits [(checksum bytes).1, (checksum bytes).2] =
      lsbBits (register polynom.toBitVec 0#16 (packetBits bytes)) := by
  have hregister := foldl_crcByte_toBitVec 0 bytes
  have hzero : (0 : UInt16).toBitVec = 0#16 := rfl
  rw [← hzero, ← hregister]
  unfold checksum
  generalize bytes.foldl crcByte 0 = r
  have hlow : byteBits (r &&& 0x00FF).toUInt8 = (List.range 8).map r.toNat.testBit := by
    apply List.map_congr_left
    intro i hi
    have hlt := List.mem_range.mp hi
    rw [UInt16.toNat_toUInt8, Nat.testBit_mod_two_pow, UInt16.toNat_and, Nat.testBit_and]
    have hmask : (0x00FF : UInt16).toNat.testBit i = true := by
      have : ∀ i < 8, (0x00FF : UInt16).toNat.testBit i = true := by decide
      exact this i hlt
    rw [hmask, Bool.and_true, decide_eq_true hlt, Bool.true_and]
  have hhigh : byteBits (r >>> 8).toUInt8 =
      (List.range 8).map fun i => r.toNat.testBit (8 + i) := by
    apply List.map_congr_left
    intro i hi
    have hshift : (r >>> 8).toNat = r.toNat >>> 8 := UInt16.toNat_shiftRight r 8
    rw [UInt16.toNat_toUInt8, Nat.testBit_mod_two_pow, hshift, Nat.testBit_shiftRight]
    simp [List.mem_range.mp hi]
  have hbits : lsbBits r.toBitVec = (List.range (8 + 8)).map r.toNat.testBit := rfl
  rw [packetBits_cons, packetBits_cons, hlow, hhigh, hbits, List.range_add, List.map_append,
    List.map_map]
  exact congrArg _ (List.append_nil _)

/-! ## The generator -/

/-- The generator has an odd number of bits. -/
theorem parity_polynom : parity (lsbBits polynom.toBitVec) = true := by decide

/-- Its lowest bit is set. -/
theorem polynom_getLsbD_zero : polynom.toBitVec.getLsbD 0 = true := by decide

/-- It neither comes back to itself nor ends in a single bit while it is shifted through the
253 bytes that at most precede a checksum. -/
theorem polynom_seesPairs : SeesPairs polynom.toBitVec (8 * 253) := by
  apply seesPairs_of_seesPairsFrom
  decide +kernel

/-! ## Accepted packets as valid words -/

/-- The bits of a sealed body are a valid word. -/
theorem valid_of_sealed (body : Block) : Valid polynom.toBitVec (packetBits body)
    (packetBits [(checksum body).1, (checksum body).2]) := packetBits_checksum body

/-- An accepted packet is a body and its checksum. -/
theorem sealed_of_checkPacket {packet : Block} (hframed : Framed packet)
    (hlen : 3 ≤ packet.length) (h : checkPacket packet = some true) :
    ∃ body, packet = sealed body ∧ body.length + 2 = packet.length := by
  rw [checkPacket_eq hframed (by omega), Option.some_inj] at h
  refine ⟨_, of_decide_eq_true h, ?_⟩
  rw [List.length_take]
  omega

/-- The difference of two accepted packets: that of their bodies, with the one of their
checksums behind it. -/
theorem valid_xorBits {body body' : Block} (hlen : body.length = body'.length) :
    Valid polynom.toBitVec (xorBits (packetBits body) (packetBits body'))
      (xorBits (packetBits [(checksum body).1, (checksum body).2])
        (packetBits [(checksum body').1, (checksum body').2])) :=
  (valid_of_sealed body).xor polynom.toBitVec (valid_of_sealed body') (by simp [hlen])

/-- The last two bytes of a sealed packet are its checksum. -/
theorem crcField_sealed (body : Block) :
    crcField (sealed body) = [(checksum body).1, (checksum body).2] := by
  unfold crcField
  rw [sealed_length]
  exact List.drop_left' rfl

/-- Two sealed packets differ in the bits of their bodies and in those of their checksums. -/
theorem bitDistance_sealed {body body' : Block} (hlen : body.length = body'.length) :
    bitDistance (sealed body) (sealed body') =
      (xorBits (packetBits body) (packetBits body') ++
        xorBits (packetBits [(checksum body).1, (checksum body).2])
          (packetBits [(checksum body').1, (checksum body').2])).count true := by
  unfold bitDistance sealed xorBits
  rw [packetBits_append, packetBits_append, List.zipWith_append (by simp [hlen])]

/-- Two bodies of one length whose bits all lie in a window of 16, with one checksum, are the
same. -/
theorem eq_of_burstOf16 {body body' : Block} (hlen : body.length = body'.length)
    (hcrc : checksum body = checksum body')
    (hburst : BurstOf16 (sealed body) (sealed body')) : body = body' := by
  obtain ⟨start, hwindow⟩ := hburst
  have hbits : (packetBits body).length = (packetBits body').length := by simp [hlen]
  have hwithin : ∀ i, (xorBits (packetBits body) (packetBits body'))[i]? = some true →
      start ≤ i ∧ i < start + 16 := by
    intro i hi
    apply hwindow i
    intro hsame
    obtain ⟨b, b', hb, hb', hxor⟩ := List.getElem?_zipWith_eq_some.mp hi
    obtain ⟨hin, -⟩ := List.getElem?_eq_some_iff.mp hb
    unfold sealed at hsame
    rw [packetBits_append, packetBits_append, List.getElem?_append_left hin,
      List.getElem?_append_left (hbits ▸ hin), hb, hb', Option.some_inj] at hsame
    rw [hsame, Bool.xor_self] at hxor
    cases hxor
  have hvalid := valid_xorBits hlen
  rw [eq_append_of_window hwithin, hcrc] at hvalid
  have hclear := hvalid.not_mem_of_burst polynom_getLsbD_zero (List.length_take_le _ _)
    (count_xorBits_self _)
  have hnone : (xorBits (packetBits body) (packetBits body')).count true = 0 := by
    rw [eq_append_of_window hwithin, List.count_append, List.count_append,
      List.count_eq_zero.mpr hclear, count_replicate_false, count_replicate_false]
  exact packetBits_inj (eq_of_count_xorBits_eq_zero hbits hnone)

/-! ## Detection -/

/-- Of two different packets of one length with the same count byte, `check_packet` does not
accept both when they differ in one, two or three bits, in an odd number of bits, or, with
the same checksum field, in 16 consecutive bits only.
SOURCE: tools.c:52-65, tools.c:116-145 -/
theorem checkPacket_detects {packet packet' : Block} (hframed : Framed packet)
    (hlen : 3 ≤ packet.length) (haccepted : checkPacket packet = some true)
    (hne : packet' ≠ packet) (hsize : packet'.length = packet.length)
    (hcount : packet'[0]? = packet[0]?)
    (herror : bitDistance packet packet' ∈ [1, 2, 3] ∨ bitDistance packet packet' % 2 = 1 ∨
      crcField packet' = crcField packet ∧ BurstOf16 packet packet') :
    checkPacket packet' = some false := by
  have hframed' : Framed packet' := by
    obtain ⟨count, rest, rfl, hself⟩ := hframed
    cases packet' with
    | nil => simp at hsize
    | cons count' rest' =>
      have hsame : count' = count := Option.some_inj.mp hcount
      exact ⟨count', rest', rfl, (congrArg _ hsame).trans (hself.trans hsize.symm)⟩
  by_contra hnot
  have haccepted' : checkPacket packet' = some true := by
    rw [checkPacket_eq hframed' (by omega)] at hnot ⊢
    rw [Option.some_inj, Bool.not_eq_false] at hnot
    rw [hnot]
  obtain ⟨body, rfl, hbody⟩ := sealed_of_checkPacket hframed hlen haccepted
  obtain ⟨body', rfl, hbody'⟩ := sealed_of_checkPacket hframed' (by omega) haccepted'
  have hsame : body.length = body'.length := by omega
  have hvalid := valid_xorBits hsame
  have heven := hvalid.count_even parity_polynom
  have hshort : body.length ≤ 253 := by
    obtain ⟨count, rest, -, hself⟩ := hframed
    have := count.toNat_lt
    omega
  have hpair := hvalid.count_ne_two polynom_getLsbD_zero polynom_seesPairs
    (by simp [hsame]; omega)
  rw [← bitDistance_sealed hsame] at heven hpair
  rcases herror with hfew | hodd | ⟨hfield, hburst⟩
  · simp only [List.mem_cons, List.not_mem_nil, or_false] at hfew
    omega
  · omega
  · apply hne
    rw [crcField_sealed, crcField_sealed] at hfield
    obtain ⟨hlow, hrest⟩ := List.cons.inj hfield
    have hcrc : checksum body = checksum body' :=
      Prod.ext hlow.symm (List.cons.inj hrest).1.symm
    rw [eq_of_burstOf16 hsame hcrc hburst]

/-- The answer to a wake token with three bits of its status flipped. -/
theorem checkPacket_detects_wakeAnswer :
    checkPacket [0x04, 0x02, 0x33, 0x43] = some false :=
  @checkPacket_detects [0x04, 0x11, 0x33, 0x43] _ ⟨0x04, [0x11, 0x33, 0x43], rfl, rfl⟩
    (by decide) (by decide +kernel) (by decide) rfl rfl (Or.inl (by decide +kernel))

end Atsha204.Analysis
