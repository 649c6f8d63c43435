import Mathlib.Tactic.Common

/-!
# Cyclic redundancy checks, bit by bit

A register of `w` bits takes in a message bit by bit: it is shifted up, and the generator
is added when the bit differs from the one that drops out (`shiftIn`, `register`). A word
is a message with the bits of the register behind it, in the order of their place values
(`Valid`).

The register is linear in the message (`register_xor`), so the difference of two valid
words is again one (`Valid.xor`), and what a code detects is what no valid word looks
like. Three facts decide that: a generator with an odd number of bits keeps the parity
(`Valid.count_even`), one with a lowest bit sees every burst that fits into the register
(`Valid.not_mem_of_burst`), and two single bits are told apart as long as the generator
does not come back to itself, or to a single bit, while it is shifted
(`Valid.count_ne_two`).
-/

set_option autoImplicit false

namespace Atsha204.Library

/-! ## Lists of bits -/

/-- The sum of some bits. -/
def parity (bits : List Bool) : Bool := bits.foldr Bool.xor false

/-- There is no one bit in nothing. -/
@[simp] theorem parity_nil : parity [] = false := rfl

/-- A bit in front turns the parity over if it is one. -/
@[simp] theorem parity_cons (b : Bool) (bits : List Bool) :
    parity (b :: bits) = (b ^^ parity bits) := rfl

/-- The parities of two pieces add up. -/
@[simp] theorem parity_append (bits bits' : List Bool) :
    parity (bits ++ bits') = (parity bits ^^ parity bits') := by
  induction bits with
  | nil => simp
  | cons b bits ih => simp [ih]

/-- The difference of two lists of bits. -/
abbrev xorBits (bits bits' : List Bool) : List Bool := List.zipWith Bool.xor bits bits'

/-- The parity is odd when the number of one bits is. -/
theorem parity_eq_true_iff (bits : List Bool) : parity bits = true ↔ bits.count true % 2 = 1 := by
  induction bits with
  | nil => simp
  | cons b bits ih =>
    cases b with
    | false => simpa using ih
    | true =>
      have hfalse : parity bits = false ↔ ¬ bits.count true % 2 = 1 := by
        rw [← ih, Bool.not_eq_true]
      simp only [parity_cons, Bool.true_xor, Bool.not_eq_true', List.count_cons_self, hfalse]
      omega

/-- Zero bits have even parity. -/
theorem parity_replicate_false (n : ℕ) : parity (List.replicate n false) = false := by
  induction n with
  | zero => rfl
  | succ n ih => rw [List.replicate_succ, parity_cons, ih, Bool.xor_false]

/-- There is no one bit among zero bits. -/
@[simp] theorem count_replicate_false (n : ℕ) : (List.replicate n false).count true = 0 := by
  rw [List.count_replicate]
  rfl

/-- The parity of a difference is the difference of the parities. -/
theorem parity_xorBits {bits bits' : List Bool} (h : bits.length = bits'.length) :
    parity (xorBits bits bits') = (parity bits ^^ parity bits') := by
  induction bits generalizing bits' with
  | nil =>
    obtain rfl := List.length_eq_zero_iff.mp h.symm
    rfl
  | cons b bits ih =>
    cases bits' with
    | nil => simp at h
    | cons b' bits' =>
      simp only [xorBits, List.zipWith_cons_cons, parity_cons] at ih ⊢
      rw [ih (by simpa using h)]
      cases b <;> cases b' <;> simp

/-- A list with no bit set. -/
theorem eq_replicate_of_count_eq_zero {bits : List Bool} (h : bits.count true = 0) :
    bits = List.replicate bits.length false := by
  rw [List.eq_replicate_iff]
  refine ⟨rfl, fun b hb => ?_⟩
  cases b with
  | false => rfl
  | true => exact absurd (List.count_pos_iff.mpr hb) (by omega)

/-- The first bit that is set. -/
theorem exists_of_count_eq_succ {bits : List Bool} {n : ℕ} (h : bits.count true = n + 1) :
    ∃ front rest, bits = List.replicate front false ++ true :: rest ∧ rest.count true = n := by
  induction bits with
  | nil => simp at h
  | cons b bits ih =>
    cases b with
    | true => exact ⟨0, bits, rfl, by simpa using h⟩
    | false =>
      obtain ⟨front, rest, rfl, hrest⟩ := ih (by simpa using h)
      exact ⟨front + 1, rest, rfl, hrest⟩

/-- Two lists of bits without a difference are the same. -/
theorem eq_of_count_xorBits_eq_zero {bits bits' : List Bool} (hlen : bits.length = bits'.length)
    (h : (xorBits bits bits').count true = 0) : bits = bits' := by
  apply List.ext_getElem hlen
  intro i hi hi'
  have hclear := List.getElem_of_eq (eq_replicate_of_count_eq_zero h)
    (by rw [List.length_zipWith]; omega : i < (xorBits bits bits').length)
  rw [List.getElem_zipWith, List.getElem_replicate] at hclear
  cases hbit : bits[i] <;> cases hbit' : bits'[i] <;> simp_all

/-- Nothing differs from itself. -/
theorem count_xorBits_self (bits : List Bool) : (xorBits bits bits).count true = 0 := by
  induction bits with
  | nil => rfl
  | cons b bits ih =>
    unfold xorBits at ih ⊢
    rw [List.zipWith_cons_cons, Bool.xor_self, List.count_cons_of_ne Bool.false_ne_true, ih]

/-- A list whose set bits all lie in a window. -/
theorem eq_append_of_window {bits : List Bool} {start width : ℕ}
    (h : ∀ i, bits[i]? = some true → start ≤ i ∧ i < start + width) :
    bits = List.replicate (bits.take start).length false ++ (bits.drop start).take width ++
      List.replicate ((bits.drop start).drop width).length false := by
  have hclear : ∀ part : List Bool, (∀ b ∈ part, b = false) →
      part = List.replicate part.length false :=
    fun part hpart => List.eq_replicate_iff.mpr ⟨rfl, hpart⟩
  have hfront : bits.take start = List.replicate (bits.take start).length false := by
    apply hclear
    intro b hb
    obtain ⟨i, hi, rfl⟩ := List.getElem_of_mem hb
    rw [List.length_take] at hi
    rw [List.getElem_take]
    have hin : i < bits.length := by omega
    by_contra hset
    rw [Bool.not_eq_false] at hset
    have := h i (by rw [List.getElem?_eq_getElem hin, hset])
    omega
  have hback : (bits.drop start).drop width =
      List.replicate ((bits.drop start).drop width).length false := by
    apply hclear
    intro b hb
    obtain ⟨i, hi, rfl⟩ := List.getElem_of_mem hb
    rw [List.getElem_drop, List.getElem_drop]
    rw [List.length_drop, List.length_drop] at hi
    have hin : start + (width + i) < bits.length := by omega
    by_contra hset
    rw [Bool.not_eq_false] at hset
    have := h _ (by rw [List.getElem?_eq_getElem hin, hset])
    omega
  conv_lhs =>
    rw [← List.take_append_drop start bits, ← List.take_append_drop width (bits.drop start)]
  rw [← hfront, ← hback, List.append_assoc]

/-! ## The register -/

section Register

variable {w : ℕ} (poly : BitVec w)

/-- Take in one bit of a message. -/
def shiftIn (r : BitVec w) (bit : Bool) : BitVec w :=
  (r <<< 1) ^^^ (if bit ^^ r.msb then poly else 0#w)

/-- Take in a message. -/
def register (r : BitVec w) (bits : List Bool) : BitVec w := bits.foldl (shiftIn poly) r

/-- Without a bit the register stays as it is. -/
@[simp] theorem register_nil (r : BitVec w) : register poly r [] = r := rfl

/-- The first bit is shifted in before the others. -/
@[simp] theorem register_cons (r : BitVec w) (b : Bool) (bits : List Bool) :
    register poly r (b :: bits) = register poly (shiftIn poly r b) bits := rfl

/-- One piece is shifted in behind the other. -/
@[simp] theorem register_append (r : BitVec w) (bits bits' : List Bool) :
    register poly r (bits ++ bits') = register poly (register poly r bits) bits' :=
  List.foldl_append

/-- Shifting in is linear. -/
theorem shiftIn_xor (r r' : BitVec w) (b b' : Bool) :
    shiftIn poly (r ^^^ r') (b ^^ b') = shiftIn poly r b ^^^ shiftIn poly r' b' := by
  unfold shiftIn
  rw [BitVec.shiftLeft_xor_distrib, BitVec.msb_xor]
  have hbits : ((b ^^ b') ^^ (r.msb ^^ r'.msb)) = ((b ^^ r.msb) ^^ (b' ^^ r'.msb)) := by
    cases b <;> cases b' <;> cases r.msb <;> cases r'.msb <;> rfl
  rw [hbits]
  cases b ^^ r.msb <;> cases b' ^^ r'.msb <;> simp
  · ac_rfl
  · ac_rfl
  · rw [show (r <<< 1 ^^^ poly) ^^^ (r' <<< 1 ^^^ poly) =
      (r <<< 1 ^^^ r' <<< 1) ^^^ (poly ^^^ poly) by ac_rfl]
    simp

/-- The register is linear in what it starts with and in the message. -/
theorem register_xor (r r' : BitVec w) {bits bits' : List Bool}
    (h : bits.length = bits'.length) : register poly (r ^^^ r') (xorBits bits bits') =
      register poly r bits ^^^ register poly r' bits' := by
  induction bits generalizing r r' bits' with
  | nil =>
    obtain rfl := List.length_eq_zero_iff.mp h.symm
    rfl
  | cons b bits ih =>
    cases bits' with
    | nil => simp at h
    | cons b' bits' =>
      simp only [xorBits, List.zipWith_cons_cons, register_cons, shiftIn_xor]
      exact ih _ _ (by simpa using h)

/-- A zero bit leaves a register of zeros as it is. -/
@[simp] theorem shiftIn_zero_false : shiftIn poly 0#w false = 0 := by
  simp [shiftIn]

/-- A one bit turns a register of zeros into the polynomial. -/
@[simp] theorem shiftIn_zero_true : shiftIn poly 0#w true = poly := by
  simp [shiftIn]

/-- Zero bits leave a register of zeros as it is. -/
@[simp] theorem register_zero_zeros (n : ℕ) :
    register poly 0#w (List.replicate n false) = 0#w := by
  induction n with
  | zero => rfl
  | succ n ih =>
    rw [List.replicate_succ, register_cons, shiftIn_zero_false]
    exact ih

/-! ### Bursts -/

section Bursts

variable {poly} (hpoly : poly.getLsbD 0 = true)
include hpoly

/-- A message that fits into the register and leaves it empty is what the register held. -/
theorem getMsbD_of_register_eq_zero {bits : List Bool} {r : BitVec w} (hlen : bits.length ≤ w)
    (h : register poly r bits = 0#w) (i : ℕ) (hi : i < w) : r.getMsbD i = bits.getD i false := by
  induction bits generalizing r i with
  | nil =>
    rw [register_nil] at h
    simp [h]
  | cons b bits ih =>
    rw [List.length_cons] at hlen
    have hnext : ∀ i, i < w → (shiftIn poly r b).getMsbD i = bits.getD i false :=
      fun i hi => ih (by omega) h i hi
    -- the lowest bit of the shifted register is clear, so the generator was not added
    have hlow : (shiftIn poly r b).getLsbD 0 = false := by
      have hlast := hnext (w - 1) (by omega)
      rw [List.getD_eq_getElem?_getD, List.getElem?_eq_none (by omega), Option.getD_none] at hlast
      rwa [BitVec.getMsbD_eq_getLsbD, decide_eq_true (by omega), Bool.true_and,
        show w - 1 - (w - 1) = 0 by omega] at hlast
    have hb : (b ^^ r.msb) = false := by
      cases hb : b ^^ r.msb with
      | false => rfl
      | true =>
        rw [shiftIn, hb, if_pos rfl, BitVec.getLsbD_xor, hpoly] at hlow
        simp at hlow
    have hshift : shiftIn poly r b = r <<< 1 := by
      rw [shiftIn, hb]
      simp
    cases i with
    | zero =>
      rw [List.getD_cons_zero, ← BitVec.msb_eq_getMsbD_zero]
      cases b <;> simpa using hb
    | succ i =>
      have hbit := hnext i (by omega)
      rw [hshift, BitVec.getMsbD_shiftLeft] at hbit
      rw [List.getD_cons_succ, ← hbit, Nat.add_comm]

/-- Shifting loses nothing. -/
theorem register_zeros_eq_zero {r : BitVec w} {n : ℕ}
    (h : register poly r (List.replicate n false) = 0#w) : r = 0#w := by
  induction n generalizing r with
  | zero => exact h
  | succ n ih =>
    rw [List.replicate_succ, register_cons] at h
    have hone : register poly r [false] = 0#w := ih h
    apply BitVec.eq_of_getMsbD_eq
    intro i hi
    rw [getMsbD_of_register_eq_zero hpoly (by simpa using by omega) hone i hi]
    cases i <;> simp

/-- A burst that fits into the register is seen. -/
theorem register_burst_ne_zero {burst : List Bool} (hlen : burst.length ≤ w) (h : true ∈ burst)
    (front back : ℕ) : register poly 0#w
      (List.replicate front false ++ burst ++ List.replicate back false) ≠ 0#w := by
  intro hzero
  rw [register_append, register_append, register_zero_zeros] at hzero
  have hburst := getMsbD_of_register_eq_zero hpoly hlen (register_zeros_eq_zero hpoly hzero)
  obtain ⟨i, hi, hbit⟩ := List.getElem_of_mem h
  have hclear := hburst i (by omega)
  rw [List.getD_eq_getElem?_getD, List.getElem?_eq_getElem hi, hbit] at hclear
  simp at hclear

end Bursts

/-! ### The bits of the register -/

/-- The bits of a register in the order of their place values. -/
def lsbBits (r : BitVec w) : List Bool := (List.range w).map r.getLsbD

/-- The register has as many bits as it is wide. -/
@[simp] theorem lsbBits_length (r : BitVec w) : (lsbBits r).length = w := by
  simp [lsbBits]

/-- The bits stand in the order of their weights. -/
theorem getElem_lsbBits (r : BitVec w) (i : ℕ) (h : i < (lsbBits r).length) :
    (lsbBits r)[i] = r.getLsbD i := by
  simp [lsbBits]

/-- The bits of a difference are the difference of the bits. -/
theorem lsbBits_xor (r r' : BitVec w) :
    lsbBits (r ^^^ r') = xorBits (lsbBits r) (lsbBits r') := by
  apply List.ext_getElem
  · simp
  · intro i hi hi'
    rw [List.getElem_zipWith, getElem_lsbBits, getElem_lsbBits, getElem_lsbBits,
      BitVec.getLsbD_xor]

/-- A register of zeros has zero bits only. -/
@[simp] theorem lsbBits_zero : lsbBits 0#w = List.replicate w false := by
  apply List.ext_getElem
  · simp
  · intro i hi hi'
    rw [getElem_lsbBits, List.getElem_replicate]
    exact BitVec.getLsbD_zero

/-- A register without a one bit is zero. -/
theorem eq_zero_of_count_lsbBits {r : BitVec w} (h : (lsbBits r).count true = 0) : r = 0#w := by
  apply BitVec.eq_of_getLsbD_eq
  intro i hi
  have hclear := eq_replicate_of_count_eq_zero h
  have hbit := getElem_lsbBits r i (by rwa [lsbBits_length])
  rw [← hbit, List.getElem_of_eq hclear, List.getElem_replicate]
  exact BitVec.getLsbD_zero.symm

/-- What drops out of the register is what its parity loses. -/
theorem parity_lsbBits_shiftLeft (r : BitVec w) :
    parity (lsbBits (r <<< 1)) = (parity (lsbBits r) ^^ r.msb) := by
  cases w with
  | zero => simp [lsbBits, BitVec.msb_eq_getLsbD_last]
  | succ w =>
    have hshifted : lsbBits (r <<< 1) = false :: (List.range w).map r.getLsbD := by
      unfold lsbBits
      rw [List.range_succ_eq_map, List.map_cons, List.map_map]
      apply congrArg₂
      · simp
      · apply List.map_congr_left
        intro i hi
        have hlt := List.mem_range.mp hi
        simp [BitVec.getLsbD_eq_getElem (Nat.lt_succ_of_lt hlt), hlt]
    have hkept : lsbBits r = (List.range w).map r.getLsbD ++ [r.msb] := by
      unfold lsbBits
      rw [List.range_succ, List.map_append, BitVec.msb_eq_getLsbD_last]
      rfl
    rw [hshifted, hkept]
    simp

section Parity

variable {poly} (hpoly : parity (lsbBits poly) = true)
include hpoly

/-- If the polynomial has an odd number of one bits, shifting in adds the bit to the parity. -/
theorem parity_shiftIn (r : BitVec w) (b : Bool) :
    parity (lsbBits (shiftIn poly r b)) = (parity (lsbBits r) ^^ b) := by
  have hgenerator : parity (lsbBits (if b ^^ r.msb then poly else 0#w)) = (b ^^ r.msb) := by
    cases b ^^ r.msb with
    | false => simp [parity_replicate_false]
    | true => exact hpoly
  unfold shiftIn
  rw [lsbBits_xor, parity_xorBits (by simp), parity_lsbBits_shiftLeft, hgenerator]
  cases parity (lsbBits r) <;> cases b <;> cases r.msb <;> rfl

/-- A generator with an odd number of bits carries the parity of the message. -/
theorem parity_register (r : BitVec w) (bits : List Bool) :
    parity (lsbBits (register poly r bits)) = (parity (lsbBits r) ^^ parity bits) := by
  induction bits generalizing r with
  | nil => simp
  | cons b bits ih => rw [register_cons, ih, parity_shiftIn hpoly, parity_cons, Bool.xor_assoc]

end Parity

/-! ## Valid words -/

/-- A message and the bits of its register. -/
def Valid (message check : List Bool) : Prop := check = lsbBits (register poly 0#w message)

/-- The difference of two valid words is a valid word. -/
theorem Valid.xor {message check message' check' : List Bool} (h : Valid poly message check)
    (h' : Valid poly message' check') (hlen : message.length = message'.length) :
    Valid poly (xorBits message message') (xorBits check check') := by
  unfold Valid at *
  have hregister := register_xor poly 0#w 0#w hlen
  rw [BitVec.xor_zero] at hregister
  rw [hregister, lsbBits_xor, h, h']

/-- The generator, shifted less than `n` times, is not a single bit, and shifted once more
it is not the generator again. -/
def SeesPairs (n : ℕ) : Prop := ∀ k < n,
  (lsbBits (register poly poly (List.replicate k false))).count true ≠ 1 ∧
    register poly poly (List.replicate (k + 1) false) ≠ poly

/-- A single bit, less one, has no bit in common with itself. -/
theorem and_sub_one_of_count_eq_one {r : BitVec w} (h : (lsbBits r).count true = 1) :
    r &&& (r - 1#w) = 0#w := by
  obtain ⟨i, rest, hbits, hrest⟩ := exists_of_count_eq_succ h
  have hlen := congrArg List.length hbits
  rw [lsbBits_length, List.length_append, List.length_replicate, List.length_cons] at hlen
  have hpow : r = BitVec.twoPow w i := by
    apply BitVec.eq_of_getLsbD_eq
    intro j hj
    rw [BitVec.getLsbD_twoPow, ← getElem_lsbBits r j (by rwa [lsbBits_length]),
      List.getElem_of_eq hbits]
    obtain hbelow | rfl | habove := Nat.lt_trichotomy j i
    · rw [List.getElem_append_left (by simpa using hbelow), List.getElem_replicate]
      simp [(Nat.ne_of_lt hbelow).symm]
    · rw [List.getElem_append_right (by simp)]
      simp [hj]
    · rw [List.getElem_append_right (by simpa using Nat.le_of_lt habove)]
      obtain ⟨k, rfl⟩ : ∃ k, j = i + (k + 1) := ⟨j - i - 1, by omega⟩
      have hclear : ∀ b ∈ rest, b = false := by
        rw [eq_replicate_of_count_eq_zero hrest]
        exact fun b hb => List.eq_of_mem_replicate hb
      simpa using hclear _ (List.getElem_mem _)
  have hlt : 2 ^ i < 2 ^ w := Nat.pow_lt_pow_right (by decide) (by omega)
  have hnat : r.toNat = 2 ^ i := by rw [hpow, BitVec.toNat_twoPow, Nat.mod_eq_of_lt hlt]
  have hone : (1#w).toNat = 1 := by
    rw [BitVec.toNat_ofNat, Nat.mod_eq_of_lt]
    exact Nat.one_lt_two_pow (by omega)
  apply BitVec.eq_of_toNat_eq
  rw [BitVec.toNat_and, BitVec.toNat_sub_of_le, hone, hnat, Nat.and_two_pow_sub_one_eq_mod]
  · simp
  · rw [BitVec.le_def, hone, hnat]
    exact Nat.one_le_two_pow

/-- The same, one shift after the other. -/
def seesPairsFrom (r : BitVec w) : ℕ → Bool
  | 0 => true
  | n + 1 => r &&& (r - 1#w) != 0#w && shiftIn poly r false != poly &&
    seesPairsFrom (shiftIn poly r false) n

/-- The check of one register after the other shows that pairs are seen. -/
theorem seesPairs_of_seesPairsFrom {n : ℕ} (h : seesPairsFrom poly poly n = true) :
    SeesPairs poly n := by
  have hfrom : ∀ n r, seesPairsFrom poly r n = true → ∀ k < n,
      (lsbBits (register poly r (List.replicate k false))).count true ≠ 1 ∧
        register poly r (List.replicate (k + 1) false) ≠ poly := by
    intro n
    induction n with
    | zero => intro r _ k hk; omega
    | succ n ih =>
      intro r hr k hk
      simp only [seesPairsFrom, Bool.and_eq_true, bne_iff_ne] at hr
      obtain ⟨⟨hcount, hne⟩, hrest⟩ := hr
      cases k with
      | zero => exact ⟨fun h => hcount (and_sub_one_of_count_eq_one h), hne⟩
      | succ k => exact ih _ hrest k (by omega)
  exact hfrom n poly h

section Detection

variable {poly} {message check : List Bool}

/-- No valid word has an odd number of bits set. -/
theorem Valid.count_even (h : Valid poly message check) (hpoly : parity (lsbBits poly) = true) :
    (message ++ check).count true % 2 = 0 := by
  have hparity : parity (message ++ check) = false := by
    unfold Valid at h
    rw [parity_append, h, parity_register hpoly, lsbBits_zero, parity_replicate_false,
      Bool.false_xor, Bool.xor_self]
  have hodd : ¬ (message ++ check).count true % 2 = 1 := by
    rw [← parity_eq_true_iff, hparity]
    exact Bool.false_ne_true
  omega

/-- No valid word has exactly two bits set. -/
theorem Valid.count_ne_two (h : Valid poly message check) (hlow : poly.getLsbD 0 = true)
    {n : ℕ} (hpairs : SeesPairs poly n) (hlen : message.length ≤ n) :
    (message ++ check).count true ≠ 2 := by
  intro hcount
  unfold Valid at h
  rw [List.count_append] at hcount
  obtain hnone | hone | htwo : message.count true = 0 ∨ message.count true = 0 + 1 ∨
      message.count true = 0 + 1 + 1 := by omega
  · -- both bits in the check: it is the check of nothing
    rw [eq_replicate_of_count_eq_zero hnone, register_zero_zeros, lsbBits_zero] at h
    rw [h, count_replicate_false] at hcount
    omega
  · -- one bit in the message: the check is a shifted generator
    obtain ⟨front, rest, rfl, hrest⟩ := exists_of_count_eq_succ hone
    rw [eq_replicate_of_count_eq_zero hrest, register_append, register_zero_zeros,
      register_cons, shiftIn_zero_true] at h
    refine (hpairs rest.length ?_).1 ?_
    · rw [List.length_append, List.length_cons] at hlen
      omega
    · rw [← h]
      omega
  · -- both bits in the message: the generator has come back to itself
    obtain ⟨front, rest, rfl, hrest⟩ := exists_of_count_eq_succ htwo
    obtain ⟨gap, rest', rfl, hrest'⟩ := exists_of_count_eq_succ hrest
    have hzero := eq_zero_of_count_lsbBits (by rw [← h]; omega)
    rw [eq_replicate_of_count_eq_zero hrest', register_append, register_zero_zeros,
      register_cons, shiftIn_zero_true, register_append, register_cons] at hzero
    have hback := register_zeros_eq_zero hlow hzero
    refine (hpairs gap ?_).2 ?_
    · simp only [List.length_append, List.length_cons, List.length_replicate] at hlen
      omega
    · have hsplit := shiftIn_xor poly (register poly poly (List.replicate gap false)) 0#w false true
      rw [BitVec.xor_zero, Bool.false_xor, hback, shiftIn_zero_true] at hsplit
      rw [List.replicate_succ', register_append, register_cons, register_nil]
      exact BitVec.xor_eq_zero_iff.mp hsplit.symm

/-- No valid word is a burst in the message that fits into the register. -/
theorem Valid.not_mem_of_burst {front back : ℕ} {burst : List Bool}
    (h : Valid poly (List.replicate front false ++ burst ++ List.replicate back false) check)
    (hlow : poly.getLsbD 0 = true) (hlen : burst.length ≤ w) (hcheck : check.count true = 0) :
    true ∉ burst := by
  intro hmem
  apply register_burst_ne_zero hlow hlen hmem front back
  unfold Valid at h
  apply eq_zero_of_count_lsbBits
  rw [← h]
  exact hcheck

end Detection

end Register

end Atsha204.Library
