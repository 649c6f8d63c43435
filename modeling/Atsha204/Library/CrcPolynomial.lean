import Mathlib.Algebra.CharP.Two
import Mathlib.Algebra.Field.ZMod
import Mathlib.Algebra.Polynomial.Div
import Mathlib.Data.ZMod.Basic
import Mathlib.Tactic.LinearCombination
import Atsha204.Library.Crc

/-!
# A shift register is long division

The bits of a message are the coefficients of a polynomial over the field with two
elements, the first bit that of the highest power (`bitsPolynomial`), and so are the bits
of a register, by their place values (`wordPolynomial`). One step of the register
multiplies by `X`, adds the new bit at the top and subtracts the generator if the
result would not fit (`wordPolynomial_shiftIn`). What is left behind a message is
therefore the remainder of the message, moved up by the width of the register
(`wordPolynomial_register`).
-/

set_option autoImplicit false

namespace Atsha204.Library

open Polynomial

/-! ## Bits as coefficients -/

/-- A bit as an element of the field with two elements. -/
def ofBit (b : Bool) : ZMod 2 := if b then 1 else 0

/-- A zero bit is the zero of the field. -/
@[simp] theorem ofBit_false : ofBit false = 0 := rfl

/-- A one bit is its one. -/
@[simp] theorem ofBit_true : ofBit true = 1 := rfl

/-- The difference of bits is the sum in the field. -/
theorem ofBit_xor (b b' : Bool) : ofBit (b ^^ b') = ofBit b + ofBit b' := by
  cases b <;> cases b' <;> decide

/-- The polynomial with these coefficients, the highest power first. -/
noncomputable def bitsPolynomial : List Bool → (ZMod 2)[X]
  | [] => 0
  | b :: bits => C (ofBit b) * X ^ bits.length + bitsPolynomial bits

/-- The polynomial whose coefficients are the bits of a register, by their place values. -/
noncomputable def wordPolynomial {w : ℕ} (r : BitVec w) : (ZMod 2)[X] :=
  ∑ i ∈ Finset.range w, C (ofBit (r.getLsbD i)) * X ^ i

section Register

variable {w : ℕ}

/-- The coefficients of the polynomial are the bits of the word. -/
theorem coeff_wordPolynomial (r : BitVec w) (n : ℕ) :
    (wordPolynomial r).coeff n = ofBit (r.getLsbD n) := by
  unfold wordPolynomial
  rw [finsetSum_coeff]
  simp only [coeff_C_mul, coeff_X_pow, mul_ite, mul_one, mul_zero]
  rw [Finset.sum_ite_eq (Finset.range w) n fun i => ofBit (r.getLsbD i)]
  by_cases hn : n < w
  · rw [if_pos (Finset.mem_range.mpr hn)]
  · rw [if_neg (by simpa using hn), BitVec.getLsbD_of_ge r n (by omega), ofBit_false]

/-- The degree is below the width. -/
theorem degree_wordPolynomial_lt (r : BitVec w) : (wordPolynomial r).degree < w := by
  rw [degree_lt_iff_coeff_zero]
  intro n hn
  rw [coeff_wordPolynomial, BitVec.getLsbD_of_ge r n hn, ofBit_false]

/-- The word of zeros is the zero polynomial. -/
@[simp] theorem wordPolynomial_zero : wordPolynomial 0#w = 0 := by
  ext n
  rw [coeff_wordPolynomial, BitVec.getLsbD_zero, ofBit_false, coeff_zero]

/-- The difference of words is the sum of their polynomials. -/
theorem wordPolynomial_xor (r r' : BitVec w) :
    wordPolynomial (r ^^^ r') = wordPolynomial r + wordPolynomial r' := by
  ext n
  rw [coeff_add]
  simp only [coeff_wordPolynomial, BitVec.getLsbD_xor, ofBit_xor]

/-- A word that is taken or not is its polynomial times the bit. -/
theorem wordPolynomial_ite (b : Bool) (r : BitVec w) :
    wordPolynomial (if b then r else 0#w) = C (ofBit b) * wordPolynomial r := by
  cases b <;> simp

/-- A shift multiplies by `X`, but for the bit that drops out. -/
theorem wordPolynomial_shiftLeft (r : BitVec w) :
    wordPolynomial (r <<< 1) + C (ofBit r.msb) * X ^ w = X * wordPolynomial r := by
  ext n
  rw [coeff_add, coeff_C_mul, coeff_X_pow, coeff_wordPolynomial]
  cases n with
  | zero =>
    rw [coeff_X_mul_zero, BitVec.getLsbD_shiftLeft]
    cases w with
    | zero => simp [BitVec.msb_eq_getLsbD_last]
    | succ w => simp
  | succ n =>
    rw [coeff_X_mul, coeff_wordPolynomial, BitVec.getLsbD_shiftLeft]
    obtain hlt | heq | hgt := lt_trichotomy (n + 1) w
    · simp [hlt, hlt.ne]
    · -- the bit that drops out, counted twice
      subst heq
      simp [BitVec.msb_eq_getLsbD_last]
    · rw [if_neg hgt.ne', BitVec.getLsbD_of_ge r n (by omega)]
      simp [not_lt_of_gt hgt]

/-! ## The register as long division -/

/-- The generator: the bits of `poly` and the leading one, which the register leaves out. -/
noncomputable def generator (poly : BitVec w) : (ZMod 2)[X] := X ^ w + wordPolynomial poly

variable (poly : BitVec w)

/-- The generator has the leading coefficient one. -/
theorem generator_monic : (generator poly).Monic :=
  monic_X_pow_add (degree_wordPolynomial_lt poly)

/-- Its degree is the width of the register. -/
theorem degree_generator : (generator poly).degree = w := by
  unfold generator
  rw [degree_add_eq_left_of_degree_lt, degree_X_pow]
  rw [degree_X_pow]
  exact degree_wordPolynomial_lt poly

/-- One bit is taken in at the top of the register, and the generator subtracted if that
leaves a bit there. -/
theorem wordPolynomial_shiftIn (r : BitVec w) (b : Bool) :
    wordPolynomial (shiftIn poly r b) = X * wordPolynomial r + C (ofBit b) * X ^ w +
      generator poly * C (ofBit (b ^^ r.msb)) := by
  have htwice : C (ofBit r.msb) * X ^ w + C (ofBit r.msb) * X ^ w = 0 :=
    CharTwo.add_self_eq_zero _
  have htwice' : C (ofBit b) * X ^ w + C (ofBit b) * X ^ w = 0 :=
    CharTwo.add_self_eq_zero _
  unfold shiftIn generator
  rw [wordPolynomial_xor, wordPolynomial_ite, ← wordPolynomial_shiftLeft, ofBit_xor, C_add]
  linear_combination -htwice - htwice'

/-- What the register holds differs from the message, behind what it held before, by a multiple
of the generator. -/
theorem wordPolynomial_register_eq (r : BitVec w) (bits : List Bool) :
    ∃ q, wordPolynomial (register poly r bits) =
      wordPolynomial r * X ^ bits.length + bitsPolynomial bits * X ^ w + generator poly * q := by
  induction bits generalizing r with
  | nil => exact ⟨0, by simp [bitsPolynomial]⟩
  | cons b bits ih =>
    obtain ⟨q, hq⟩ := ih (shiftIn poly r b)
    refine ⟨C (ofBit (b ^^ r.msb)) * X ^ bits.length + q, ?_⟩
    rw [register_cons, hq, wordPolynomial_shiftIn, bitsPolynomial, List.length_cons]
    ring

/-- The register is the remainder of the message times `X ^ w`. -/
theorem wordPolynomial_register (bits : List Bool) :
    wordPolynomial (register poly 0#w bits) =
      (bitsPolynomial bits * X ^ w) %ₘ generator poly := by
  obtain ⟨q, hq⟩ := wordPolynomial_register_eq poly 0#w bits
  rw [wordPolynomial_zero, zero_mul, zero_add] at hq
  have hdegree : (wordPolynomial (register poly 0#w bits)).degree < (generator poly).degree := by
    rw [degree_generator]
    exact degree_wordPolynomial_lt _
  refine (div_modByMonic_unique (-q) _ (generator_monic poly) ⟨?_, hdegree⟩).2.symm
  rw [hq]
  ring

end Register

end Atsha204.Library
