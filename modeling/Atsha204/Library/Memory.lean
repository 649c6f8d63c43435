import Mathlib.Data.Vector.Basic
import Mathlib.Tactic.Common

/-!
# Blocks of memory with checked accesses

A block is the list of its cells. Every access names an offset and fails, as an
`Option`, when it leaves the block: `peek` reads one cell at a signed offset, `copyOut`
reads a prefix, `poke` and `pokeAll` write, `overwrite` writes a prefix of a block of
fixed size. The lemmas give the value of each access that stays inside and say exactly
when an access stays inside.
-/

set_option autoImplicit false

namespace Atsha204.Library

variable {α : Type}

/-- The cell at a signed offset. -/
def peek (block : List α) (i : Int) : Option α :=
  if i < 0 then none else block[i.toNat]?

/-- The first `n` cells. -/
def copyOut (block : List α) (n : ℕ) : Option (List α) :=
  if n ≤ block.length then some (block.take n) else none

/-- Write one cell. -/
def poke (block : List α) (i : ℕ) (a : α) : Option (List α) :=
  if i < block.length then some (block.set i a) else none

/-- Write one cell after another, each at an index of its own behind an offset. -/
def pokeEach (offset : ℕ) : List ℕ → List α → List α → Option (List α)
  | i :: indices, a :: cells, block =>
    (poke block (offset + i) a).bind (pokeEach offset indices cells)
  | _, _, block => some block

/-- Write consecutive cells from an offset on. -/
def pokeAll (block : List α) (offset : ℕ) (cells : List α) : Option (List α) :=
  if offset + cells.length ≤ block.length then
    some (block.take offset ++ cells ++ block.drop (offset + cells.length))
  else none

/-- Write a prefix of a block of fixed size. -/
def overwrite {n : ℕ} (block : List.Vector α n) (cells : List α) :
    Option (List.Vector α n) :=
  if h : cells.length ≤ n then
    some ⟨cells ++ block.val.drop cells.length, by
      have := block.property
      simp only [List.length_append, List.length_drop]
      omega⟩
  else none

/-- Write consecutive cells of a block of fixed size from an offset on. -/
def overwriteAt {n : ℕ} (block : List.Vector α n) (offset : ℕ) (cells : List α) :
    Option (List.Vector α n) :=
  if h : offset + cells.length ≤ n then
    some ⟨block.val.take offset ++ cells ++ block.val.drop (offset + cells.length), by
      have := block.property
      simp only [List.length_append, List.length_take, List.length_drop]
      omega⟩
  else none

/-- A block with some cells in the place of others. -/
def splice (block : List α) (offset : ℕ) (cells : List α) : List α :=
  block.take offset ++ cells ++ block.drop (offset + cells.length)

/-! ## Reading -/

/-- An offset inside the block reads its cell. -/
theorem peek_natCast (block : List α) (i : ℕ) : peek block i = block[i]? := by
  simp [peek]

/-- The first cell. -/
@[simp] theorem peek_zero (a : α) (block : List α) : peek (a :: block) 0 = some a := rfl

/-- What is inside of the block can be copied out. -/
@[simp] theorem copyOut_of_le {block : List α} {n : ℕ} (h : n ≤ block.length) :
    copyOut block n = some (block.take n) := if_pos h

/-- A block of this size is copied out whole. -/
theorem copyOut_all {block : List α} {n : ℕ} (h : block.length = n) :
    copyOut block n = some block := by
  rw [copyOut_of_le h.ge, ← h, List.take_length]

/-- A prefix is read exactly when the block is long enough. -/
theorem copyOut_eq_some_iff (block cells : List α) (n : ℕ) :
    copyOut block n = some cells ↔ n ≤ block.length ∧ cells = block.take n := by
  unfold copyOut
  split
  · simp [*, eq_comm]
  · simp [*]

/-- A list of accesses goes well exactly when all of them do. -/
theorem mapM_isSome_iff {β : Type} (f : β → Option α) (bs : List β) :
    (bs.mapM f).isSome ↔ ∀ b ∈ bs, (f b).isSome := by
  induction bs with
  | nil => simp
  | cons b bs ih =>
    rw [List.mapM_cons, List.forall_mem_cons, ← ih]
    cases f b with
    | none => simp
    | some a => cases bs.mapM f <;> simp

/-- A list of accesses fails with any of them. -/
theorem mapM_eq_none {β : Type} {f : β → Option α} {bs : List β} {b : β} (hb : b ∈ bs)
    (h : f b = none) : bs.mapM f = none := by
  rw [← Option.not_isSome_iff_eq_none, mapM_isSome_iff]
  intro hall
  have hsome := hall b hb
  rw [h] at hsome
  cases hsome

/-- An offset is inside exactly when it is not negative and below the length. -/
theorem peek_isSome_iff (block : List α) (i : Int) :
    (peek block i).isSome ↔ 0 ≤ i ∧ i < block.length := by
  unfold peek
  split
  · simp only [Option.isSome_none, Bool.false_eq_true, false_iff]
    omega
  · rw [isSome_getElem?]
    omega

/-! ## Writing -/

/-- The cell behind the front is written. -/
theorem poke_append_cons (front back : List α) (a b : α) :
    poke (front ++ a :: back) front.length b = some (front ++ b :: back) := by
  simp [poke]

/-- Writing over a middle part of the same length replaces it. -/
theorem pokeAll_append (front middle back cells : List α)
    (h : cells.length = middle.length) :
    pokeAll (front ++ middle ++ back) front.length cells = some (front ++ cells ++ back) := by
  have hlen : front.length + cells.length ≤ (front ++ middle ++ back).length := by
    simp only [List.length_append]; omega
  have htake : (front ++ middle ++ back).take front.length = front := by
    rw [List.append_assoc, List.take_left' rfl]
  have hdrop : (front ++ middle ++ back).drop (front.length + middle.length) = back := by
    rw [← List.length_append, List.drop_left' rfl]
  rw [pokeAll, if_pos hlen, htake, h, hdrop]

/-- What fits a buffer can be written to its beginning. -/
theorem overwrite_of_le {n : ℕ} (block : List.Vector α n) {cells : List α}
    (h : cells.length ≤ n) : ∃ block', overwrite block cells = some block' ∧
      block'.val = cells ++ block.val.drop cells.length := ⟨_, dif_pos h, rfl⟩

/-- Cells written one by one at consecutive indices are written at once. -/
theorem pokeEach_range' (offset start : ℕ) (cells block : List α)
    (h : offset + start + cells.length ≤ block.length) :
    pokeEach offset (List.range' start cells.length) cells block =
      pokeAll block (offset + start) cells := by
  induction cells generalizing start block with
  | nil => simp [pokeEach, pokeAll] at h ⊢; omega
  | cons a cells ih =>
    rw [List.length_cons] at h
    have hpoke : poke block (offset + start) a = some (block.set (offset + start) a) := by
      rw [poke, if_pos (by omega)]
    rw [List.length_cons, List.range'_succ, pokeEach, hpoke, Option.bind_some,
      ih (start + 1) _ (by rw [List.length_set]; omega)]
    rw [pokeAll, pokeAll, if_pos (by rw [List.length_set]; omega),
      if_pos (by rw [List.length_cons]; omega)]
    have htake : (block.set (offset + start) a).take (offset + (start + 1)) =
        block.take (offset + start) ++ [a] := by
      rw [← Nat.add_assoc, List.take_add_one, List.take_set_of_le (by omega)]
      simp only [List.getElem?_set_self (by omega : offset + start < block.length),
        Option.toList_some]
    have hdrop : (block.set (offset + start) a).drop (offset + (start + 1) + cells.length) =
        block.drop (offset + start + (cells.length + 1)) := by
      rw [List.drop_set_of_lt (by omega)]
      congr 1
      omega
    rw [htake, hdrop, List.append_assoc, List.length_cons]
    simp

/-- Overwriting a whole block leaves nothing of it. -/
theorem overwrite_full {n : ℕ} (block : List.Vector α n) (cells : List α)
    (h : cells.length = n) : overwrite block cells = some ⟨cells, h⟩ := by
  have hdrop : block.val.drop cells.length = [] := by
    apply List.drop_eq_nil_of_le
    rw [block.property, h]
  rw [overwrite, dif_pos h.le]
  simp [hdrop]

/-! ## Splicing -/

section Splice

variable {block cells : List α} {offset : ℕ} (h : offset + cells.length ≤ block.length)
include h

/-- What fits a block can be written into it. -/
theorem pokeAll_of_le : pokeAll block offset cells = some (splice block offset cells) := if_pos h

/-- A piece that is written into a block does not change its size. -/
theorem splice_length : (splice block offset cells).length = block.length := by
  simp only [splice, List.length_append, List.length_take, List.length_drop]
  omega

/-- The cells of a spliced block. -/
theorem getElem?_splice (i : ℕ) : (splice block offset cells)[i]? =
    if i < offset then block[i]?
    else if i < offset + cells.length then cells[i - offset]? else block[i]? := by
  have hfront : (block.take offset).length = offset := List.length_take_of_le (by omega)
  rw [splice, List.append_assoc]
  by_cases hlow : i < offset
  · rw [if_pos hlow, List.getElem?_append_left (by omega), List.getElem?_take_of_lt hlow]
  · rw [if_neg hlow, List.getElem?_append_right (by omega), hfront]
    by_cases hmid : i < offset + cells.length
    · rw [if_pos hmid, List.getElem?_append_left (by omega)]
    · rw [if_neg hmid, List.getElem?_append_right (by omega), List.getElem?_drop]
      congr 1
      omega

/-- Splicing the same cells in again changes nothing. -/
theorem splice_splice : splice (splice block offset cells) offset cells =
    splice block offset cells := by
  have hlen := splice_length h
  refine List.ext_getElem? fun i => ?_
  rw [getElem?_splice (by omega), getElem?_splice h]
  split
  · rfl
  · split <;> rfl

/-- Behind the cells, the front of a block has them. -/
theorem take_splice : (splice block offset cells).take (offset + cells.length) =
    block.take offset ++ cells := by
  refine List.take_left' ?_
  rw [List.length_append, List.length_take_of_le (by omega)]

end Splice

/-- A block into which another is copied piece by piece, from its start on. -/
theorem take_splice_piece {block source : List α} {offset n : ℕ}
    (hblock : offset + n ≤ block.length) (hsource : offset + n ≤ source.length)
    (h : block.take offset = source.take offset) :
    (splice block offset ((source.drop offset).take n)).take (offset + n) =
      source.take (offset + n) := by
  have hpiece : ((source.drop offset).take n).length = n := by
    rw [List.length_take, List.length_drop]
    omega
  have htake := @take_splice _ block ((source.drop offset).take n) offset (by omega)
  rw [hpiece] at htake
  rw [htake, h, List.take_add]

/-- A piece that is put back with another cell in it changes this cell only. -/
theorem splice_set {block : List α} {offset n i : ℕ} (hblock : offset + n ≤ block.length)
    (hi : i < n) (a : α) :
    splice block offset (((block.drop offset).take n).set i a) = block.set (offset + i) a := by
  have hpiece : (((block.drop offset).take n).set i a).length = n := by
    rw [List.length_set, List.length_take, List.length_drop]
    omega
  refine List.ext_getElem? fun j => ?_
  rw [getElem?_splice (by omega), hpiece]
  by_cases hlow : j < offset
  · rw [if_pos hlow, List.getElem?_set_ne (by omega)]
  · rw [if_neg hlow]
    by_cases hmid : j < offset + n
    · rw [if_pos hmid]
      by_cases heq : j = offset + i
      · have hback : offset + i - offset = i := by omega
        rw [heq, hback, List.getElem?_set_self (by rw [List.length_set] at hpiece; omega),
          List.getElem?_set_self (by omega)]
      · rw [List.getElem?_set_ne (by omega), List.getElem?_set_ne (by omega),
          List.getElem?_take_of_lt (by omega), List.getElem?_drop]
        congr 1
        omega
    · rw [if_neg hmid, List.getElem?_set_ne (by omega)]

/-- Writing into a block of fixed size splices, and writing the same again changes nothing. -/
theorem overwriteAt_twice {n : ℕ} (block : List.Vector α n) {offset : ℕ} {cells : List α}
    (h : offset + cells.length ≤ n) : ∃ block', overwriteAt block offset cells = some block' ∧
      overwriteAt block' offset cells = some block' ∧
      block'.val = splice block.val offset cells := by
  have hblock : offset + cells.length ≤ block.val.length := by rw [block.property]; exact h
  refine ⟨_, dif_pos h, (dif_pos h).trans ?_, rfl⟩
  exact congrArg some (Subtype.ext (splice_splice hblock))

end Atsha204.Library
