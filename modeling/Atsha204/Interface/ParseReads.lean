import Atsha204.Interface.HexText

/-!
# What the parse loops read

The rounds of a parse loop as they go over the memory from the line buffer on, each with the
indices that it reads. `line_p` is compared with the end of the line behind a pair only, so
nothing but the content of the buffer keeps the other rounds inside. What lies behind the
terminator is arbitrary.
-/

set_option autoImplicit false

namespace Atsha204.Interface

open Atsha204.Library
open Atsha204.Model

namespace ParseLoop

/-- The size of the buffer that the loop goes over.
SOURCE: emulation.c:282, init.c:43, main.c:202 -/
def bufferSize : ParseLoop → ℕ
  | .challenge => buffsize
  | _ => buffsizeLine

/-- The hole in the answer with the serial number, in which a round only increments `i`.
SOURCE: emulation.c:325-329 -/
def inHole : ParseLoop → ℕ → Bool
  | .serialNumber, i => 4 ≤ i && i ≤ 7
  | _, _ => false

/-- Where a loop stands: `line_p - line`, and `i`. -/
structure Cursor where
  position : ℕ
  index : ℕ

/-- A round reads some indices of the buffer, and leads on or ends the loop: with all bytes
written, or because the input is too short. -/
inductive Round where
  | goesOn (reads : List ℕ) (cursor : Cursor)
  | ended (reads : List ℕ) (accepted : Bool)

/-- One round; `lineEnd` is `line_end_p - line`.
SOURCE: emulation.c:321-343, emulation.c:372-389, emulation.c:423-440, init.c:50-66,
main.c:71-89 -/
def round (loop : ParseLoop) (memory : ℕ → UInt8) (lineEnd : ℕ) (cursor : Cursor) : Round :=
  if cursor.index < loop.count then
    if loop.inHole cursor.index then
      .goesOn [] { cursor with index := cursor.index + 1 }
    else if isDelimiter (memory cursor.position) then
      .goesOn [cursor.position] { cursor with position := cursor.position + 1 }
    else
      let digits := [cursor.position, cursor.position + 1]
      let position := cursor.position + 2
      if position ≥ lineEnd then .ended digits false
      else .goesOn digits ⟨position, cursor.index + 1⟩
  else .ended [] true

/-- All the indices that a loop reads, and its result, if it is over after so many rounds. -/
def reads (loop : ParseLoop) (memory : ℕ → UInt8) (lineEnd : ℕ) :
    ℕ → Cursor → Option (List ℕ × Bool)
  | 0, _ => none
  | rounds + 1, cursor =>
    match loop.round memory lineEnd cursor with
    | .ended front accepted => some (front, accepted)
    | .goesOn front cursor =>
      (reads loop memory lineEnd rounds cursor).map fun r => (front ++ r.1, r.2)

end ParseLoop

/-- The memory from `p` on holds a text and a terminator. -/
def HoldsText (memory : ℕ → UInt8) : ℕ → List UInt8 → Prop
  | p, [] => memory p = 0
  | p, c :: text => memory p = c ∧ HoldsText memory (p + 1) text

/-- The loop ends, and reads no index behind the terminator and none outside the buffer. -/
structure ReadsInside (loop : ParseLoop) (memory : ℕ → UInt8) (content : List UInt8) : Prop where
  ends : ∃ rounds reads accepted,
    loop.reads memory (chunkText content).length rounds ⟨0, 0⟩ = some (reads, accepted) ∧
      ∀ k ∈ reads, k ≤ content.length ∧ k < loop.bufferSize

/-- The content of the buffer has no other terminator in it, and is fewer pairs than the loop
asks for, with delimiters in front of them and at least one behind them. -/
def EndsInDelimiters (loop : ParseLoop) (content : List UInt8) : Prop :=
  0 ∉ content ∧ ∃ (items : List (PairItem UInt8)) (delims : List UInt8),
    content = renderPairs items ++ delims ∧
      (∀ item ∈ items, (∀ c ∈ item.delims, isDelimiter c = true) ∧
        isDelimiter item.first = false) ∧
      items.length < loop.indices.length ∧
      (∀ c ∈ delims, isDelimiter c = true) ∧ delims ≠ []

end Atsha204.Interface
