import Atsha204.Analysis.HexText
import Atsha204.Interface.ParseReads

/-!
# The parse loops read one byte too many

Behind a pair the loops compare `line_p` with the end of the line, behind a delimiter they do
not. So a line that ends in delimiters in front of a pair that is still to come is left at
its terminator, and a pair is read there: the terminator, and the byte behind it
(`reads_text`). The loops end on every line, and stay inside exactly on the lines that do not
end so (`parse_reads_inside_iff`). On a line of delimiters that fills the buffer the byte is
behind the buffer (`parse_reads_inside_fails`); there the model of the loops faults
(`run_eq_of_reads`, `run_outside_iff`).
-/

set_option autoImplicit false

namespace Atsha204.Analysis

open Atsha204.Library
open Atsha204.Model
open Atsha204.Interface

/-! ## The rounds -/

section Rounds

variable {loop : ParseLoop} {memory : ℕ → UInt8} {lineEnd p i rounds : ℕ} {r : List ℕ × Bool}

/-- The next place is not in the hole. -/
theorem inHole_nextIndex (loop : ParseLoop) (i : ℕ) : loop.inHole (loop.nextIndex i) = false := by
  cases loop with
  | serialNumber =>
    simp only [ParseLoop.inHole, ParseLoop.nextIndex, skipHole]
    split <;> simp
    omega
  | key | otp | config _ _ | challenge => rfl

/-- Through the hole, the rounds read nothing. -/
theorem reads_through_hole (d : ℕ) (hlow : 4 ≤ i) (hd : i + d = 8)
    (h : ParseLoop.serialNumber.reads memory lineEnd rounds ⟨p, 8⟩ = some r) :
    ParseLoop.serialNumber.reads memory lineEnd (rounds + d) ⟨p, i⟩ = some r := by
  induction d generalizing i with
  | zero =>
    obtain rfl : i = 8 := hd
    exact h
  | succ d ih =>
    have hrest := @ih (i + 1) (by omega) (by omega)
    have hround : ParseLoop.serialNumber.round memory lineEnd ⟨p, i⟩ = .goesOn [] ⟨p, i + 1⟩ := by
      have hcount : i < ParseLoop.serialNumber.count := by
        change i < 13
        omega
      have hhole : ParseLoop.serialNumber.inHole i = true := by
        simp only [ParseLoop.inHole, Bool.and_eq_true, decide_eq_true_eq]
        omega
      rw [ParseLoop.round, if_pos hcount, if_pos hhole]
    rw [← Nat.add_assoc, ParseLoop.reads, hround]
    simp only [hrest, Option.map_some, List.nil_append]

/-- A loop in its hole goes on behind it. -/
theorem reads_of_nextIndex (h : loop.reads memory lineEnd rounds ⟨p, loop.nextIndex i⟩ = some r) :
    ∃ rounds', loop.reads memory lineEnd rounds' ⟨p, i⟩ = some r := by
  cases loop with
  | serialNumber =>
    by_cases hhole : 4 ≤ i ∧ i ≤ 7
    · rw [ParseLoop.nextIndex, skipHole, if_pos hhole] at h
      exact ⟨_, reads_through_hole (8 - i) hhole.1 (by omega) h⟩
    · rw [ParseLoop.nextIndex, skipHole, if_neg hhole] at h
      exact ⟨rounds, h⟩
  | key | otp | config _ _ | challenge => exact ⟨rounds, h⟩

/-- With all bytes written the loop is over. -/
theorem reads_done (h : loop.count ≤ i) :
    loop.reads memory lineEnd (rounds + 1) ⟨p, i⟩ = some ([], true) := by
  have hround : loop.round memory lineEnd ⟨p, i⟩ = .ended [] true := if_neg (Nat.not_lt.mpr h)
  rw [ParseLoop.reads, hround]

section Open

variable (hcount : i < loop.count) (hhole : loop.inHole i = false)
include hcount hhole

/-- A delimiter is read and passed. -/
theorem reads_delimiter (hdelim : isDelimiter (memory p) = true) :
    loop.reads memory lineEnd (rounds + 1) ⟨p, i⟩ =
      (loop.reads memory lineEnd rounds ⟨p + 1, i⟩).map fun r => (p :: r.1, r.2) := by
  have hround : loop.round memory lineEnd ⟨p, i⟩ = .goesOn [p] ⟨p + 1, i⟩ := by
    rw [ParseLoop.round, if_pos hcount, if_neg (by simp [hhole]), if_pos hdelim]
  rw [ParseLoop.reads, hround]
  rfl

/-- A pair that reaches the end of the line is the last one. -/
theorem reads_last (hplain : isDelimiter (memory p) = false) (hend : lineEnd ≤ p + 2) :
    loop.reads memory lineEnd (rounds + 1) ⟨p, i⟩ = some ([p, p + 1], false) := by
  have hround : loop.round memory lineEnd ⟨p, i⟩ = .ended [p, p + 1] false := by
    rw [ParseLoop.round, if_pos hcount, if_neg (by simp [hhole]), if_neg (by simp [hplain])]
    exact if_pos hend
  rw [ParseLoop.reads, hround]

/-- Behind any other pair the loop goes on. -/
theorem reads_pair (hplain : isDelimiter (memory p) = false) (hend : p + 2 < lineEnd) :
    loop.reads memory lineEnd (rounds + 1) ⟨p, i⟩ =
      (loop.reads memory lineEnd rounds ⟨p + 2, i + 1⟩).map
        fun r => (p :: (p + 1) :: r.1, r.2) := by
  have hround : loop.round memory lineEnd ⟨p, i⟩ = .goesOn [p, p + 1] ⟨p + 2, i + 1⟩ := by
    rw [ParseLoop.round, if_pos hcount, if_neg (by simp [hhole]), if_neg (by simp [hplain])]
    exact if_neg (Nat.not_le.mpr hend)
  rw [ParseLoop.reads, hround]
  rfl

end Open

end Rounds

/-! ## A text -/

/-- From position `p` on the loop ends: it accepts a text with the pairs that are still to come,
and reads as far as the terminator, at `lineEnd`, or one byte farther where the text runs out in
front of one of these pairs. -/
structure EndsAfter (loop : ParseLoop) (memory : ℕ → UInt8) (lineEnd p i n : ℕ)
    (text : List UInt8) (reads : List ℕ) (accepted : Bool) : Prop where
  ends : ∃ rounds, loop.reads memory lineEnd rounds ⟨p, i⟩ = some (reads, accepted)
  result : accepted = (readPairs isDelimiter Prod.mk n text).isSome
  bound : ∀ k ∈ reads, k ≤ lineEnd + 1
  behind : lineEnd + 1 ∈ reads ↔ runsOut isDelimiter n text = true

section Text

variable {loop : ParseLoop} {memory : ℕ → UInt8} {lineEnd p i n : ℕ} {text : List UInt8}

/-- A delimiter in front of the text. -/
theorem EndsAfter.delimiter {a : UInt8} {reads : List ℕ} {accepted : Bool}
    (h : EndsAfter loop memory lineEnd (p + 1) (loop.nextIndex i) (n + 1) text reads accepted)
    (hcount : loop.nextIndex i < loop.count) (hmemory : memory p = a) (ha : isDelimiter a = true)
    (hp : p < lineEnd) :
    EndsAfter loop memory lineEnd p i (n + 1) (a :: text) (p :: reads) accepted := by
  obtain ⟨⟨rounds, hreads⟩, hresult, hbound, hbehind⟩ := h
  refine ⟨?_, ?_, fun k hk => ?_, ?_⟩
  · refine @reads_of_nextIndex _ _ _ _ _ (rounds + 1) _ ?_
    rw [reads_delimiter hcount (inHole_nextIndex loop i) (by rw [hmemory]; exact ha), hreads]
    rfl
  · rw [readPairs_cons, if_pos ha]
    exact hresult
  · rcases List.mem_cons.mp hk with rfl | hk
    · omega
    · exact hbound k hk
  · rw [runsOut_cons, if_pos ha, ← hbehind, List.mem_cons]
    exact or_iff_right (by omega)

/-- A pair in front of more text. -/
theorem EndsAfter.pair {a b c : UInt8} {reads : List ℕ} {accepted : Bool}
    (h : EndsAfter loop memory lineEnd (p + 2) (loop.nextIndex i + 1) n (c :: text) reads accepted)
    (hcount : loop.nextIndex i < loop.count) (hmemory : memory p = a) (ha : isDelimiter a = false)
    (hp : p + 2 < lineEnd) :
    EndsAfter loop memory lineEnd p i (n + 1) (a :: b :: c :: text) (p :: (p + 1) :: reads)
      accepted := by
  obtain ⟨⟨rounds, hreads⟩, hresult, hbound, hbehind⟩ := h
  refine ⟨?_, ?_, fun k hk => ?_, ?_⟩
  · refine @reads_of_nextIndex _ _ _ _ _ (rounds + 1) _ ?_
    rw [reads_pair hcount (inHole_nextIndex loop i) (by rw [hmemory]; exact ha) hp, hreads]
    rfl
  · rw [readPairs_pair ha (List.cons_ne_nil c text), Option.isSome_map]
    exact hresult
  · rcases List.mem_cons.mp hk with rfl | hk
    · omega
    · rcases List.mem_cons.mp hk with rfl | hk
      · omega
      · exact hbound k hk
  · rw [runsOut_cons, if_neg (by simp [ha]), ← hbehind, List.mem_cons, List.mem_cons]
    constructor
    · rintro (h | h | h)
      · omega
      · omega
      · exact h
    · exact fun h => .inr (.inr h)

/-- A pair that reaches the end of the line: the text runs out in front of it, or it does not. -/
theorem endsAfter_last (hcount : loop.nextIndex i < loop.count)
    (hplain : isDelimiter (memory p) = false) (hlow : p ≤ lineEnd) (hend : lineEnd ≤ p + 2)
    (hread : readPairs isDelimiter Prod.mk (n + 1) text = none)
    (hout : runsOut isDelimiter (n + 1) text = decide (lineEnd = p)) :
    EndsAfter loop memory lineEnd p i (n + 1) text [p, p + 1] false := by
  refine ⟨?_, by rw [hread]; rfl, fun k hk => ?_, ?_⟩
  · refine @reads_of_nextIndex _ _ _ _ _ (0 + 1) _ ?_
    exact reads_last hcount (inHole_nextIndex loop i) hplain hend
  · rcases List.mem_pair.mp hk with rfl | rfl <;> omega
  · rw [hout, decide_eq_true_eq, List.mem_pair]
    omega

/-- What a loop reads of a text, by the pairs that it still asks for. -/
theorem reads_text {indices : List ℕ} (hvisits : Visits loop.nextIndex loop.count i indices)
    (hlineEnd : p + text.length = lineEnd) (hmemory : HoldsText memory p text) :
    ∃ reads accepted, EndsAfter loop memory lineEnd p i indices.length text reads accepted := by
  generalize hn : indices.length = n
  induction n, text using readPairs.induct isDelimiter generalizing p i indices with
  | case1 text =>
    obtain rfl := List.length_eq_zero_iff.mp hn
    have hdone : loop.count ≤ loop.nextIndex i := hvisits
    refine ⟨[], true, ?_, by rw [readPairs_zero]; rfl, by simp, by simp⟩
    refine @reads_of_nextIndex _ _ _ _ _ (0 + 1) _ ?_
    exact reads_done hdone
  | case2 n =>
    obtain ⟨k, indices, rfl⟩ := List.exists_cons_of_length_eq_add_one hn
    obtain ⟨rfl, hcount, -⟩ := hvisits
    have hzero : memory p = 0 := hmemory
    have hat : lineEnd = p := hlineEnd.symm
    exact ⟨_, _, endsAfter_last hcount (by rw [hzero]; rfl) hat.ge (by omega) rfl
      (decide_eq_true hat).symm⟩
  | case3 n a text ha ih =>
    obtain ⟨k, rest, rfl⟩ := List.exists_cons_of_length_eq_add_one hn
    have hnext := Visits.of_next (parseLoop_idem loop) hvisits
    obtain ⟨rfl, hcount, -⟩ := hvisits
    rw [List.length_cons] at hlineEnd
    obtain ⟨reads, accepted, hends⟩ := ih hnext (by omega) hmemory.2 hn
    exact ⟨_, _, hends.delimiter hcount hmemory.1 ha (by omega)⟩
  | case4 n a ha =>
    obtain ⟨k, indices, rfl⟩ := List.exists_cons_of_length_eq_add_one hn
    obtain ⟨rfl, hcount, -⟩ := hvisits
    have hat : lineEnd = p + 1 := hlineEnd.symm
    refine ⟨_, _, endsAfter_last hcount (by rw [hmemory.1]; simpa using ha) (by omega) (by omega)
      ?_ ?_⟩
    · rw [readPairs_cons, if_neg ha]
    · rw [runsOut_cons, if_neg ha, hat]
      exact (decide_eq_false (by omega)).symm
  | case5 n a ha b =>
    obtain ⟨k, indices, rfl⟩ := List.exists_cons_of_length_eq_add_one hn
    obtain ⟨rfl, hcount, -⟩ := hvisits
    have hat : lineEnd = p + 2 := hlineEnd.symm
    refine ⟨_, _, endsAfter_last hcount (by rw [hmemory.1]; simpa using ha) (by omega) (by omega)
      ?_ ?_⟩
    · rw [readPairs_cons, if_neg ha]
    · rw [runsOut_cons, if_neg ha, hat]
      exact (decide_eq_false (by omega)).symm
  | case6 n a ha b c text ih =>
    obtain ⟨k, rest, rfl⟩ := List.exists_cons_of_length_eq_add_one hn
    obtain ⟨rfl, hcount, hrest⟩ := hvisits
    simp only [List.length_cons] at hlineEnd
    obtain ⟨reads, accepted, hends⟩ := ih hrest (by simp only [List.length_cons]; omega)
      hmemory.2.2 (Nat.succ_injective hn)
    exact ⟨_, _, hends.pair hcount hmemory.1 (by simpa using ha) (by omega)⟩

end Text

/-- However many rounds are allowed for, a loop that is over has read the same. -/
theorem reads_unique {loop : ParseLoop} {memory : ℕ → UInt8} {lineEnd rounds rounds' : ℕ}
    {cursor : ParseLoop.Cursor} {r r' : List ℕ × Bool}
    (h : loop.reads memory lineEnd rounds cursor = some r)
    (h' : loop.reads memory lineEnd rounds' cursor = some r') : r = r' := by
  induction rounds generalizing rounds' cursor r r' with
  | zero => cases h
  | succ rounds ih =>
    cases rounds' with
    | zero => cases h'
    | succ rounds' =>
      rw [ParseLoop.reads] at h h'
      cases hround : loop.round memory lineEnd cursor with
      | ended front accepted =>
        rw [hround] at h h'
        exact Option.some.inj (h.symm.trans h')
      | goesOn front cursor =>
        rw [hround] at h h'
        obtain ⟨rest, hrest, rfl⟩ := Option.map_eq_some_iff.mp h
        obtain ⟨rest', hrest', rfl⟩ := Option.map_eq_some_iff.mp h'
        rw [ih hrest hrest']

/-! ## The model of the loops -/

/-- The front of a buffer, up to its first terminator, is held by its memory. -/
theorem holdsText_of_getElem? {memory : ℕ → UInt8} {p : ℕ} {text junk : List UInt8}
    (h : ∀ j c, (text ++ 0 :: junk)[j]? = some c → memory (p + j) = c) :
    HoldsText memory p text := by
  induction text generalizing p with
  | nil => exact h 0 0 rfl
  | cons a text ih =>
    refine ⟨h 0 a rfl, ih fun j c hc => ?_⟩
    rw [Nat.add_assoc, Nat.add_comm 1 j]
    exact h (j + 1) c hc

/-- The loop on a buffer ends as its rounds do, and reads past the end of the buffer exactly
where they read an index that the buffer does not have. -/
theorem run_eq_of_reads {loop : ParseLoop} {memory : ℕ → UInt8} {buffer out : List UInt8}
    (hmemory : ∀ j c, buffer[j]? = some c → memory j = c) (hbuffer : 0 ∈ buffer)
    (hout : loop.base + loop.count ≤ out.length) {rounds : ℕ} {reads : List ℕ} {accepted : Bool}
    (h : loop.reads memory (chunkText buffer).length rounds ⟨0, 0⟩ = some (reads, accepted)) :
    (loop.run buffer out).map Option.isSome =
      if ∀ k ∈ reads, k < buffer.length then some accepted else none := by
  obtain ⟨junk, hjunk⟩ := line_split hbuffer
  have hholds : HoldsText memory 0 (chunkText buffer) := by
    refine @holdsText_of_getElem? memory 0 _ junk fun j c hc => ?_
    rw [Nat.zero_add]
    exact hmemory j c (by rw [hjunk]; exact hc)
  obtain ⟨reads', accepted', ⟨rounds', hreads⟩, hresult, hbound, hbehind⟩ :=
    reads_text (parseLoop_visits loop) (Nat.zero_add _) hholds
  obtain ⟨rfl, rfl⟩ := Prod.mk.inj (reads_unique h hreads)
  have hloop := parseHexLoop_map_isSome (parseLoop_idem loop) (parseLoop_visits loop)
    (chunkText buffer) junk hout
  rw [← hjunk] at hloop
  have hlength : buffer.length = (chunkText buffer).length + 1 + junk.length := by
    conv_lhs => rw [hjunk]
    rw [List.length_append, List.length_cons]
    omega
  have hinside : (∀ k ∈ reads, k < buffer.length) ↔
      ¬ (runsOut isDelimiter loop.indices.length (chunkText buffer) = true ∧ junk = []) := by
    rw [← hbehind, ← List.length_eq_zero_iff]
    constructor
    · rintro hall ⟨hmem, hempty⟩
      have hlt := hall _ hmem
      omega
    · intro hnot k hk
      have hle := hbound k hk
      by_cases hlast : k = (chunkText buffer).length + 1
      · have hpos : junk.length ≠ 0 := fun hempty => hnot ⟨hlast ▸ hk, hempty⟩
        omega
      · omega
  rw [ParseLoop.run, hloop, hresult]
  by_cases hruns : runsOut isDelimiter loop.indices.length (chunkText buffer) = true ∧ junk = []
  · rw [if_pos hruns, if_neg (fun hall => hinside.mp hall hruns)]
  · rw [if_neg hruns, if_pos (hinside.mpr hruns)]

/-! ## Lines that are read inside -/

/-- Memory that holds a line holds its text up to the terminator. -/
theorem holdsText_chunkText {memory : ℕ → UInt8} {p : ℕ} {content : List UInt8}
    (h : HoldsText memory p content) : HoldsText memory p (chunkText content) := by
  induction content generalizing p with
  | nil => exact h
  | cons c content ih =>
    by_cases hc : c = 0
    · rw [chunkText, List.takeWhile_cons_of_neg (by simp [hc])]
      exact h.1.trans hc
    · rw [chunkText, List.takeWhile_cons_of_pos (by simp [hc])]
      exact ⟨h.1, ih h.2⟩

/-- A terminator in the content is in front of the one behind it. -/
theorem length_chunkText_lt {content : List UInt8} (h : 0 ∈ content) :
    (chunkText content).length < content.length := by
  obtain ⟨junk, hjunk⟩ := line_split h
  conv_rhs => rw [hjunk]
  rw [List.length_append, List.length_cons]
  omega

/-- A text without a terminator is read to its end. -/
theorem chunkText_of_not_mem {content : List UInt8} (h : 0 ∉ content) :
    chunkText content = content := by
  rw [chunkText, List.takeWhile_eq_self_iff]
  intro c hc
  simpa using fun hzero : c = 0 => h (hzero ▸ hc)

/-- A line that ends in delimiters is one that runs out. -/
theorem endsInDelimiters_iff {loop : ParseLoop} {content : List UInt8} (hne : content ≠ []) :
    EndsInDelimiters loop content ↔
      0 ∉ content ∧ runsOut isDelimiter loop.indices.length content = true := by
  rw [EndsInDelimiters, runsOut_iff_render]
  refine and_congr_right fun _ => exists_congr fun items => exists_congr fun delims => ?_
  refine and_congr_right fun htext => and_congr_right fun _ => and_congr_right fun _ =>
    and_congr_right fun _ => ⟨fun h hnil => absurd hnil h, fun h hnil => hne ?_⟩
  rw [htext, hnil, h hnil]
  rfl

/-- The model of a loop reads past the end of its buffer exactly on a line that fills the buffer
and ends in delimiters. -/
theorem run_outside_iff (loop : ParseLoop) {content junk out : List UInt8}
    (hlow : 1 ≤ content.length) (hout : loop.base + loop.count ≤ out.length) :
    loop.run (content ++ 0 :: junk) out = none ↔ junk = [] ∧ EndsInDelimiters loop content := by
  obtain ⟨junk', hjunk, htext⟩ := terminated_split content junk
  have hloop := parseHexLoop_map_isSome (parseLoop_idem loop) (parseLoop_visits loop)
    (chunkText content) junk' hout
  rw [← Option.map_eq_none_iff (f := Option.isSome), ParseLoop.run, chunkText, htext, hjunk, hloop,
    endsInDelimiters_iff (List.length_pos_iff.mp hlow)]
  have hlength := congrArg List.length hjunk
  simp only [List.length_append, List.length_cons] at hlength
  by_cases hzero : 0 ∈ content
  · have hlt := length_chunkText_lt hzero
    have hmore : junk' ≠ [] := by
      rintro rfl
      rw [List.length_nil] at hlength
      omega
    simp [hzero, hmore]
  · rw [chunkText_of_not_mem hzero] at hlength ⊢
    have hnil : junk' = [] ↔ junk = [] := by
      rw [← List.length_eq_zero_iff, ← List.length_eq_zero_iff]
      omega
    simp only [hzero, hnil, not_false_eq_true, true_and, ite_eq_left_iff, reduceCtorEq, imp_false,
      not_not]
    exact and_comm

section Lines

variable {loop : ParseLoop} {memory : ℕ → UInt8} {content : List UInt8}

/-- A line that ends in delimiters is left by one byte. -/
theorem not_readsInside (hlow : 1 ≤ content.length) (hmemory : HoldsText memory 0 content)
    (h : EndsInDelimiters loop content) : ¬ ReadsInside loop memory content := by
  obtain ⟨hzero, hruns⟩ := (endsInDelimiters_iff (List.length_pos_iff.mp hlow)).mp h
  obtain ⟨reads, accepted, ⟨rounds, hreads⟩, -, -, hbehind⟩ :=
    reads_text (parseLoop_visits loop) (Nat.zero_add _) (holdsText_chunkText hmemory)
  rw [chunkText_of_not_mem hzero] at hbehind
  rintro ⟨rounds', reads', accepted', hreads', hinside⟩
  obtain ⟨rfl, rfl⟩ := Prod.mk.inj (reads_unique hreads hreads')
  have hlast := (hinside _ (hbehind.mpr hruns)).1
  omega

/-- Every other line is not left. -/
theorem readsInside_of_not (hlow : 1 ≤ content.length) (hfits : content.length < loop.bufferSize)
    (hmemory : HoldsText memory 0 content) (h : ¬ EndsInDelimiters loop content) :
    ReadsInside loop memory content := by
  obtain ⟨reads, accepted, ⟨rounds, hreads⟩, -, hbound, hbehind⟩ :=
    reads_text (parseLoop_visits loop) (Nat.zero_add _) (holdsText_chunkText hmemory)
  rw [endsInDelimiters_iff (List.length_pos_iff.mp hlow)] at h
  refine ⟨rounds, reads, accepted, hreads, fun k hk => ?_⟩
  suffices hle : k ≤ content.length from ⟨hle, by omega⟩
  have hle := hbound k hk
  by_cases hzero : 0 ∈ content
  · have hlt := length_chunkText_lt hzero
    omega
  · rw [chunkText_of_not_mem hzero] at hle hbehind
    have hother : k ≠ content.length + 1 := fun heq => h ⟨hzero, hbehind.mp (heq ▸ hk)⟩
    omega

end Lines

/-- On every line that `fgets` can leave in the buffer, each of the five parse loops ends; and it
stays within the line and its terminator exactly when the line does not end in delimiters in
front of a pair that is still to come.
SOURCE: emulation.c:321-343, emulation.c:372-389, emulation.c:423-440, init.c:50-66,
main.c:71-89 -/
theorem parse_reads_inside_iff (loop : ParseLoop) (memory : ℕ → UInt8) (content : List UInt8)
    (hlow : 1 ≤ content.length) (hfits : content.length < loop.bufferSize)
    (hmemory : HoldsText memory 0 content) :
    (∃ rounds r, loop.reads memory (chunkText content).length rounds ⟨0, 0⟩ = some r) ∧
      (ReadsInside loop memory content ↔ ¬ EndsInDelimiters loop content) := by
  constructor
  · obtain ⟨reads, accepted, ⟨rounds, hreads⟩, -⟩ :=
      reads_text (parseLoop_visits loop) (Nat.zero_add _) (holdsText_chunkText hmemory)
    exact ⟨rounds, _, hreads⟩
  · exact ⟨fun h hends => not_readsInside hlow hmemory hends h,
      readsInside_of_not hlow hfits hmemory⟩

/-- Memory with a line in it and zeros behind. -/
def lineMemory (content : List UInt8) (i : ℕ) : UInt8 := (content ++ [0]).getD i 0

/-- The memory of a line holds it. -/
theorem holdsText_lineMemory (content : List UInt8) :
    HoldsText (lineMemory content) 0 content := by
  refine @holdsText_of_getElem? _ 0 content [] fun j c hc => ?_
  rw [Nat.zero_add, lineMemory, List.getD_eq_getElem?_getD, hc]
  rfl

/-- A short OTP line with its newline is not left, though a pair is missing. -/
theorem parse_reads_inside_short :
    ReadsInside .otp (lineMemory [0x31, 0x46, 0x20, 0x61, 0x42, 0x3A, 0x0A]) [0x31, 0x46, 0x20,
      0x61, 0x42, 0x3A, 0x0A] := by
  apply (parse_reads_inside_iff .otp _ [0x31, 0x46, 0x20, 0x61, 0x42, 0x3A, 0x0A] (by decide)
    (by decide) (holdsText_lineMemory _)).2.mpr
  rw [endsInDelimiters_iff (List.cons_ne_nil _ _)]
  rintro ⟨-, hruns⟩
  revert hruns
  decide

/-- A line of spaces that fills the buffer. -/
def spacesLine : List UInt8 := List.replicate 127 0x20

/-- On a line of 127 spaces the loop for a key reads the byte behind the buffer. -/
theorem parse_reads_inside_fails : ¬ ∀ (loop : ParseLoop) (memory : ℕ → UInt8)
    (content : List UInt8), 1 ≤ content.length → content.length < loop.bufferSize →
      HoldsText memory 0 content → ReadsInside loop memory content := by
  intro h
  have hspace : ∀ c ∈ spacesLine, c = 0x20 := fun c hc => List.eq_of_mem_replicate hc
  have hlength : spacesLine.length = 127 := List.length_replicate
  have hends : EndsInDelimiters .key spacesLine := by
    refine ⟨fun hzero => ?_, [], spacesLine, rfl, by simp, by decide, fun c hc => ?_, by decide⟩
    · exact absurd (hspace 0 hzero) (by decide)
    · rw [hspace c hc]
      rfl
  exact not_readsInside (by omega) (holdsText_lineMemory _) hends
    (h .key (lineMemory spacesLine) spacesLine (by omega) (by rw [hlength]; decide)
      (holdsText_lineMemory _))

end Atsha204.Analysis
