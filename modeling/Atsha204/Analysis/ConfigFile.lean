import Mathlib.Data.List.TakeWhile
import Atsha204.Interface.EmulatedStorage

/-!
# Reading lines of the configuration file

`fgets` gives the chunks of the file and `parseHexLoop` decodes the text of a chunk, the
bytes behind its terminator and what the buffer held before making no difference
(`parseHexLoop_eq_ok_iff`). So a line that is read stands for `lineBytes`, whether it is
reached by skipping from the start or by reading on. In a file of the documented layout
every line stands for its numbers (`lineBytes_keys`, `lineBytes_otp`, `lineBytes_sn`).
-/

set_option autoImplicit false

namespace Atsha204.Analysis

open Atsha204.Library
open Atsha204.Model
open Atsha204.Interface

variable {σ : Type}

/-! ## The loop over the pairs -/

/-- The indices that the loop writes to, from `i` on. -/
def Visits (nextIndex : ℕ → ℕ) (count : ℕ) : ℕ → List ℕ → Prop
  | i, [] => count ≤ nextIndex i
  | i, k :: indices => nextIndex i = k ∧ k < count ∧ Visits nextIndex count (k + 1) indices

/-- Without a hole the loop writes to every index. -/
theorem visits_id (count i n : ℕ) (h : count = i + n) :
    Visits id count i (List.range' i n) := by
  induction n generalizing i with
  | zero => exact h.le
  | succ n ih =>
    rw [List.range'_succ]
    exact ⟨rfl, by omega, ih (i + 1) (by omega)⟩

/-- The serial number is written around its hole.
SOURCE: emulation.c:325-329 -/
theorem visits_skipHole : Visits skipHole (atsha204SnByteLen + 4) 0
    (List.range' 0 4 ++ List.range' 8 5) := by
  simp [Visits, skipHole, atsha204SnByteLen, List.range']

/-- Behind the hole there is no other one. -/
theorem skipHole_idem (i : ℕ) : skipHole (skipHole i) = skipHole i := by
  unfold skipHole
  by_cases h : 4 ≤ i ∧ i ≤ 7 <;> simp [h]

/-- A round that skips a delimiter does not change what is still to be written. -/
theorem Visits.of_next {nextIndex : ℕ → ℕ} (hidem : ∀ i, nextIndex (nextIndex i) = nextIndex i)
    {count i : ℕ} {indices : List ℕ} (h : Visits nextIndex count i indices) :
    Visits nextIndex count (nextIndex i) indices := by
  cases indices with
  | nil =>
    have hle : count ≤ nextIndex i := h
    rwa [← hidem i] at hle
  | cons k indices => exact ⟨(hidem i).trans h.1, h.2⟩

section Rounds

variable {nextIndex : ℕ → ℕ} {count base i : ℕ} {left : Int} {out : Block}

/-- The loop ends when all the places are filled. -/
theorem parseHexLoop_done (h : ¬ nextIndex i < count) (line : List UInt8) :
    parseHexLoop nextIndex count base line left i out = some (some out) := by
  rw [parseHexLoop.eq_def]
  simp only [if_neg h]

/-- It passes over a delimiter. -/
theorem parseHexLoop_delimiter (h : nextIndex i < count) {a : UInt8} (ha : isDelimiter a = true)
    (line : List UInt8) : parseHexLoop nextIndex count base (a :: line) left i out =
      parseHexLoop nextIndex count base line (left - 1) (nextIndex i) out := by
  conv_lhs => rw [parseHexLoop.eq_def]
  simp only [if_pos h, if_pos ha]

/-- A character that nothing follows in the buffer. -/
theorem parseHexLoop_single (h : nextIndex i < count) {a : UInt8} (ha : isDelimiter a = false) :
    parseHexLoop nextIndex count base [a] left i out = none := by
  rw [parseHexLoop.eq_def]
  simp [h, ha]

/-- It stores the value of a pair, and gives up where the line ends behind it. -/
theorem parseHexLoop_pair (h : nextIndex i < count) {a : UInt8} (ha : isDelimiter a = false)
    (b : UInt8) (line : List UInt8) :
    parseHexLoop nextIndex count base (a :: b :: line) left i out =
      (poke out (base + nextIndex i) (getNumberFromHexChar a b)).bind fun out =>
        if left - 2 ≤ 0 then some none
        else parseHexLoop nextIndex count base line (left - 2) (nextIndex i + 1) out := by
  conv_lhs => rw [parseHexLoop.eq_def]
  simp only [if_pos h, ha, Bool.false_eq_true, if_false]
  rfl

/-- A pair that reaches the end of the text does not count. -/
theorem parseHexLoop_last (h : nextIndex i < count) {a : UInt8} (ha : isDelimiter a = false)
    (line : List UInt8) (hleft : left ≤ 2) (out' : Block) :
    parseHexLoop nextIndex count base (a :: line) left i out ≠ some (some out') := by
  cases line with
  | nil => simp [parseHexLoop_single h ha]
  | cons b line =>
    rw [parseHexLoop_pair h ha]
    have hend : left - 2 ≤ 0 := by omega
    cases poke out (base + nextIndex i) (getNumberFromHexChar a b) <;> simp [hend]

end Rounds

/-- The loop ends well exactly when the text has the pairs it looks for, each with more text
behind it; it then has written their values. What follows the terminator is never used.
SOURCE: emulation.c:321-343, init.c:50-66 -/
theorem parseHexLoop_eq_ok_iff {nextIndex : ℕ → ℕ}
    (hidem : ∀ i, nextIndex (nextIndex i) = nextIndex i) {count base i : ℕ} {indices : List ℕ}
    (hvisits : Visits nextIndex count i indices) (text junk : List UInt8) (out out' : Block) :
    parseHexLoop nextIndex count base (text ++ 0 :: junk) text.length i out = some (some out') ↔
      ∃ values, readPairs isDelimiter getNumberFromHexChar indices.length text = some values ∧
        pokeEach base indices values out = some out' := by
  induction hn : text.length using Nat.strong_induction_on generalizing text i indices out with
  | _ n ih =>
  subst hn
  cases indices with
  | nil =>
    have hstop : ¬ nextIndex i < count := not_lt.mpr hvisits
    simp [parseHexLoop_done hstop, pokeEach]
  | cons k indices =>
    obtain ⟨rfl, hlt, hrest⟩ := hvisits
    cases text with
    | nil =>
      -- the terminator is no delimiter: it is taken for a pair that reaches past the text
      simp [parseHexLoop_last hlt (rfl : isDelimiter 0 = false) junk, readPairs]
    | cons a text =>
      obtain ha | ha := Bool.eq_false_or_eq_true (isDelimiter a)
      · have hskip := ih text.length (by simp)
          (Visits.of_next hidem (show Visits _ _ i (_ :: _) from ⟨rfl, hlt, hrest⟩)) text out rfl
        rw [List.cons_append, parseHexLoop_delimiter hlt ha, List.length_cons, List.length_cons,
          readPairs_cons, if_pos ha]
        simpa using hskip
      · rcases text with _ | ⟨b, _ | ⟨c, text⟩⟩
        · simp [parseHexLoop_last hlt ha, readPairs_cons, ha]
        · simp [parseHexLoop_last hlt ha, readPairs_cons, ha]
        · have hnext := fun out => ih (c :: text).length (by simp) hrest (c :: text) out rfl
          rw [List.cons_append, List.cons_append, parseHexLoop_pair hlt ha,
            show (nextIndex i :: indices).length = indices.length + 1 from rfl,
            readPairs_pair ha (List.cons_ne_nil _ _)]
          cases hpoke : poke out (base + nextIndex i) (getNumberFromHexChar a b) with
          | none => simp [pokeEach, hpoke]
          | some out₁ =>
            have hleft : ((a :: b :: c :: text).length : Int) - 2 = (c :: text).length := by
              simp only [List.length_cons]; omega
            have hpos : ¬ (((c :: text).length : ℕ) : Int) ≤ 0 := by
              simp only [List.length_cons]; omega
            rw [Option.bind_some, hleft, if_neg hpos, hnext]
            simp [pokeEach, hpoke]

/-- With room for what it writes, the loop reads past the end of the buffer exactly when the
text runs out in front of a pair and nothing follows the terminator; otherwise it ends, well
where the pairs are there.
SOURCE: emulation.c:321-343, init.c:50-66 -/
theorem parseHexLoop_map_isSome {nextIndex : ℕ → ℕ}
    (hidem : ∀ i, nextIndex (nextIndex i) = nextIndex i) {count base i : ℕ} {indices : List ℕ}
    (hvisits : Visits nextIndex count i indices) (text junk : List UInt8) {out : Block}
    (hout : base + count ≤ out.length) :
    (parseHexLoop nextIndex count base (text ++ 0 :: junk) text.length i out).map Option.isSome =
      if runsOut isDelimiter indices.length text = true ∧ junk = [] then none
      else some (readPairs isDelimiter Prod.mk indices.length text).isSome := by
  induction hn : text.length using Nat.strong_induction_on generalizing text i indices out with
  | _ n ih =>
  subst hn
  cases indices with
  | nil =>
    have hstop : ¬ nextIndex i < count := not_lt.mpr hvisits
    simp [parseHexLoop_done hstop]
  | cons k indices =>
    obtain ⟨rfl, hlt, hrest⟩ := hvisits
    have hpoke : ∀ a : UInt8, poke out (base + nextIndex i) a =
        some (out.set (base + nextIndex i) a) := fun a => if_pos (by omega)
    rw [show (nextIndex i :: indices).length = indices.length + 1 from rfl]
    cases text with
    | nil =>
      -- the terminator is no delimiter: a pair is read at it and behind it
      have hzero : isDelimiter 0 = false := rfl
      cases junk with
      | nil =>
        rw [List.nil_append, parseHexLoop_single hlt hzero]
        rfl
      | cons b junk =>
        rw [List.nil_append, parseHexLoop_pair hlt hzero, hpoke, Option.bind_some,
          if_pos (by simp), if_neg (by simp)]
        rfl
    | cons a text =>
      obtain ha | ha := Bool.eq_false_or_eq_true (isDelimiter a)
      · have hskip := ih text.length (by simp)
          (Visits.of_next hidem (show Visits _ _ i (_ :: _) from ⟨rfl, hlt, hrest⟩)) text hout rfl
        have hleft : ((a :: text).length : Int) - 1 = text.length := by
          simp only [List.length_cons]; omega
        rw [List.cons_append, parseHexLoop_delimiter hlt ha, hleft, runsOut_cons, if_pos ha,
          readPairs_cons, if_pos ha]
        exact hskip
      · have hplain : ¬ isDelimiter a = true := by simp [ha]
        rw [runsOut_cons, if_neg hplain, readPairs_cons, if_neg hplain]
        rcases text with _ | ⟨b, _ | ⟨c, text⟩⟩
        · rw [List.cons_append, List.nil_append, parseHexLoop_pair hlt ha, hpoke,
            Option.bind_some, if_pos (by simp), if_neg (by simp)]
          rfl
        · rw [List.cons_append, List.cons_append, List.nil_append, parseHexLoop_pair hlt ha, hpoke,
            Option.bind_some, if_pos (by simp), if_neg (by simp)]
          rfl
        · have hnext := @ih (c :: text).length (by simp) (nextIndex i + 1) indices hrest
            (c :: text) (out.set (base + nextIndex i) (getNumberFromHexChar a b))
            (by rw [List.length_set]; exact hout) rfl
          have hleft : ((a :: b :: c :: text).length : Int) - 2 = (c :: text).length := by
            simp only [List.length_cons]; omega
          have hpos : ¬ (((c :: text).length : ℕ) : Int) ≤ 0 := by
            simp only [List.length_cons]; omega
          rw [List.cons_append, List.cons_append, parseHexLoop_pair hlt ha, hpoke,
            Option.bind_some, hleft, if_neg hpos, hnext, Option.isSome_map]

/-! ## One line -/

/-- A chunk with a terminator behind it, in a buffer: its text, a terminator, and bytes that
do not matter. -/
theorem terminated_split (chunk old : List UInt8) :
    ∃ junk, chunk ++ 0 :: old = chunkText chunk ++ 0 :: junk ∧
      (chunk ++ 0 :: old).takeWhile (· ≠ 0) = chunkText chunk := by
  induction chunk with
  | nil => exact ⟨old, rfl, by simp [chunkText]⟩
  | cons c chunk ih =>
    obtain ⟨junk, hjunk, htake⟩ := ih
    by_cases hc : c = 0
    · exact ⟨chunk ++ 0 :: old, by simp [chunkText, hc], by simp [chunkText, hc]⟩
    · have htext : chunkText (c :: chunk) = c :: chunkText chunk := by simp [chunkText, hc]
      refine ⟨junk, ?_, ?_⟩
      · rw [htext, List.cons_append, hjunk]
        rfl
      · rw [htext, List.cons_append, List.takeWhile_cons_of_pos (by simpa using hc), htake]

/-- Where there is no more line, nothing is read. -/
theorem fgets_run_none {file : File} (line : Model.Line)
    (h : nextChunk isNewline (buffsizeLine - 1) file.rest = none) :
    (fgets line).run file = .ok none file := by
  simp only [fgets, EStateM.run_bind, EStateM.run_get, h, EStateM.run_pure]

/-- The buffer begins with the text of the chunk and a terminator.
SOURCE: init.c:46-51 -/
theorem fgets_run_some {file : File} (line : Model.Line) {chunk rest : List UInt8}
    (h : nextChunk isNewline (buffsizeLine - 1) file.rest = some (chunk, rest)) :
    ∃ (line' : Model.Line) (junk : List UInt8),
      (fgets line).run file = .ok (some line') { file with rest := rest } ∧
        line'.val = chunkText chunk ++ 0 :: junk ∧ strlen line' = (chunkText chunk).length := by
  have hfits : (chunk ++ [0]).length ≤ buffsizeLine := by
    have := nextChunk_length_le h
    simp only [List.length_append, List.length_singleton, buffsizeLine] at this ⊢
    omega
  obtain ⟨line', hline', hval⟩ : ∃ line', overwrite line (chunk ++ [0]) = some line' ∧
      line'.val = chunk ++ 0 :: line.val.drop (chunk ++ [0]).length := by
    refine ⟨_, dif_pos hfits, ?_⟩
    simp
  have hrun : (fgets line).run file = .ok (some line') { file with rest := rest } := by
    simp only [fgets, EStateM.run_bind, EStateM.run_get, h, EStateM.run_set, hline', orFault_some,
      EStateM.run_pure]
  obtain ⟨junk, hjunk, htake⟩ := terminated_split chunk (line.val.drop (chunk ++ [0]).length)
  refine ⟨line', junk, hrun, hval.trans hjunk, ?_⟩
  rw [strlen, hval, htake]

/-- What a line stands for, decoded from its buffer into some of the cells of `out`. -/
theorem parse_line_iff {nextIndex : ℕ → ℕ} (hidem : ∀ i, nextIndex (nextIndex i) = nextIndex i)
    {count base : ℕ} {indices : List ℕ} (hvisits : Visits nextIndex count 0 indices)
    {line : Model.Line} {text junk : List UInt8} (hline : line.val = text ++ 0 :: junk)
    (hlen : strlen line = text.length) (out out' : Block) :
    parseHexLoop nextIndex count base line.val (strlen line) 0 out = some (some out') ↔
      ∃ values, readPairs isDelimiter getNumberFromHexChar indices.length text = some values ∧
        pokeEach base indices values out = some out' := by
  rw [hline, hlen]
  exact parseHexLoop_eq_ok_iff hidem hvisits text junk out out'

/-! ## The file of a handle -/

/-- Nothing of the device has changed but how much of its file has been read. -/
structure Kept (s s' : St σ) : Prop where
  bus : s'.bus = s.bus
  handle : s'.handle = { s.handle with file := s'.handle.file }
  content : s'.handle.file.map File.content = s.handle.file.map File.content

/-- Where nothing has happened everything is kept. -/
theorem Kept.refl (s : St σ) : Kept s s := ⟨rfl, rfl, rfl⟩

/-- What is kept twice is kept. -/
theorem Kept.trans {s s₁ s' : St σ} (h : Kept s s₁) (h' : Kept s₁ s') : Kept s s' := by
  refine ⟨h'.bus.trans h.bus, ?_, h'.content.trans h.content⟩
  rw [h'.handle, h.handle]

/-- An event that is no exchange keeps the handle and the bus. -/
theorem Kept.exchanged (s : St σ) (e : Event σ) : Kept s (s.exchanged s.bus e) := ⟨rfl, rfl, rfl⟩

/-- The state with some file in the handle. -/
def atFile (s : St σ) (file : File) : St σ := { s with handle := { s.handle with file := some file } }

/-- The handle has this file. -/
@[simp] theorem atFile_file (s : St σ) (file : File) : (atFile s file).handle.file = some file := rfl

/-- Going on in the file keeps its content. -/
theorem Kept.atFile {s : St σ} {file file' : File} (h : s.handle.file = some file)
    (hcontent : file'.content = file.content) : Kept s (atFile s file') :=
  ⟨rfl, rfl, by simp [h, hcontent]⟩

/-- A read of the file of the handle goes on in this file. -/
theorem wp_withFile {α : Type} (x : FileProg α) (Q : α → St σ → Prop) (E : St σ → Prop)
    {s : St σ} {file : File} (hfile : s.handle.file = some file) :
    wp (withFile x) Q E s ↔
      wp x (fun a file => Q a (atFile s file)) (fun file => E (atFile s file)) file := by
  simp only [withFile, wp_bind, wp_getHandle, wp_access, hfile]
  conv_rhs => rw [wp.eq_def]
  cases x.run file <;> simp [Analysis.atFile]

/-- Where the handle has no file, the read faults. -/
theorem wp_withFile_none {α : Type} (x : FileProg α) (Q : α → St σ → Prop) (E : St σ → Prop)
    {s : St σ} (hfile : s.handle.file = none) : wp (withFile x) Q E s ↔ E s := by
  simp only [withFile, wp_bind, wp_getHandle, wp_access, hfile]

/-- Lines are skipped as long as there are any.
SOURCE: emulation.c:309-314, emulation.c:359-364, emulation.c:403-415 -/
theorem wp_skipLines (tooFew : String) (n : ℕ) (line : Model.Line) {s : St σ} {file : File}
    (hfile : s.handle.file = some file) :
    wp (skipLines tooFew n line) (fun r s' => Kept s s' ∧
      match r with
      | none => afterChunks isNewline (buffsizeLine - 1) n file.rest = none
      | some _ => ∃ rest, afterChunks isNewline (buffsizeLine - 1) n file.rest = some rest ∧
          s'.handle.file = some { file with rest := rest }) (fun _ => False) s := by
  induction n generalizing s file line with
  | zero => exact ⟨Kept.refl s, file.rest, rfl, hfile⟩
  | succ n ih =>
    rw [skipLines, wp_bind, wp_withFile _ _ _ hfile]
    simp only [afterChunks]
    cases hnext : nextChunk isNewline (buffsizeLine - 1) file.rest with
    | none =>
      rw [wp_of_run (fgets_run_none line hnext)]
      simp only [wp_bind, wp_logMessage, wp_pure, Option.bind_none]
      exact ⟨(Kept.atFile hfile rfl).trans (Kept.exchanged _ _), trivial⟩
    | some c =>
      obtain ⟨chunk, rest⟩ := c
      obtain ⟨line', junk, hrun, -, -⟩ := fgets_run_some line hnext
      rw [wp_of_run hrun]
      simp only [Option.bind_some]
      refine wp_mono (ih line' (atFile_file s _)) ?_ fun _ hF => hF
      rintro r s' ⟨hkept, hr⟩
      have hread : Kept s (atFile s { file with rest := rest }) := .atFile hfile rfl
      exact ⟨hread.trans hkept, hr⟩

/-- A line is read and decoded, when there is one and it has enough pairs.
SOURCE: emulation.c:316-343, emulation.c:366-389, emulation.c:417-440 -/
theorem wp_readHexLine (noLine tooShort : String) {nextIndex : ℕ → ℕ}
    (hidem : ∀ i, nextIndex (nextIndex i) = nextIndex i) {count : ℕ} {indices : List ℕ}
    (hvisits : Visits nextIndex count 0 indices) {out : Block} {fill : Block → Block}
    (hfill : ∀ values : Block, values.length = indices.length →
      pokeEach 0 indices values out = some (fill values))
    (line : Model.Line) {s : St σ} {file : File} (hfile : s.handle.file = some file) :
    wp (readHexLine noLine tooShort nextIndex count out line)
      (fun r s' => Kept s s' ∧ r = (lineBytes file.rest 0 indices.length).map fill)
      (fun _ => lineBytes file.rest 0 indices.length = none) s := by
  have hline : lineBytes file.rest 0 indices.length =
      ((nextChunk isNewline (buffsizeLine - 1) file.rest).map Prod.fst).bind fun chunk =>
        readPairs isDelimiter getNumberFromHexChar indices.length (chunkText chunk) := rfl
  rw [readHexLine, wp_bind, wp_withFile _ _ _ hfile]
  cases hnext : nextChunk isNewline (buffsizeLine - 1) file.rest with
  | none =>
    simp only [wp_of_run (fgets_run_none line hnext), wp_bind, wp_logMessage, wp_pure, hline,
      hnext, Option.map_none, Option.bind_none]
    exact ⟨(Kept.atFile hfile rfl).trans (Kept.exchanged _ _), trivial⟩
  | some c =>
    obtain ⟨chunk, rest⟩ := c
    obtain ⟨line', junk, hrun, hval, hlen⟩ := fgets_run_some line hnext
    have hparse := @parse_line_iff _ hidem _ 0 _ hvisits _ _ _ hval hlen out
    have hkept := @Kept.atFile σ s file { file with rest := rest } hfile rfl
    simp only [wp_of_run hrun, wp_bind, wp_access, hline, hnext, Option.map_some, Option.bind_some]
    cases hread : readPairs isDelimiter getNumberFromHexChar indices.length (chunkText chunk) with
    | some values =>
      have hdone := (hparse _).mpr ⟨values, hread, hfill values (readPairs_length hread)⟩
      simp only [hdone, wp_pure, Option.map_some]
      exact ⟨hkept, trivial⟩
    | none =>
      cases hresult : parseHexLoop nextIndex count 0 line'.val (strlen line') 0 out with
      | none => trivial
      | some r =>
        cases r with
        | none => exact ⟨hkept.trans (Kept.exchanged _ _), rfl⟩
        | some out' =>
          obtain ⟨values, hvalues, -⟩ := (hparse out').mp hresult
          rw [hread] at hvalues
          cases hvalues

/-- The line behind some lines that were skipped. -/
theorem lineBytes_of_after {content rest : List UInt8} {k : ℕ}
    (h : afterChunks isNewline (buffsizeLine - 1) k content = some rest) (j count : ℕ) :
    lineBytes rest j count = lineBytes content (k + j) count := by
  rw [lineBytes, lineBytes, nthChunk_add, h]
  rfl

/-- Behind the end of the file there are no bytes. -/
theorem lineBytes_of_after_none {content : List UInt8} {k : ℕ}
    (h : afterChunks isNewline (buffsizeLine - 1) k content = none) (count : ℕ) :
    lineBytes content k count = none := by
  simp [lineBytes, nthChunk, h]

/-! ## The documented layout -/

/-- A digit is none of the characters that the readers treat in a way of their own. -/
theorem hexDigit_plain {c : UInt8} (h : (hexDigitValue c).isSome = true) :
    c ≠ 0 ∧ isNewline c = false ∧ isDelimiter c = false ∧ isSpace c = false ∧
      c ≠ 0x2D ∧ c ≠ 0x2B := by
  have hall : ∀ n : Fin 256, (hexDigitValue (UInt8.ofNat n)).isSome = true →
      UInt8.ofNat n ≠ 0 ∧ isNewline (UInt8.ofNat n) = false ∧
        isDelimiter (UInt8.ofNat n) = false ∧ isSpace (UInt8.ofNat n) = false ∧
          UInt8.ofNat n ≠ 0x2D ∧ UInt8.ofNat n ≠ 0x2B := by
    decide +kernel
  have hc := hall ⟨c.toNat, c.toNat_lt⟩
  rw [UInt8.ofNat_toNat] at hc
  exact hc h

/-- A delimiter ends neither a text nor a line. -/
theorem delimiter_plain {c : UInt8} (h : isDelimiter c = true) : c ≠ 0 ∧ isNewline c = false := by
  have hcases : c = 0x20 ∨ c = 0x09 ∨ c = 0x3B ∨ c = 0x2C ∨ c = 0x3A := by
    simpa [isDelimiter, or_assoc] using h
  rcases hcases with rfl | rfl | rfl | rfl | rfl <;> decide

/-- `strtol` on two digits.
SOURCE: tools.c:34-39 -/
theorem getNumberFromHexChar_digits {high low : UInt8} (hhigh : (hexDigitValue high).isSome = true)
    (hlow : (hexDigitValue low).isSome = true) :
    getNumberFromHexChar high low = pairValue high low := by
  obtain ⟨hzero, -, -, hspace, hminus, hplus⟩ := hexDigit_plain hhigh
  have htext : [high, low].takeWhile (· ≠ 0) = [high, low] := by
    simp [hzero, (hexDigit_plain hlow).1]
  have htrim : [high, low].dropWhile isSpace = [high, low] := by simp [hspace]
  have hpair : dropHexPrefix [high, low] = [high, low] := by
    unfold dropHexPrefix
    split
    · rename_i heq
      simp at heq
    · rfl
  obtain ⟨d, hd⟩ := Option.isSome_iff_exists.mp hhigh
  obtain ⟨e, he⟩ := Option.isSome_iff_exists.mp hlow
  have hvalue : strtolHex [high, low] = ((16 * d + e : ℕ) : Int) := by
    rw [strtolHex, htrim]
    split
    · rename_i heq
      exact absurd (List.cons.inj heq).1 hminus
    · rename_i heq
      exact absurd (List.cons.inj heq).1 hplus
    · rw [hpair]
      simp [hexNumeral, hd, he]
  rw [getNumberFromHexChar, htext, hvalue, pairValue, hd, he]
  apply UInt8.toNat_inj.mp
  simp only [UInt8.toNat_ofNat', Option.getD_some]
  omega

section Items

variable {items : List (PairItem UInt8)}
  (hdelims : ∀ item ∈ items, ∀ c ∈ item.delims, isDelimiter c = true)
  (hdigits : ∀ item ∈ items,
    (hexDigitValue item.first).isSome = true ∧ (hexDigitValue item.second).isSome = true)
include hdelims hdigits

/-- No character of some pairs of digits ends a line early. -/
theorem renderPairs_plain {c : UInt8} (hc : c ∈ renderPairs items) :
    c ≠ 0 ∧ isNewline c = false := by
  obtain ⟨item, hitem, hc⟩ := List.mem_flatMap.mp hc
  rcases List.mem_append.mp hc with hc | hc
  · exact delimiter_plain (hdelims item hitem c hc)
  · obtain ⟨hfirst, hsecond⟩ := hdigits item hitem
    rcases List.mem_pair.mp hc with rfl | rfl
    · exact ⟨(hexDigit_plain hfirst).1, (hexDigit_plain hfirst).2.1⟩
    · exact ⟨(hexDigit_plain hsecond).1, (hexDigit_plain hsecond).2.1⟩

/-- Some pairs of digits, with more text behind them, are read as their values. -/
theorem readPairs_items {tail : List UInt8} (htail : tail ≠ []) :
    readPairs isDelimiter getNumberFromHexChar items.length (renderPairs items ++ tail) =
      some (items.map fun item => pairValue item.first item.second) := by
  rw [readPairs_render htail hdelims fun item hitem => (hexDigit_plain (hdigits item hitem).1).2.2.1]
  congr 1
  apply List.map_congr_left
  intro item hitem
  exact getNumberFromHexChar_digits (hdigits item hitem).1 (hdigits item hitem).2

/-- With nothing behind them they are not read. -/
theorem readPairs_items_nil (hne : items ≠ []) :
    readPairs isDelimiter getNumberFromHexChar items.length (renderPairs items) = none :=
  readPairs_render_nil hne hdelims fun item hitem => (hexDigit_plain (hdigits item hitem).1).2.2.1

end Items

section Layout

variable {n : ℕ} (line : LayoutLine n)

/-- No character of a line ends it early. -/
theorem layoutLine_plain {c : UInt8} (hc : c ∈ renderPairs line.items) :
    c ≠ 0 ∧ isNewline c = false := renderPairs_plain line.delims line.digits hc

/-- A line of the layout is a line. -/
theorem layoutLine_isLine : Library.Line isNewline (buffsizeLine - 1) line.text where
  shape := ⟨renderPairs line.items, 0x0A, rfl, rfl, fun _ hc => (layoutLine_plain line hc).2⟩
  fits := line.fits

/-- It is read to its end. -/
theorem chunkText_layoutLine : chunkText line.text = line.text := by
  rw [chunkText, List.takeWhile_eq_self_iff]
  intro c hc
  rcases List.mem_append.mp hc with hc | hc
  · simpa using (layoutLine_plain line hc).1
  · rw [List.mem_singleton.mp hc]
    rfl

/-- A line is read as the numbers it is meant to hold. -/
theorem readPairs_layoutLine :
    readPairs isDelimiter getNumberFromHexChar n line.text = some line.bytes := by
  have hread := readPairs_items line.delims line.digits (List.cons_ne_nil 0x0A [])
  rwa [line.length_eq] at hread

/-- It has as many bytes as are meant to be in it. -/
@[simp] theorem layoutLine_bytes_length : line.bytes.length = n := by
  simp [LayoutLine.bytes, line.length_eq]

end Layout

/-- Every line of a file in the documented layout is read as a line of its own. -/
theorem configLayout_isLine (layout : ConfigLayout) :
    ∀ text ∈ layout.lines, Library.Line isNewline (buffsizeLine - 1) text := by
  intro text htext
  simp only [ConfigLayout.lines, List.mem_append, List.mem_ofFn, List.mem_singleton] at htext
  rcases htext with (⟨i, rfl⟩ | ⟨i, rfl⟩) | rfl
  · exact layoutLine_isLine _
  · exact layoutLine_isLine _
  · exact layoutLine_isLine _

/-- Line `k` of the file stands for the numbers of the line that is written there. -/
theorem lineBytes_of_line (layout : ConfigLayout) {k n : ℕ} (line : LayoutLine n)
    (h : layout.lines[k]? = some line.text) : lineBytes layout.text k n = some line.bytes := by
  obtain ⟨hk, hline⟩ := List.getElem?_eq_some_iff.mp h
  have hchunk := nthChunk_lines (configLayout_isLine layout) hk []
  rw [List.append_nil, hline] at hchunk
  rw [lineBytes, ConfigLayout.text, hchunk, Option.bind_some, chunkText_layoutLine,
    readPairs_layoutLine]

/-- The first sixteen lines hold the keys. -/
theorem lineBytes_keys (layout : ConfigLayout) (slot : Fin 16) :
    lineBytes layout.text slot 32 = some (layout.keys slot).bytes := by
  apply lineBytes_of_line
  rw [ConfigLayout.lines, List.append_assoc, List.getElem?_append_left (by simp)]
  simp only [List.getElem?_ofFn, slot.isLt, dif_pos]

/-- The next sixteen lines hold the OTP words. -/
theorem lineBytes_otp (layout : ConfigLayout) (address : Fin 16) :
    lineBytes layout.text (16 + address) 4 = some (layout.otp address).bytes := by
  apply lineBytes_of_line
  rw [ConfigLayout.lines, List.append_assoc, List.getElem?_append_right (by simp),
    List.getElem?_append_left (by simp)]
  simp only [List.length_ofFn, Nat.add_sub_cancel_left, List.getElem?_ofFn, address.isLt, dif_pos]

/-- The line behind them holds the serial number of the chip. -/
theorem lineBytes_sn (layout : ConfigLayout) :
    lineBytes layout.text 32 9 = some layout.sn.bytes := by
  apply lineBytes_of_line
  rw [ConfigLayout.lines, List.getElem?_append_right (by simp)]
  simp only [List.length_append, List.length_ofFn, Nat.reduceAdd, Nat.sub_self,
    List.getElem?_cons_zero]

/-- Fewer bytes of the line are the front of its bytes. -/
theorem lineBytes_sn_take (layout : ConfigLayout) {count : ℕ} (h : count ≤ 9) :
    lineBytes layout.text 32 count = some (layout.sn.bytes.take count) := by
  obtain ⟨chunk, hchunk, hread⟩ := Option.bind_eq_some_iff.mp (lineBytes_sn layout)
  rw [lineBytes, hchunk, Option.bind_some]
  exact readPairs_take hread h

/-- Behind the serial number the file has no line. -/
theorem lineBytes_behind (layout : ConfigLayout) {k : ℕ} (h : 33 ≤ k) (count : ℕ) :
    lineBytes layout.text k count = none := by
  have hlen : layout.lines.length ≤ k := by simpa [ConfigLayout.lines] using h
  rw [lineBytes, ConfigLayout.text, nthChunk_lines_of_le (configLayout_isLine layout) hlen]
  rfl

end Atsha204.Analysis
