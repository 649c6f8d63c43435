import Mathlib.Tactic.Common

/-!
# Reading a stream in chunks

A reader with a buffer of `n` symbols takes from a stream the symbols up to and with the
first end mark, but never more than `n` of them; at the end of the stream it gets
nothing (`nextChunk`). `afterChunks k` is the stream left after `k` such reads and
`nthChunk k` the chunk read next.

Reading one chunk after another and skipping from the start meet by
`afterChunks_add`; on a stream made of marked lines that fit the buffer the chunks are
the lines (`nthChunk_lines`).
-/

set_option autoImplicit false

namespace Atsha204.Library

variable {α : Type} (isEnd : α → Bool)

/-- Split off at most `n` symbols, stopping behind the first end mark. -/
def takeChunk : ℕ → List α → List α × List α
  | 0, stream => ([], stream)
  | _ + 1, [] => ([], [])
  | n + 1, a :: stream =>
    if isEnd a then ([a], stream)
    else ((a :: (takeChunk n stream).1), (takeChunk n stream).2)

/-- The next chunk and the stream behind it; nothing at the end of the stream. -/
def nextChunk (n : ℕ) (stream : List α) : Option (List α × List α) :=
  if stream.isEmpty then none else some (takeChunk isEnd n stream)

/-- The stream behind the next `k` chunks, if there are that many. -/
def afterChunks (n : ℕ) : ℕ → List α → Option (List α)
  | 0, stream => some stream
  | k + 1, stream => (nextChunk isEnd n stream).bind fun c => afterChunks n k c.2

/-- The chunk behind the next `k` ones, if there is one. -/
def nthChunk (n k : ℕ) (stream : List α) : Option (List α) :=
  ((afterChunks isEnd n k stream).bind (nextChunk isEnd n)).map Prod.fst

variable {isEnd}

/-- A chunk is no longer than it may be. -/
theorem takeChunk_length_le (n : ℕ) (stream : List α) :
    (takeChunk isEnd n stream).1.length ≤ n := by
  induction n generalizing stream with
  | zero => simp [takeChunk]
  | succ n ih =>
    cases stream with
    | nil => simp [takeChunk]
    | cons a stream =>
      unfold takeChunk
      split
      · simp
      · simpa using ih stream

/-- Every chunk fits the buffer. -/
theorem nextChunk_length_le {n : ℕ} {stream chunk rest : List α}
    (h : nextChunk isEnd n stream = some (chunk, rest)) : chunk.length ≤ n := by
  unfold nextChunk at h
  split at h
  · cases h
  · have : (takeChunk isEnd n stream).1.length ≤ n := takeChunk_length_le n stream
    rw [Option.some.inj h] at this
    exact this

/-- Skipping `j` chunks and then `k` more is skipping `j + k`. -/
theorem afterChunks_add (n j k : ℕ) (stream : List α) :
    afterChunks isEnd n (j + k) stream =
      (afterChunks isEnd n j stream).bind (afterChunks isEnd n k) := by
  induction j generalizing stream with
  | zero => simp [afterChunks]
  | succ j ih =>
    rw [Nat.succ_add_eq_add_succ, Nat.add_succ, afterChunks, afterChunks]
    cases nextChunk isEnd n stream with
    | none => rfl
    | some c => exact ih c.2

/-- The chunk read after `j` and then `k` skipped ones. -/
theorem nthChunk_add (n j k : ℕ) (stream : List α) :
    nthChunk isEnd n (j + k) stream =
      (afterChunks isEnd n j stream).bind (nthChunk isEnd n k) := by
  unfold nthChunk
  rw [afterChunks_add]
  cases afterChunks isEnd n j stream <;> rfl

/-! ## Streams of marked lines -/

/-- A line that fits the buffer: some unmarked symbols and one end mark. -/
structure Line (isEnd : α → Bool) (n : ℕ) (line : List α) : Prop where
  shape : ∃ body mark, line = body ++ [mark] ∧ isEnd mark = true ∧
    ∀ a ∈ body, isEnd a = false
  fits : line.length ≤ n

/-- A chunk that ends with a mark in time is taken up to it. -/
theorem takeChunk_body {n : ℕ} {body rest : List α} {mark : α} (hmark : isEnd mark = true)
    (hbody : ∀ a ∈ body, isEnd a = false) (hn : body.length < n) :
    takeChunk isEnd n (body ++ mark :: rest) = (body ++ [mark], rest) := by
  induction body generalizing n with
  | nil =>
    obtain ⟨n, rfl⟩ := Nat.exists_eq_succ_of_ne_zero (by omega : n ≠ 0)
    simp [takeChunk, hmark]
  | cons a body ih =>
    obtain ⟨n, rfl⟩ := Nat.exists_eq_succ_of_ne_zero (by omega : n ≠ 0)
    have ha := hbody a (by simp)
    have hrest := ih (n := n) (fun c hc => hbody c (by simp [hc])) (by simpa using hn)
    simp [takeChunk, ha, hrest]

/-- A line in front of a stream is the next chunk. -/
theorem nextChunk_line {n : ℕ} {line : List α} (h : Line isEnd n line) (rest : List α) :
    nextChunk isEnd n (line ++ rest) = some (line, rest) := by
  obtain ⟨⟨body, mark, rfl, hmark, hbody⟩, hfits⟩ := h
  have hbl : body.length < n := by
    rw [List.length_append, List.length_singleton] at hfits
    omega
  simp [nextChunk, takeChunk_body hmark hbody hbl]

/-- The end of a stream without an end mark is the last chunk. -/
theorem nextChunk_last {n : ℕ} {body : List α} (hne : body ≠ [])
    (hbody : ∀ a ∈ body, isEnd a = false) (hn : body.length ≤ n) :
    nextChunk isEnd n body = some (body, []) := by
  have htake : ∀ (n : ℕ) (body : List α), (∀ a ∈ body, isEnd a = false) → body.length ≤ n →
      takeChunk isEnd n body = (body, []) := by
    intro n
    induction n with
    | zero =>
      intro body _ hn
      rw [List.length_eq_zero_iff.mp (Nat.le_zero.mp hn)]
      rfl
    | succ n ih =>
      intro body hbody hn
      cases body with
      | nil => rfl
      | cons a body =>
        have hrest := ih body (fun c hc => hbody c (.tail _ hc)) (by simpa using hn)
        simp [takeChunk, hbody a (.head _), hrest]
  rw [nextChunk, if_neg (by simpa using hne), htake n body hbody hn]

/-- Skipping as many chunks as there are lines skips the lines. -/
theorem afterChunks_lines {n : ℕ} {lines : List (List α)}
    (h : ∀ line ∈ lines, Line isEnd n line) (rest : List α) :
    afterChunks isEnd n lines.length (lines.flatten ++ rest) = some rest := by
  induction lines with
  | nil => rfl
  | cons line lines ih =>
    rw [List.length_cons, afterChunks, List.flatten_cons, List.append_assoc,
      nextChunk_line (h line (by simp))]
    exact ih fun l hl => h l (by simp [hl])

/-- On a stream of lines the chunks are the lines. -/
theorem nthChunk_lines {n k : ℕ} {lines : List (List α)}
    (h : ∀ line ∈ lines, Line isEnd n line) (hk : k < lines.length) (rest : List α) :
    nthChunk isEnd n k (lines.flatten ++ rest) = some lines[k] := by
  have hsplit : lines.flatten =
      (lines.take k).flatten ++ (lines[k] ++ (lines.drop (k + 1)).flatten) := by
    conv_lhs => rw [← List.take_append_drop k lines]
    rw [List.flatten_append, List.drop_eq_getElem_cons hk, List.flatten_cons]
  have htake : (lines.take k).length = k := by simp; omega
  have hskip := @afterChunks_lines _ isEnd n (lines.take k)
    (fun l hl => h l (List.mem_of_mem_take hl))
    (lines[k] ++ (lines.drop (k + 1)).flatten ++ rest)
  rw [htake] at hskip
  rw [nthChunk, hsplit, List.append_assoc, hskip, Option.bind_some, List.append_assoc,
    nextChunk_line (h _ (List.getElem_mem hk))]
  rfl

/-- Behind the lines there are no chunks. -/
theorem nthChunk_lines_of_le {n k : ℕ} {lines : List (List α)}
    (h : ∀ line ∈ lines, Line isEnd n line) (hk : lines.length ≤ k) :
    nthChunk isEnd n k lines.flatten = none := by
  obtain ⟨j, rfl⟩ := Nat.exists_eq_add_of_le hk
  have hafter := afterChunks_lines h []
  rw [List.append_nil] at hafter
  rw [nthChunk_add, hafter, Option.bind_some]
  cases j <;> rfl

/-- The chunks behind the first one. -/
theorem nthChunk_succ (n k : ℕ) (stream : List α) :
    nthChunk isEnd n (k + 1) stream =
      (nextChunk isEnd n stream).bind fun c => nthChunk isEnd n k c.2 := by
  rw [nthChunk, afterChunks]
  cases nextChunk isEnd n stream <;> rfl

/-! ## Decoding one chunk after another -/

variable {β : Type} (isEnd) (decode : List α → Option (List β))

/-- Read `k` chunks and decode each of them; what they decode to, in a row, and the stream
behind them. -/
def readChunks (n : ℕ) : ℕ → List α → Option (List β × List α)
  | 0, stream => some ([], stream)
  | k + 1, stream => do
    let (chunk, rest) ← nextChunk isEnd n stream
    let front ← decode chunk
    let (back, rest) ← readChunks n k rest
    return (front ++ back, rest)

variable {isEnd decode}

/-- The first chunk and then the others. -/
theorem readChunks_succ (n k : ℕ) (stream : List α) :
    readChunks isEnd decode n (k + 1) stream =
      (readChunks isEnd decode n 1 stream).bind fun first =>
        (readChunks isEnd decode n k first.2).map
          fun others => (first.1 ++ others.1, others.2) := by
  rw [readChunks, readChunks]
  cases nextChunk isEnd n stream with
  | none => rfl
  | some c =>
    obtain ⟨chunk, rest⟩ := c
    cases hfront : decode chunk with
    | none => simp [hfront]
    | some front =>
      cases hback : readChunks isEnd decode n k rest <;> simp [hfront, hback, readChunks]

/-- Reading on and skipping from the start find the same chunks to decode. -/
theorem readChunks_isSome_iff (n k : ℕ) (stream : List α) :
    (readChunks isEnd decode n k stream).isSome ↔
      ∀ i < k, ((nthChunk isEnd n i stream).bind decode).isSome := by
  induction k generalizing stream with
  | zero => simp [readChunks]
  | succ k ih =>
    have hsplit : (∀ i < k + 1, ((nthChunk isEnd n i stream).bind decode).isSome) ↔
        ((nthChunk isEnd n 0 stream).bind decode).isSome ∧
          ∀ i < k, ((nthChunk isEnd n (i + 1) stream).bind decode).isSome := by
      constructor
      · intro h
        exact ⟨h 0 (by omega), fun i hi => h (i + 1) (by omega)⟩
      · rintro ⟨hzero, hsucc⟩ (_ | i) hi
        · exact hzero
        · exact hsucc i (by omega)
    have hfirst : nthChunk isEnd n 0 stream = (nextChunk isEnd n stream).map Prod.fst := rfl
    simp only [hsplit, nthChunk_succ, hfirst]
    rw [readChunks]
    cases nextChunk isEnd n stream with
    | none => simp
    | some c =>
      obtain ⟨chunk, rest⟩ := c
      simp only [Option.map_some, Option.bind_some, Option.bind_eq_bind, ← ih rest]
      cases decode chunk with
      | none => simp
      | some front => cases readChunks isEnd decode n k rest <;> simp

/-- What `k` decoded chunks say of the stream. -/
theorem readChunks_eq_some {n k count : ℕ} {stream rest : List α} {values : List β}
    (hcount : ∀ chunk front, decode chunk = some front → front.length = count)
    (h : readChunks isEnd decode n k stream = some (values, rest)) :
    afterChunks isEnd n k stream = some rest ∧ values.length = k * count ∧
      ∀ i < k, (nthChunk isEnd n i stream).bind decode =
        some ((values.drop (i * count)).take count) := by
  induction k generalizing stream values with
  | zero =>
    obtain ⟨rfl, rfl⟩ := Prod.mk.inj (Option.some.inj h)
    exact ⟨rfl, by simp, fun i hi => by omega⟩
  | succ k ih =>
    rw [readChunks, Option.bind_eq_bind, Option.bind_eq_some_iff] at h
    obtain ⟨⟨chunk, rest₁⟩, hnext, h⟩ := h
    simp only [Option.bind_eq_bind, Option.bind_eq_some_iff] at h
    obtain ⟨front, hfront, ⟨back, rest₂⟩, hback, h⟩ := h
    obtain ⟨rfl, rfl⟩ := Prod.mk.inj (Option.some.inj h)
    obtain ⟨hafter, hlen, hslices⟩ := ih hback
    have hfrontLen := hcount chunk front hfront
    refine ⟨?_, ?_, ?_⟩
    · rw [afterChunks, hnext]
      exact hafter
    · rw [List.length_append, hfrontLen, hlen, Nat.succ_mul, Nat.add_comm]
    · rintro (_ | i) hi
      · have hfirst : nthChunk isEnd n 0 stream = some chunk := by
          rw [nthChunk, afterChunks, Option.bind_some, hnext]
          rfl
        rw [hfirst, Option.bind_some, hfront, Nat.zero_mul, List.drop_zero,
          List.take_left' hfrontLen]
      · rw [nthChunk_succ, hnext, Option.bind_some, hslices i (by omega), Nat.succ_mul,
          Nat.add_comm, ← List.drop_drop, List.drop_left' hfrontLen]

end Atsha204.Library
