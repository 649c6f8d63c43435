import Mathlib.Tactic.Common

/-!
# Texts of delimited pairs

A text lists values, each written as a pair of adjacent symbols; delimiters may stand in
front of any pair. `readPairs n` decodes the first `n` pairs and insists that the text
goes on behind each of them, the last one included. `renderPairs` writes a list of
items, each a run of delimiters and a pair; reading back what was written, followed by
anything, gives the decoded pairs (`readPairs_render`), and followed by nothing it fails
(`readPairs_render_nil`). What is read always is the front of the text, rendered
(`exists_render_of_readPairs`).

A text with fewer pairs can end within a pair or behind one, or it can run out in
delimiters, where the next pair is looked for (`runsOut`): it then is fewer items, rendered,
and a run of delimiters (`runsOut_iff_render`).
-/

set_option autoImplicit false

namespace Atsha204.Library

variable {α β : Type} (isDelim : α → Bool) (decode : α → α → β)

/-- Decode the first `n` pairs of a text; each must be followed by more text. -/
def readPairs : ℕ → List α → Option (List β)
  | 0, _ => some []
  | _ + 1, [] => none
  | n + 1, a :: text =>
    if isDelim a then readPairs (n + 1) text
    else match text with
      | [] => none
      | [_] => none
      | b :: c :: text => (readPairs n (c :: text)).map (decode a b :: ·)

/-- Whether the text ends where one of the first `n` pairs is looked for. -/
def runsOut : ℕ → List α → Bool
  | 0, _ => false
  | _ + 1, [] => true
  | n + 1, a :: text =>
    if isDelim a then runsOut (n + 1) text
    else match text with
      | [] => false
      | [_] => false
      | _ :: c :: text => runsOut n (c :: text)

/-- An item of a text: the delimiters in front of a pair, and the pair. -/
structure PairItem (α : Type) where
  delims : List α
  first : α
  second : α

/-- The symbols of an item. -/
def PairItem.text (item : PairItem α) : List α :=
  item.delims ++ [item.first, item.second]

/-- The symbols of a list of items. -/
def renderPairs (items : List (PairItem α)) : List α := items.flatMap PairItem.text

/-- The first item stands in front: its delimiters, and then the pair. -/
theorem renderPairs_cons (item : PairItem α) (items : List (PairItem α)) :
    renderPairs (item :: items) =
      item.delims ++ (item.first :: item.second :: renderPairs items) := by
  simp only [renderPairs, PairItem.text, List.flatMap_cons, List.append_assoc, List.cons_append,
    List.nil_append]

/-- Items are not written as nothing. -/
theorem renderPairs_ne_nil {items : List (PairItem α)} (h : items ≠ []) :
    renderPairs items ≠ [] := by
  cases items with
  | nil => exact absurd rfl h
  | cons item items =>
    rw [renderPairs_cons]
    exact List.append_ne_nil_of_right_ne_nil _ (List.cons_ne_nil _ _)

/-- Every pair takes two symbols, and its delimiters. -/
theorem renderPairs_length_le {items : List (PairItem α)} {k : ℕ}
    (h : ∀ item ∈ items, item.delims.length ≤ k) :
    (renderPairs items).length ≤ (k + 2) * items.length := by
  induction items with
  | nil => exact Nat.zero_le _
  | cons item items ih =>
    have hrest := ih fun i hi => h i (.tail _ hi)
    have hitem := h item (.head _)
    rw [renderPairs_cons, List.length_append, List.length_cons, List.length_cons,
      List.length_cons, Nat.mul_succ]
    omega

variable {isDelim decode}

/-- No pairs are read from any text. -/
@[simp] theorem readPairs_zero (text : List α) :
    readPairs isDelim decode 0 text = some [] := by
  cases text <;> rfl

/-- The first character is a delimiter, or the first half of a pair behind which the text must go
on. -/
theorem readPairs_cons (n : ℕ) (a : α) (text : List α) :
    readPairs isDelim decode (n + 1) (a :: text) =
      if isDelim a then readPairs isDelim decode (n + 1) text
      else match text with
        | [] => none
        | [_] => none
        | b :: c :: text => (readPairs isDelim decode n (c :: text)).map (decode a b :: ·) := by
  rw [readPairs.eq_def]

/-- As many values are read as were asked for. -/
theorem readPairs_length {n : ℕ} {text : List α} {values : List β}
    (h : readPairs isDelim decode n text = some values) : values.length = n := by
  induction n, text using readPairs.induct isDelim generalizing values with
  | case1 text => rw [readPairs_zero] at h; cases h; rfl
  | case2 n => simp [readPairs] at h
  | case3 n a text ha ih => rw [readPairs_cons, if_pos ha] at h; exact ih h
  | case4 n a ha => rw [readPairs_cons, if_neg ha] at h; cases h
  | case5 n a ha b => rw [readPairs_cons, if_neg ha] at h; cases h
  | case6 n a ha b c text ih =>
    rw [readPairs_cons, if_neg ha, Option.map_eq_some_iff] at h
    obtain ⟨rest, hrest, rfl⟩ := h
    simp [ih hrest]

/-- Where some pairs are read, so are fewer of them. -/
theorem readPairs_take {n m : ℕ} {text : List α} {values : List β}
    (h : readPairs isDelim decode n text = some values) (hm : m ≤ n) :
    readPairs isDelim decode m text = some (values.take m) := by
  induction n, text using readPairs.induct isDelim generalizing m values with
  | case1 text => rw [Nat.le_zero.mp hm, readPairs_zero, List.take_zero]
  | case2 n => cases h
  | case3 n a text ha ih =>
    cases m with
    | zero => rw [readPairs_zero, List.take_zero]
    | succ m =>
      rw [readPairs_cons, if_pos ha] at h ⊢
      exact ih h hm
  | case4 n a ha => rw [readPairs_cons, if_neg ha] at h; cases h
  | case5 n a ha b => rw [readPairs_cons, if_neg ha] at h; cases h
  | case6 n a ha b c text ih =>
    cases m with
    | zero => rw [readPairs_zero, List.take_zero]
    | succ m =>
      rw [readPairs_cons, if_neg ha, Option.map_eq_some_iff] at h
      obtain ⟨rest, hrest, rfl⟩ := h
      rw [readPairs_cons, if_neg ha, List.take_succ_cons]
      exact congrArg (Option.map _) (ih hrest (Nat.le_of_succ_le_succ hm))

/-- Delimiters in front of a text are skipped. -/
theorem readPairs_skip {n : ℕ} {delims text : List α}
    (h : ∀ a ∈ delims, isDelim a = true) :
    readPairs isDelim decode (n + 1) (delims ++ text) =
      readPairs isDelim decode (n + 1) text := by
  induction delims with
  | nil => rfl
  | cons a delims ih =>
    rw [List.cons_append, readPairs_cons, if_pos (h a (by simp))]
    exact ih fun b hb => h b (by simp [hb])

/-- A pair with more text behind it is decoded. -/
theorem readPairs_pair {n : ℕ} {a b : α} {text : List α} (ha : isDelim a = false)
    (ht : text ≠ []) :
    readPairs isDelim decode (n + 1) (a :: b :: text) =
      (readPairs isDelim decode n text).map (decode a b :: ·) := by
  cases text with
  | nil => exact absurd rfl ht
  | cons c text => rw [readPairs_cons, if_neg (by simp [ha])]

/-- Reading back a rendered list of items gives the decoded pairs, whatever follows. -/
theorem readPairs_render {items : List (PairItem α)} {tail : List α} (htail : tail ≠ [])
    (hdelims : ∀ item ∈ items, ∀ a ∈ item.delims, isDelim a = true)
    (hfirst : ∀ item ∈ items, isDelim item.first = false) :
    readPairs isDelim decode items.length (renderPairs items ++ tail) =
      some (items.map fun item => decode item.first item.second) := by
  induction items with
  | nil => simp
  | cons item items ih =>
    have hne : renderPairs items ++ tail ≠ [] := List.append_ne_nil_of_right_ne_nil _ htail
    have hrest := ih (fun i hi => hdelims i (.tail _ hi)) (fun i hi => hfirst i (.tail _ hi))
    rw [renderPairs_cons, List.append_assoc, List.cons_append, List.cons_append, List.length_cons,
      readPairs_skip (hdelims item (.head _)), readPairs_pair (hfirst item (.head _)) hne, hrest]
    rfl

/-- Decoding is done pair by pair. -/
theorem readPairs_map (n : ℕ) (text : List α) : readPairs isDelim decode n text =
    (readPairs isDelim Prod.mk n text).map (List.map fun p => decode p.1 p.2) := by
  induction n, text using readPairs.induct isDelim with
  | case1 text => simp
  | case2 n => rfl
  | case3 n a text ha ih => rw [readPairs_cons, if_pos ha, readPairs_cons, if_pos ha, ih]
  | case4 n a ha => rw [readPairs_cons, if_neg ha, readPairs_cons, if_neg ha]; rfl
  | case5 n a ha b => rw [readPairs_cons, if_neg ha, readPairs_cons, if_neg ha]; rfl
  | case6 n a ha b c text ih =>
    rw [readPairs_cons, if_neg ha, readPairs_cons, if_neg ha]
    simp only [ih, Option.map_map]
    rfl

/-- What is read is a front of the text. -/
theorem exists_render_of_readPairs {n : ℕ} {text : List α} {pairs : List (α × α)}
    (h : readPairs isDelim Prod.mk n text = some pairs) :
    ∃ items rest, text = renderPairs items ++ rest ∧
      pairs = items.map (fun item => (item.first, item.second)) ∧
      ∀ item ∈ items, ∀ a ∈ item.delims, isDelim a = true := by
  induction n, text using readPairs.induct isDelim generalizing pairs with
  | case1 text =>
    rw [readPairs_zero] at h
    obtain rfl := Option.some_inj.mp h
    exact ⟨[], text, rfl, rfl, by simp⟩
  | case2 n => cases h
  | case3 n a text ha ih =>
    rw [readPairs_cons, if_pos ha] at h
    obtain ⟨items, rest, rfl, rfl, hdelims⟩ := ih h
    cases items with
    | nil =>
      have hlen := readPairs_length h
      simp at hlen
    | cons item items =>
      refine ⟨⟨a :: item.delims, item.first, item.second⟩ :: items, rest, rfl, rfl, ?_⟩
      intro item' hitem'
      rcases List.mem_cons.mp hitem' with rfl | hitem'
      · intro b hb
        rcases List.mem_cons.mp hb with rfl | hb
        · exact ha
        · exact hdelims item (.head _) b hb
      · exact hdelims item' (.tail _ hitem')
  | case4 n a ha => rw [readPairs_cons, if_neg ha] at h; cases h
  | case5 n a ha b => rw [readPairs_cons, if_neg ha] at h; cases h
  | case6 n a ha b c text ih =>
    rw [readPairs_cons, if_neg ha, Option.map_eq_some_iff] at h
    obtain ⟨pairs', hrest, rfl⟩ := h
    obtain ⟨items, rest, htext, rfl, hdelims⟩ := ih hrest
    refine ⟨⟨[], a, b⟩ :: items, rest, ?_, rfl, ?_⟩
    · rw [htext]
      rfl
    · intro item hitem
      rcases List.mem_cons.mp hitem with rfl | hitem
      · simp
      · exact hdelims item hitem

/-- A text that ends with its last pair is not read. -/
theorem readPairs_render_nil {items : List (PairItem α)} (hne : items ≠ [])
    (hdelims : ∀ item ∈ items, ∀ a ∈ item.delims, isDelim a = true)
    (hfirst : ∀ item ∈ items, isDelim item.first = false) :
    readPairs isDelim decode items.length (renderPairs items) = none := by
  induction items with
  | nil => exact absurd rfl hne
  | cons item items ih =>
    rw [renderPairs_cons, List.length_cons, readPairs_skip (hdelims item (.head _))]
    by_cases hrest : items = []
    · rw [hrest, List.length_nil, readPairs_cons, if_neg (by simp [hfirst item (.head _)])]
      rfl
    · have hnext := ih hrest (fun i hi => hdelims i (.tail _ hi)) fun i hi => hfirst i (.tail _ hi)
      rw [readPairs_pair (hfirst item (.head _)) (renderPairs_ne_nil hrest), hnext]
      rfl

/-- A front of a text that is rendered pairs is what is read of it. -/
theorem readPairs_of_render {items : List (PairItem α)} {tail : List α} {pairs : List (α × α)}
    (hdelims : ∀ item ∈ items, ∀ a ∈ item.delims, isDelim a = true)
    (hfirst : ∀ item ∈ items, isDelim item.first = false)
    (h : readPairs isDelim Prod.mk items.length (renderPairs items ++ tail) = some pairs) :
    pairs = items.map fun item => (item.first, item.second) := by
  cases tail with
  | nil =>
    rw [List.append_nil] at h
    cases items with
    | nil =>
      rw [List.length_nil, readPairs_zero] at h
      exact (Option.some_inj.mp h).symm
    | cons item items =>
      rw [readPairs_render_nil (List.cons_ne_nil _ _) hdelims hfirst] at h
      cases h
  | cons a tail =>
    rw [readPairs_render (List.cons_ne_nil _ _) hdelims hfirst] at h
    exact (Option.some_inj.mp h).symm

/-! ## Texts that run out -/

/-- A text does not run out where no pair is asked for. -/
@[simp] theorem runsOut_zero (text : List α) : runsOut isDelim 0 text = false := by
  cases text <;> rfl

/-- The first character is a delimiter, or begins a pair. -/
theorem runsOut_cons (n : ℕ) (a : α) (text : List α) :
    runsOut isDelim (n + 1) (a :: text) =
      if isDelim a then runsOut isDelim (n + 1) text
      else match text with
        | [] => false
        | [_] => false
        | _ :: c :: text => runsOut isDelim n (c :: text) := by
  rw [runsOut.eq_def]

/-- Nothing but delimiters runs out. -/
theorem runsOut_delims {n : ℕ} {delims : List α} (h : ∀ a ∈ delims, isDelim a = true) :
    runsOut isDelim (n + 1) delims = true := by
  induction delims with
  | nil => rfl
  | cons a delims ih =>
    rw [runsOut_cons, if_pos (h a (.head _))]
    exact ih fun b hb => h b (.tail _ hb)

/-- Delimiters in front of a text do not change whether it runs out. -/
theorem runsOut_skip {n : ℕ} {delims text : List α} (h : ∀ a ∈ delims, isDelim a = true) :
    runsOut isDelim (n + 1) (delims ++ text) = runsOut isDelim (n + 1) text := by
  induction delims with
  | nil => rfl
  | cons a delims ih =>
    rw [List.cons_append, runsOut_cons, if_pos (h a (.head _))]
    exact ih fun b hb => h b (.tail _ hb)

/-- Behind fewer items, with delimiters behind the last one, a text runs out. -/
theorem runsOut_render {n : ℕ} {items : List (PairItem α)} {delims : List α}
    (hitems : ∀ item ∈ items, (∀ a ∈ item.delims, isDelim a = true) ∧ isDelim item.first = false)
    (hcount : items.length < n) (hdelims : ∀ a ∈ delims, isDelim a = true)
    (hne : delims = [] → items = []) : runsOut isDelim n (renderPairs items ++ delims) = true := by
  induction items generalizing n with
  | nil =>
    obtain ⟨n, rfl⟩ := Nat.exists_eq_add_one_of_ne_zero (Nat.ne_zero_of_lt hcount)
    exact runsOut_delims hdelims
  | cons item items ih =>
    obtain ⟨n, rfl⟩ := Nat.exists_eq_add_one_of_ne_zero (Nat.ne_zero_of_lt hcount)
    have hrest := ih (fun i hi => hitems i (.tail _ hi)) (Nat.lt_of_succ_lt_succ hcount)
      fun h => absurd (hne h) (List.cons_ne_nil _ _)
    have hmore : renderPairs items ++ delims ≠ [] :=
      List.append_ne_nil_of_right_ne_nil _ fun h => List.cons_ne_nil _ _ (hne h)
    obtain ⟨hskip, hfirst⟩ := hitems item (.head _)
    rw [renderPairs_cons, List.append_assoc, List.cons_append, List.cons_append,
      runsOut_skip hskip, runsOut_cons, if_neg (by simp [hfirst])]
    cases htext : renderPairs items ++ delims with
    | nil => exact absurd htext hmore
    | cons c text => rw [htext] at hrest; exact hrest

/-- A text runs out exactly when it is fewer items, rendered, and delimiters. -/
theorem runsOut_iff_render {n : ℕ} {text : List α} : runsOut isDelim n text = true ↔
    ∃ (items : List (PairItem α)) (delims : List α), text = renderPairs items ++ delims ∧
      (∀ item ∈ items, (∀ a ∈ item.delims, isDelim a = true) ∧ isDelim item.first = false) ∧
      items.length < n ∧ (∀ a ∈ delims, isDelim a = true) ∧ (delims = [] → items = []) := by
  constructor
  · intro h
    induction n, text using readPairs.induct isDelim with
    | case1 text => rw [runsOut_zero] at h; cases h
    | case2 n => exact ⟨[], [], rfl, by simp, Nat.succ_pos n, by simp, fun _ => rfl⟩
    | case3 n a text ha ih =>
      rw [runsOut_cons, if_pos ha] at h
      obtain ⟨items, delims, rfl, hitems, hcount, hdelims, hne⟩ := ih h
      cases items with
      | nil =>
        refine ⟨[], a :: delims, rfl, by simp, hcount, fun b hb => ?_, fun _ => rfl⟩
        rcases List.mem_cons.mp hb with rfl | hb
        · exact ha
        · exact hdelims b hb
      | cons item items =>
        refine ⟨⟨a :: item.delims, item.first, item.second⟩ :: items, delims, rfl, ?_, hcount,
          hdelims, fun hnil => absurd (hne hnil) (List.cons_ne_nil _ _)⟩
        intro item' hitem'
        rcases List.mem_cons.mp hitem' with rfl | hitem'
        · obtain ⟨hskip, hfirst⟩ := hitems item (.head _)
          refine ⟨fun b hb => ?_, hfirst⟩
          rcases List.mem_cons.mp hb with rfl | hb
          · exact ha
          · exact hskip b hb
        · exact hitems item' (.tail _ hitem')
    | case4 n a ha => rw [runsOut_cons, if_neg ha] at h; cases h
    | case5 n a ha b => rw [runsOut_cons, if_neg ha] at h; cases h
    | case6 n a ha b c text ih =>
      rw [runsOut_cons, if_neg ha] at h
      obtain ⟨items, delims, htext, hitems, hcount, hdelims, hne⟩ := ih h
      refine ⟨⟨[], a, b⟩ :: items, delims, by rw [htext]; rfl, ?_, Nat.succ_lt_succ hcount, hdelims,
        fun hnil => ?_⟩
      · intro item hitem
        rcases List.mem_cons.mp hitem with rfl | hitem
        · exact ⟨by simp, by simpa using ha⟩
        · exact hitems item hitem
      · rw [hnil, hne hnil] at htext
        cases htext
  · rintro ⟨items, delims, rfl, hitems, hcount, hdelims, hne⟩
    exact runsOut_render hitems hcount hdelims hne

end Atsha204.Library
