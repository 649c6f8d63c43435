import Mathlib.Tactic.Common

/-!
# Programs with a state and a fault, and their weakest preconditions

A program is an `EStateM φ S α`: it runs on a state, and either returns a value or
stops with a fault, in both cases in some last state. `wp x Q E s` says of the run of
`x` from `s` that it ends in `Q` when it returns and in `E` when it faults. The two
useful extremes are `E := fun _ => False` (the program returns, `wp_returns_iff`) and
the same `E` as a safety property of the last state, which also constrains a run that
faults.

`foldWhile` is a `for` loop whose body may leave the enclosing function early; its rule
`wp_foldWhile` takes an invariant indexed by the part of the range not yet visited.
-/

set_option autoImplicit false

namespace Atsha204.Library

variable {φ S α β ι : Type}

/-! ## Weakest preconditions -/

/-- The run of `x` from `s` ends in `Q` when it returns, and in `E` when it faults. -/
def wp (x : EStateM φ S α) (Q : α → S → Prop) (E : S → Prop) (s : S) : Prop :=
  match x.run s with
  | .ok a s' => Q a s'
  | .error _ s' => E s'

/-- A value is returned in the state it was formed in. -/
@[simp] theorem wp_pure (a : α) (Q : α → S → Prop) (E : S → Prop) (s : S) :
    wp (pure a : EStateM φ S α) Q E s ↔ Q a s := Iff.rfl

/-- Sequencing composes weakest preconditions. -/
@[simp] theorem wp_bind (x : EStateM φ S α) (f : α → EStateM φ S β) (Q : β → S → Prop)
    (E : S → Prop) (s : S) :
    wp (x >>= f) Q E s ↔ wp x (fun a s' => wp (f a) Q E s') E s := by
  unfold wp
  rw [EStateM.run_bind]
  cases x.run s <;> rfl

/-- A function of the result is applied in the postcondition. -/
@[simp] theorem wp_map (g : α → β) (x : EStateM φ S α) (Q : β → S → Prop) (E : S → Prop)
    (s : S) : wp (g <$> x) Q E s ↔ wp x (fun a s' => Q (g a) s') E s := by
  rw [map_eq_pure_bind, wp_bind]
  rfl

/-- A fault ends the run in the state it happened in. -/
@[simp] theorem wp_throw (e : φ) (Q : α → S → Prop) (E : S → Prop) (s : S) :
    wp (throw e : EStateM φ S α) Q E s ↔ E s := Iff.rfl

/-- The state is given and stays as it is. -/
@[simp] theorem wp_get (Q : S → S → Prop) (E : S → Prop) (s : S) :
    wp (get : EStateM φ S S) Q E s ↔ Q s s := Iff.rfl

/-- The state is replaced. -/
@[simp] theorem wp_set (s' : S) (Q : PUnit → S → Prop) (E : S → Prop) (s : S) :
    wp (set s' : EStateM φ S PUnit) Q E s ↔ Q .unit s' := Iff.rfl

/-- The state is changed by the function. -/
@[simp] theorem wp_modify (f : S → S) (Q : PUnit → S → Prop) (E : S → Prop) (s : S) :
    wp (modify f : EStateM φ S PUnit) Q E s ↔ Q .unit (f s) := Iff.rfl

/-- Both postconditions may be weakened. -/
theorem wp_mono {x : EStateM φ S α} {Q Q' : α → S → Prop} {E E' : S → Prop} {s : S}
    (h : wp x Q E s) (hQ : ∀ a s', Q a s' → Q' a s') (hE : ∀ s', E s' → E' s') :
    wp x Q' E' s := by
  unfold wp at h ⊢
  cases hx : x.run s with
  | ok a s' => rw [hx] at h; exact hQ a s' h
  | error e s' => rw [hx] at h; exact hE s' h

/-- What is shown separately holds together. -/
theorem wp_and {x : EStateM φ S α} {Q Q' : α → S → Prop} {E E' : S → Prop} {s : S}
    (h : wp x Q E s) (h' : wp x Q' E' s) :
    wp x (fun a s' => Q a s' ∧ Q' a s') (fun s' => E s' ∧ E' s') s := by
  unfold wp at h h' ⊢
  cases hx : x.run s with
  | ok a s' => rw [hx] at h h'; exact ⟨h, h'⟩
  | error e s' => rw [hx] at h h'; exact ⟨h, h'⟩

/-- A known run decides the weakest precondition. -/
theorem wp_of_run {x : EStateM φ S α} {s s' : S} {a : α} (h : x.run s = .ok a s')
    (Q : α → S → Prop) (E : S → Prop) : wp x Q E s ↔ Q a s' := by
  unfold wp
  rw [h]

/-- With no allowance for faults, the weakest precondition is a returning run. -/
theorem wp_returns_iff (x : EStateM φ S α) (Q : α → S → Prop) (s : S) :
    wp x Q (fun _ => False) s ↔ ∃ a s', x.run s = .ok a s' ∧ Q a s' := by
  unfold wp
  cases hx : x.run s with
  | ok a s' => exact ⟨fun h => ⟨a, s', rfl, h⟩, by rintro ⟨_, _, ⟨⟩, h⟩; exact h⟩
  | error e s' => exact ⟨False.elim, by rintro ⟨_, _, ⟨⟩, _⟩⟩

/-- A program that always returns has a postcondition exactly under the condition under which
it is shown to have it. -/
theorem wp_iff_of_returns {x : EStateM φ S α} {Q : α → S → Prop} {P : Prop} {s : S}
    (h : wp x (fun a s' => Q a s' ↔ P) (fun _ => False) s) : wp x Q (fun _ => False) s ↔ P := by
  unfold wp at h ⊢
  cases hx : x.run s with
  | ok a s' => rw [hx] at h; exact h
  | error e s' => rw [hx] at h; exact h.elim

/-- A weakest precondition may be read off at any returning run. -/
theorem wp.of_run {x : EStateM φ S α} {Q : α → S → Prop} {E : S → Prop} {s s' : S} {a : α}
    (h : wp x Q E s) (hr : x.run s = .ok a s') : Q a s' :=
  (wp_of_run hr Q E).mp h

/-- A run that returns, as a weakest precondition. -/
theorem run_eq_ok_iff (x : EStateM φ S α) (s s' : S) (a : α) :
    x.run s = .ok a s' ↔ wp x (fun b t => b = a ∧ t = s') (fun _ => False) s := by
  unfold wp
  cases x.run s <;> simp

/-- A returning run may be kept beside what is shown of it. -/
theorem wp_with_run {x : EStateM φ S α} {Q : α → S → Prop} {E : S → Prop} {s : S}
    (h : wp x Q E s) : wp x (fun a s' => x.run s = .ok a s' ∧ Q a s') E s := by
  unfold wp at h ⊢
  cases hx : x.run s with
  | ok a s' => rw [hx] at h; exact ⟨rfl, h⟩
  | error e s' => rw [hx] at h; exact h

/-- A run that returns makes the rest of the program run in the state it left. -/
theorem run_bind_of_run {x : EStateM φ S α} {f : α → EStateM φ S β} {s s' : S} {a : α}
    (h : x.run s = .ok a s') : (x >>= f).run s = (f a).run s' := by
  rw [EStateM.run_bind, h]

/-- A sequence returns exactly when both its parts do. -/
theorem run_bind_eq_ok_iff (x : EStateM φ S α) (f : α → EStateM φ S β) (s s'' : S) (b : β) :
    (x >>= f).run s = .ok b s'' ↔
      ∃ a s', x.run s = .ok a s' ∧ (f a).run s' = .ok b s'' := by
  rw [EStateM.run_bind]
  cases hx : x.run s with
  | ok a s' =>
    exact ⟨fun h => ⟨a, s', rfl, h⟩, by rintro ⟨_, _, ⟨⟩, h⟩; exact h⟩
  | error e s' => exact ⟨fun h => by simp at h, by rintro ⟨_, _, ⟨⟩, _⟩⟩

/-- What holds of the runs that return, where nothing is asked of the others. -/
theorem wp_of_runs {x : EStateM φ S α} {Q : α → S → Prop} {s : S}
    (h : ∀ a s', x.run s = .ok a s' → Q a s') : wp x Q (fun _ => True) s := by
  unfold wp
  cases hx : x.run s with
  | ok a s' => exact h a s' hx
  | error e s' => trivial

/-- Every value that the program returns, from any state, has the property. -/
def Yields (P : α → Prop) (x : EStateM φ S α) : Prop :=
  ∀ s, wp x (fun a _ => P a) (fun _ => True) s

/-- A value that has the property is yielded. -/
theorem Yields.pure {P : α → Prop} {a : α} (h : P a) : Yields P (pure a : EStateM φ S α) :=
  fun _ => h

/-- What a sequence returns is what its last part returns. -/
theorem Yields.bind {P : β → Prop} {x : EStateM φ S α} {f : α → EStateM φ S β}
    (hf : ∀ a, Yields P (f a)) : Yields P (x >>= f) := by
  intro s
  have htrue : wp x (fun _ _ => True) (fun _ => True) s := by
    unfold wp
    cases x.run s <;> trivial
  rw [wp_bind]
  exact wp_mono htrue (fun a s' _ => hf a s') fun _ h => h

/-- The last state of a run. -/
def lastState : EStateM.Result φ S α → S
  | .ok _ s => s
  | .error _ s => s

/-- What holds however the run ends holds of its last state. -/
theorem wp_lastState_iff (x : EStateM φ S α) (P : S → Prop) (s : S) :
    wp x (fun _ s' => P s') P s ↔ P (lastState (x.run s)) := by
  unfold wp
  cases x.run s <;> rfl

/-! ## Invariants -/

/-- What holds of the state before the program holds of it behind the program, however it
ends. -/
def Keeps (I : S → Prop) (x : EStateM φ S α) : Prop :=
  ∀ s, I s → wp x (fun _ s' => I s') I s

section Keeps

variable {I : S → Prop}

/-- Returning a value keeps everything. -/
theorem Keeps.pure (a : α) : Keeps I (pure a : EStateM φ S α) := fun _ h => h

/-- So does a fault. -/
theorem Keeps.throw (e : φ) : Keeps I (throw e : EStateM φ S α) := fun _ h => h

/-- What both parts of a sequence keep, the sequence keeps. -/
theorem Keeps.bind {x : EStateM φ S α} {f : α → EStateM φ S β} (hx : Keeps I x)
    (hf : ∀ a, Keeps I (f a)) : Keeps I (x >>= f) := by
  intro s hs
  rw [wp_bind]
  exact wp_mono (hx s hs) (fun a s' hs' => hf a s' hs') fun _ hE => hE

/-- What every round of a loop keeps, the loop keeps. -/
theorem Keeps.foldlM {body : β → ι → EStateM φ S β} (hbody : ∀ b i, Keeps I (body b i))
    (range : List ι) (b : β) : Keeps I (range.foldlM body b) := by
  induction range generalizing b with
  | nil => exact Keeps.pure b
  | cons i is ih =>
    rw [List.foldlM_cons]
    exact (hbody b i).bind ih

/-- An invariant holds of the last state. -/
theorem Keeps.lastState {x : EStateM φ S α} (hx : Keeps I x) {s : S} (hs : I s) :
    I (Library.lastState (x.run s)) :=
  (wp_lastState_iff x I s).mp (hx s hs)

end Keeps

/-! ## Faults that are contained -/

/-- A program whose faults end only itself: there is no value then, and what follows goes on from
the state in which it stopped. -/
def contained (x : EStateM φ S α) : EStateM φ S (Option α) := fun s =>
  match x.run s with
  | .ok a s' => .ok (some a) s'
  | .error _ s' => .ok none s'

/-- The run of a contained program is the run of the program, with its fault as a value. -/
theorem run_contained (x : EStateM φ S α) (s : S) :
    (contained x).run s = match x.run s with
      | .ok a s' => .ok (some a) s'
      | .error _ s' => .ok none s' := rfl

/-- A contained program always returns. -/
@[simp] theorem wp_contained (x : EStateM φ S α) (Q : Option α → S → Prop) (E : S → Prop) (s : S) :
    wp (contained x) Q E s ↔ wp x (fun a s' => Q (some a) s') (fun s' => Q none s') s := by
  unfold wp
  rw [run_contained]
  cases x.run s <;> rfl

/-- What a program keeps, it keeps when it is contained. -/
theorem Keeps.contained {I : S → Prop} {x : EStateM φ S α} (hx : Keeps I x) :
    Keeps I (contained x) := by
  intro s hs
  rw [wp_contained]
  exact hx s hs

/-- A run that returns, contained. -/
theorem contained_run {x : EStateM φ S α} {s s' : S} {a : α} (h : x.run s = .ok a s') :
    (contained x).run s = .ok (some a) s' := by
  rw [run_contained, h]

/-! ## Partial values -/

/-- The value of a partial access; the fault `e` where there is none. -/
def orFault (e : φ) : Option α → EStateM φ S α
  | some a => pure a
  | none => throw e

/-- A value that is there is returned. -/
@[simp] theorem orFault_some (e : φ) (a : α) :
    (orFault e (some a) : EStateM φ S α) = pure a := rfl

/-- Where there is none, there is a fault. -/
@[simp] theorem orFault_none (e : φ) :
    (orFault e none : EStateM φ S α) = throw e := rfl

/-- A partial access ends in its value, or faults where there is none. -/
theorem wp_orFault (e : φ) (o : Option α) (Q : α → S → Prop) (E : S → Prop) (s : S) :
    wp (orFault e o) Q E s ↔ match o with
      | some a => Q a s
      | none => E s := by
  cases o <;> rfl

/-- A partial access returns exactly its value and leaves the state alone. -/
theorem run_orFault_eq_ok_iff (e : φ) (o : Option α) (s s' : S) (a : α) :
    (orFault e o : EStateM φ S α).run s = .ok a s' ↔ o = some a ∧ s' = s := by
  cases o with
  | none =>
    refine ⟨fun h => ?_, fun h => by cases h.1⟩
    change EStateM.Result.error e s = _ at h
    cases h
  | some b =>
    simp only [orFault_some, EStateM.run_pure, EStateM.Result.ok.injEq, Option.some.injEq]
    exact ⟨fun h => ⟨h.1, h.2.symm⟩, fun h => ⟨h.1, h.2.symm⟩⟩

/-- A partial access keeps everything. -/
theorem Keeps.orFault {I : S → Prop} (e : φ) (o : Option α) :
    Keeps I (orFault e o : EStateM φ S α) := by
  cases o with
  | none => exact Keeps.throw e
  | some a => exact Keeps.pure a

/-! ## Loops that may leave early -/

/-- `for` over a range with an accumulator; the body gives up with `none`. -/
def foldWhile (body : ι → β → EStateM φ S (Option β)) : List ι → β → EStateM φ S (Option β)
  | [], b => pure (some b)
  | i :: is, b => do
    match ← body i b with
    | none => pure none
    | some b' => foldWhile body is b'

/-- The loop rule: an invariant over the rest of the range that every round either
re-establishes for a shorter range or turns into the postcondition of giving up. -/
theorem wp_foldWhile {body : ι → β → EStateM φ S (Option β)} {Q : Option β → S → Prop}
    {E : S → Prop} (I : List ι → β → S → Prop)
    (hstep : ∀ i is b s, I (i :: is) b s →
      wp (body i b) (fun r s' => match r with
        | none => Q none s'
        | some b' => I is b' s') E s)
    (hexit : ∀ b s, I [] b s → Q (some b) s) (range : List ι) (b : β) (s : S)
    (h : I range b s) : wp (foldWhile body range b) Q E s := by
  induction range generalizing b s with
  | nil => exact hexit b s h
  | cons i is ih =>
    rw [foldWhile, wp_bind]
    refine wp_mono (hstep i is b s h) ?_ (fun _ he => he)
    rintro (_ | b') s' hr
    · exact hr
    · exact ih b' s' hr

/-- The loop rule over consecutive numbers: the invariant is indexed by the next of them. -/
theorem wp_foldWhile_range' {body : ℕ → β → EStateM φ S (Option β)} {Q : Option β → S → Prop}
    {E : S → Prop} {start n : ℕ} (I : ℕ → β → S → Prop)
    (hstep : ∀ i b s, start ≤ i → i < start + n → I i b s →
      wp (body i b) (fun r s' => match r with
        | none => Q none s'
        | some b' => I (i + 1) b' s') E s)
    (hexit : ∀ b s, I (start + n) b s → Q (some b) s) (b : β) (s : S) (h : I start b s) :
    wp (foldWhile body (List.range' start n) b) Q E s := by
  refine wp_foldWhile (fun rest b s => ∃ i, start ≤ i ∧ i ≤ start + n ∧
    rest = List.range' i (start + n - i) ∧ I i b s) ?_ ?_ _ b s
    ⟨start, Nat.le_refl _, by omega, by rw [Nat.add_sub_cancel_left], h⟩
  · rintro i is b s ⟨j, hlow, hhigh, hrest, hI⟩
    obtain ⟨m, hm⟩ : ∃ m, start + n - j = m + 1 := by
      refine Nat.exists_eq_add_one.mpr (Nat.pos_of_ne_zero fun hzero => ?_)
      rw [hzero] at hrest
      cases hrest
    rw [hm, List.range'_succ] at hrest
    obtain ⟨rfl, rfl⟩ := List.cons.inj hrest
    refine wp_mono (hstep i b s hlow (by omega) hI) ?_ fun _ he => he
    rintro (_ | b') s' hr
    · exact hr
    · exact ⟨i + 1, by omega, by omega, by rw [show start + n - (i + 1) = m by omega], hr⟩
  · rintro b s ⟨i, -, hhigh, hrest, hI⟩
    have hdone : start + n - i = 0 := by
      by_contra hne
      obtain ⟨m, hm⟩ := Nat.exists_eq_succ_of_ne_zero hne
      rw [hm, List.range'_succ] at hrest
      cases hrest
    rw [show i = start + n by omega] at hI
    exact hexit b s hI

/-- A loop all of whose rounds go through returns. -/
theorem foldWhile_runs (range : List ι) (body : ι → β → EStateM φ S (Option β))
    (I : β → S → Prop)
    (hstep : ∀ i ∈ range, ∀ b s, I b s → ∃ b' s', (body i b).run s = .ok (some b') s' ∧ I b' s')
    (b : β) (s : S) (h : I b s) :
    ∃ b' s', (foldWhile body range b).run s = .ok (some b') s' ∧ I b' s' := by
  induction range generalizing b s with
  | nil => exact ⟨b, s, rfl, h⟩
  | cons i is ih =>
    obtain ⟨b₁, s₁, hrun, hI⟩ := hstep i (.head _) b s h
    obtain ⟨b', s', hrest, hI'⟩ := ih (fun j hj => hstep j (.tail _ hj)) b₁ s₁ hI
    exact ⟨b', s', by rw [foldWhile, run_bind_of_run hrun]; exact hrest, hI'⟩

/-- A loop that cannot be left, all of whose rounds return, returns. -/
theorem foldlM_runs (range : List ι) (body : β → ι → EStateM φ S β) (I : β → S → Prop)
    (hstep : ∀ i ∈ range, ∀ b s, I b s → ∃ b' s', (body b i).run s = .ok b' s' ∧ I b' s')
    (b : β) (s : S) (h : I b s) :
    ∃ b' s', (range.foldlM body b).run s = .ok b' s' ∧ I b' s' := by
  induction range generalizing b s with
  | nil => exact ⟨b, s, rfl, h⟩
  | cons i is ih =>
    obtain ⟨b₁, s₁, hrun, hI⟩ := hstep i (.head _) b s h
    obtain ⟨b', s', hrest, hI'⟩ := ih (fun j hj => hstep j (.tail _ hj)) b₁ s₁ hI
    exact ⟨b', s', by rw [List.foldlM_cons, run_bind_of_run hrun]; exact hrest, hI'⟩

end Atsha204.Library
