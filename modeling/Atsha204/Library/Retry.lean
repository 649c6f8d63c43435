import Atsha204.Library.Program

/-!
# Bounded retry loops

`retry attempt n b` makes at most `n` attempts, carrying a loop state `b` between them.
An attempt either accepts a value, asks for another attempt, or ends the loop at once.

Two views of a run are given. `wp_retry` is the loop rule, with an invariant that may
count the attempts left. `Accepts attempt n b s a s'` is the exact trace view: some
attempt among the first `n` accepts `a`, every earlier one asked for another; a run
returns an accepted value exactly along such a trace (`run_retry_eq_ok_iff`).
-/

set_option autoImplicit false

namespace Atsha204.Library

variable {φ S α β : Type}

/-- What one attempt decides. -/
inductive Verdict (β α : Type) where
  | accept (a : α)
  | again (b : β)
  | abort (b : β)
  deriving DecidableEq, Repr

/-- At most `n` attempts; the loop state when none of them accepted. -/
def retry (attempt : β → EStateM φ S (Verdict β α)) : ℕ → β → EStateM φ S (Except β α)
  | 0, b => pure (.error b)
  | n + 1, b => do
    match ← attempt b with
    | .accept a => pure (.ok a)
    | .again b' => retry attempt n b'
    | .abort b' => pure (.error b')

/-- The retry rule: every attempt, made with `n + 1` attempts left, accepts into the
postcondition, gives up into it, or re-establishes the invariant with `n` left. -/
theorem wp_retry {attempt : β → EStateM φ S (Verdict β α)} {Q : Except β α → S → Prop}
    {E : S → Prop} (I : ℕ → β → S → Prop)
    (hstep : ∀ n b s, I (n + 1) b s →
      wp (attempt b) (fun v s' => match v with
        | .accept a => Q (.ok a) s'
        | .again b' => I n b' s'
        | .abort b' => Q (.error b') s') E s)
    (hexit : ∀ b s, I 0 b s → Q (.error b) s) (n : ℕ) (b : β) (s : S) (h : I n b s) :
    wp (retry attempt n b) Q E s := by
  induction n generalizing b s with
  | zero => exact hexit b s h
  | succ n ih =>
    rw [retry, wp_bind]
    refine wp_mono (hstep n b s h) ?_ (fun _ he => he)
    rintro (a | b' | b') s' hv
    · exact hv
    · exact ih b' s' hv
    · exact hv

/-- Some attempt among the first `n`, made from loop state `b`, accepts `a` and leaves
the state `s'`; all attempts before it asked for another. -/
inductive Accepts (attempt : β → EStateM φ S (Verdict β α)) :
    ℕ → β → S → α → S → Prop where
  | here {n : ℕ} {b : β} {s s' : S} {a : α} (h : (attempt b).run s = .ok (.accept a) s') :
      Accepts attempt (n + 1) b s a s'
  | later {n : ℕ} {b b' : β} {s s₁ s' : S} {a : α}
      (h : (attempt b).run s = .ok (.again b') s₁) (ht : Accepts attempt n b' s₁ a s') :
      Accepts attempt (n + 1) b s a s'

/-- The loop returns an accepted value exactly when some attempt accepts it and all
earlier ones asked for another. -/
theorem run_retry_eq_ok_iff (attempt : β → EStateM φ S (Verdict β α)) (n : ℕ) (b : β)
    (s s' : S) (a : α) :
    (retry attempt n b).run s = .ok (.ok a) s' ↔ Accepts attempt n b s a s' := by
  induction n generalizing b s with
  | zero =>
    constructor
    · intro h; simp [retry] at h
    · intro h; cases h
  | succ n ih =>
    rw [retry, run_bind_eq_ok_iff]
    constructor
    · rintro ⟨v | v | v, s₁, hv, hrest⟩
      · obtain ⟨rfl, rfl⟩ : v = a ∧ s₁ = s' := by simpa using hrest
        exact .here hv
      · exact .later hv ((ih v s₁).mp hrest)
      · simp at hrest
    · intro h
      cases h with
      | here hv => exact ⟨_, _, hv, rfl⟩
      | later hv ht => exact ⟨_, _, hv, (ih _ _).mpr ht⟩

/-- When every attempt asks for another, in the same way, the loop ends with what they ask
with. -/
theorem run_retry_again {attempt : β → EStateM φ S (Verdict β α)} {I : S → Prop} {c : β}
    (h : ∀ b s, I s → ∃ s', (attempt b).run s = .ok (.again c) s' ∧ I s') (n : ℕ) (b : β) (s : S)
    (hs : I s) : ∃ s', (retry attempt (n + 1) b).run s = .ok (.error c) s' := by
  induction n generalizing b s with
  | zero =>
    obtain ⟨s', hrun, -⟩ := h b s hs
    exact ⟨s', by rw [retry, run_bind_of_run hrun]; rfl⟩
  | succ n ih =>
    obtain ⟨s₁, hrun, hs₁⟩ := h b s hs
    obtain ⟨s', hrest⟩ := ih c s₁ hs₁
    exact ⟨s', by rw [retry, run_bind_of_run hrun]; exact hrest⟩

end Atsha204.Library
