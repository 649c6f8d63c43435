import Atsha204.Model.State

/-!
# Trails

The trace is only ever extended. `Trail P s s'` says with what: from `s` to `s'` it goes on
with events of the kind `P`. Programs that leave such events keep that the trail from an
earlier state is of this kind.
-/

set_option autoImplicit false

namespace Atsha204.Analysis

open Atsha204.Library
open Atsha204.Model

variable {σ α : Type}

/-- The trace goes on with events of this kind. -/
def Trail (P : Event σ → Prop) (s s' : St σ) : Prop :=
  ∃ events, s'.trace = s.trace ++ events ∧ ∀ e ∈ events, P e

section Trails

variable {P P' : Event σ → Prop} {s s₁ s' : St σ}

/-- Nothing is of every kind. -/
theorem Trail.refl (s : St σ) : Trail P s s := ⟨[], by simp, by simp⟩

/-- Two trails of the same kind make one. -/
theorem Trail.trans (h : Trail P s s₁) (h' : Trail P s₁ s') : Trail P s s' := by
  obtain ⟨events, htrace, hof⟩ := h
  obtain ⟨events', htrace', hof'⟩ := h'
  refine ⟨events ++ events', by rw [htrace', htrace, List.append_assoc], fun e he => ?_⟩
  rcases List.mem_append.mp he with he | he
  · exact hof e he
  · exact hof' e he

/-- The kind may be widened. -/
theorem Trail.mono (h : Trail P s s') (hP : ∀ e, P e → P' e) : Trail P' s s' := by
  obtain ⟨events, htrace, hof⟩ := h
  exact ⟨events, htrace, fun e he => hP e (hof e he)⟩

/-- One event of the kind makes a trail. -/
theorem Trail.exchanged (s : St σ) (bus : σ) {e : Event σ} (h : P e) :
    Trail P s (s.exchanged bus e) :=
  ⟨[e], rfl, fun _ he => List.mem_singleton.mp he ▸ h⟩

/-- Every event behind the beginning is of the kind. -/
theorem Trail.mem_drop (h : Trail P s s') {e : Event σ} (he : e ∈ s'.trace.drop s.trace.length) :
    P e := by
  obtain ⟨events, htrace, hof⟩ := h
  rw [htrace, List.drop_left' rfl] at he
  exact hof e he

end Trails

/-- Nothing has gone on but the log. -/
def Logged (s s' : St σ) : Prop := ∃ messages : List String, s' = s.after s.bus [] messages

/-- Where nothing has happened nothing has been logged. -/
theorem Logged.refl (s : St σ) : Logged s s := ⟨[], by simp [St.after]⟩

/-- A line may be logged. -/
theorem Logged.message (s : St σ) (text : String) :
    Logged s (s.exchanged s.bus (.message text)) := ⟨[text], by simp [St.after, St.exchanged]⟩

/-- The log leaves the handle alone. -/
theorem Logged.handle {s s' : St σ} (h : Logged s s') : s'.handle = s.handle := by
  obtain ⟨messages, rfl⟩ := h
  rfl

end Atsha204.Analysis
