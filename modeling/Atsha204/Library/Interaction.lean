import Mathlib.Data.List.Basic
import Mathlib.Logic.Function.Basic
import Mathlib.Logic.Relation

/-!
# Programs that call on a shared resource

A program is a tree: it is done, or it makes a call on the resource and goes on with the
answer (`Interaction`). It can be run as a whole (`Interaction.run`) or one call after the
other (`Progress`); a run in progress ends as the whole run does (`Progress.run_eq`).

Several agents share one resource. An agent enters when nobody else is inside, makes the
calls of its program, and leaves with the result, or is cut off anywhere in between
(`SharedStep`). `Serial` is a history in which the tenures follow one another, each of them
run as a whole or cut off. Whatever the order of the single calls, the resource is where such
a history leads to, and every agent that left with a result has the one of its whole run
(`Serialized.reach`).
-/

set_option autoImplicit false

namespace Atsha204.Library

/-- A program with calls `C` that are answered in `R`. -/
inductive Interaction (C : Type) (R : C → Type) (α : Type) where
  | done (a : α)
  | call (c : C) (k : R c → Interaction C R α)

namespace Interaction

variable {C : Type} {R : C → Type} {S α β : Type}

/-- One program after another. -/
def bind (x : Interaction C R α) (f : α → Interaction C R β) : Interaction C R β :=
  match x with
  | .done a => f a
  | .call c k => .call c fun r => (k r).bind f

/-- A single call. -/
def single (c : C) : Interaction C R (R c) := .call c .done

/-- The whole run on a resource that answers. -/
def run (answer : (c : C) → S → R c × S) : Interaction C R α → S → α × S
  | .done a, s => (a, s)
  | .call c k, s => (k (answer c s).1).run answer (answer c s).2

/-- What is done returns its value. -/
@[simp] theorem run_done (answer : (c : C) → S → R c × S) (a : α) (s : S) :
    (done a : Interaction C R α).run answer s = (a, s) := rfl

/-- A call is answered, and the program goes on with the answer. -/
@[simp] theorem run_call (answer : (c : C) → S → R c × S) (c : C)
    (k : R c → Interaction C R α) (s : S) :
    (call c k).run answer s = (k (answer c s).1).run answer (answer c s).2 := rfl

/-- A single call ends with its answer. -/
@[simp] theorem run_single (answer : (c : C) → S → R c × S) (c : C) (s : S) :
    (single c).run answer s = answer c s := rfl

/-- A sequence runs its first part and goes on from where that leads. -/
@[simp] theorem run_bind (answer : (c : C) → S → R c × S) (x : Interaction C R α)
    (f : α → Interaction C R β) (s : S) :
    (x.bind f).run answer s = (f (x.run answer s).1).run answer (x.run answer s).2 := by
  induction x generalizing s with
  | done a => rfl
  | call c k ih => exact ih (answer c s).1 (answer c s).2

end Interaction

/-! ## Single calls -/

section Progress

variable {C : Type} {R : C → Type} {S α : Type} (answer : (c : C) → S → R c × S)

/-- Some calls of a program have been made: what is left of it, and where the resource is. -/
inductive Progress (t : Interaction C R α) (s : S) : Interaction C R α → S → Prop where
  | start : Progress t s t s
  | call {c : C} {k : R c → Interaction C R α} {s' : S} (h : Progress t s (.call c k) s') :
    Progress t s (k (answer c s').1) (answer c s').2

/-- A run in progress ends as the whole run does. -/
theorem Progress.run_eq {answer : (c : C) → S → R c × S} {t t' : Interaction C R α} {s s' : S}
    (h : Progress answer t s t' s') : t.run answer s = t'.run answer s' := by
  induction h with
  | start => rfl
  | call h ih => rw [ih, Interaction.run_call]

/-- A run in progress that is done has the result of the whole run. -/
theorem Progress.run_of_done {answer : (c : C) → S → R c × S} {t : Interaction C R α} {s s' : S}
    {a : α} (h : Progress answer t s (.done a) s') : t.run answer s = (a, s') := h.run_eq

end Progress

/-! ## Agents that share a resource -/

/-- Where an agent is: it has not entered, or there is this much of its program left, or its
tenure is over, with a result or without one. -/
inductive Stage (C : Type) (R : C → Type) (α : Type) where
  | outside
  | inside (left : Interaction C R α)
  | over (result : Option α)

/-- The resource and the agents. -/
structure Shared (ι C : Type) (R : C → Type) (α S : Type) where
  resource : S
  stage : ι → Stage C R α

section Shared

variable {ι C : Type} {R : C → Type} {S α : Type} [DecidableEq ι]
  (answer : (c : C) → S → R c × S) (program : ι → Interaction C R α)

/-- Nobody is inside. -/
def Shared.Free (m : Shared ι C R α S) : Prop := ∀ i t, m.stage i ≠ .inside t

/-- Another stage for one agent. -/
def Shared.put (m : Shared ι C R α S) (i : ι) (stage : Stage C R α) : Shared ι C R α S :=
  { m with stage := Function.update m.stage i stage }

/-- One step of one agent. -/
inductive SharedStep : Shared ι C R α S → Shared ι C R α S → Prop where
  | enter {m : Shared ι C R α S} {i : ι} (hi : m.stage i = .outside) (hfree : m.Free) :
    SharedStep m (m.put i (.inside (program i)))
  | call {m : Shared ι C R α S} {i : ι} {c : C} {k : R c → Interaction C R α}
    (hi : m.stage i = .inside (.call c k)) :
    SharedStep m { m.put i (.inside (k (answer c m.resource).1)) with
      resource := (answer c m.resource).2 }
  | leave {m : Shared ι C R α S} {i : ι} {a : α} (hi : m.stage i = .inside (.done a)) :
    SharedStep m (m.put i (.over (some a)))
  | cut {m : Shared ι C R α S} {i : ι} {t : Interaction C R α} (hi : m.stage i = .inside t) :
    SharedStep m (m.put i (.over none))

/-- Nobody has entered. -/
def Shared.initial (s : S) : Shared ι C R α S := ⟨s, fun _ => .outside⟩

/-- Tenures one after the other, each by another agent, and where they lead to: a program is
run as a whole, with its result, or is cut off after some of its calls. -/
inductive Serial (s₀ : S) : List (ι × Option α) → S → Prop where
  | nil : Serial s₀ [] s₀
  | whole {log : List (ι × Option α)} {s : S} (h : Serial s₀ log s) (i : ι)
    (hi : ∀ r, (i, r) ∉ log) :
    Serial s₀ (log ++ [(i, some ((program i).run answer s).1)]) ((program i).run answer s).2
  | cut {log : List (ι × Option α)} {s s' : S} (h : Serial s₀ log s) (i : ι)
    (hi : ∀ r, (i, r) ∉ log) {t : Interaction C R α} (ht : Progress answer (program i) s t s') :
    Serial s₀ (log ++ [(i, none)]) s'

/-- The resource is where the tenures in the log lead to and the agent inside, if there is
one, has got since; who left with a result is in the log with it. -/
structure Serialized (s₀ : S) (m : Shared ι C R α S) (log : List (ι × Option α)) : Prop where
  alone : ∀ i j t u, m.stage i = .inside t → m.stage j = .inside u → i = j
  logged : ∀ i r, (i, r) ∈ log → m.stage i = .over r
  results : ∀ i a, m.stage i = .over (some a) → (i, some a) ∈ log
  idle : m.Free → Serial answer program s₀ log m.resource
  busy : ∀ i t, m.stage i = .inside t → ∃ s, Serial answer program s₀ log s ∧
    Progress answer (program i) s t m.resource

/-! ### What one step does -/

/-- A party that is put at a stage is there. -/
@[simp] theorem Shared.put_same (m : Shared ι C R α S) (i : ι) (stage : Stage C R α) :
    (m.put i stage).stage i = stage := by
  unfold Shared.put
  exact Function.update_self i stage m.stage

/-- The other parties stay where they are. -/
theorem Shared.put_of_ne (m : Shared ι C R α S) {i j : ι} (h : j ≠ i) (stage : Stage C R α) :
    (m.put i stage).stage j = m.stage j := by
  unfold Shared.put
  exact Function.update_of_ne h stage m.stage

variable {answer program} {s₀ : S} {m m' : Shared ι C R α S} {log : List (ι × Option α)}

omit [DecidableEq ι] in
/-- An agent whose tenure is not over is in no tenure of the log. -/
theorem Serialized.ne_of_logged (h : Serialized answer program s₀ m log) {i j : ι}
    (hi : ∀ r, m.stage i ≠ .over r) {r : Option α} (hj : (j, r) ∈ log) : j ≠ i := by
  rintro rfl
  exact hi r (h.logged j r hj)

/-- The one agent inside goes on, or enters. -/
theorem Serialized.proceed (h : Serialized answer program s₀ m log) {i : ι}
    (hi : ∀ r, m.stage i ≠ .over r) (hothers : ∀ j t, j ≠ i → m.stage j ≠ .inside t) {s s' : S}
    (hserial : Serial answer program s₀ log s) {t : Interaction C R α}
    (hprogress : Progress answer (program i) s t s') :
    Serialized answer program s₀ { m.put i (.inside t) with resource := s' } log := by
  have hinside : ∀ j u, (m.put i (.inside t)).stage j = .inside u → j = i := by
    intro j u hj
    by_contra hji
    rw [Shared.put_of_ne m hji] at hj
    exact hothers j u hji hj
  refine ⟨?_, ?_, ?_, ?_, ?_⟩
  · intro j k u v hj hk
    rw [hinside j u hj, hinside k v hk]
  · intro j r hj
    exact (Shared.put_of_ne m (h.ne_of_logged hi hj) _).trans (h.logged j r hj)
  · intro j a hj
    change (m.put i (.inside t)).stage j = _ at hj
    have hji : j ≠ i := by
      rintro rfl
      rw [Shared.put_same] at hj
      cases hj
    rw [Shared.put_of_ne m hji] at hj
    exact h.results j a hj
  · intro hno
    exact absurd (Shared.put_same m i (.inside t)) (hno i t)
  · intro j u hj
    obtain rfl : j = i := hinside j u hj
    obtain rfl : t = u := by
      change (m.put j (.inside t)).stage j = _ at hj
      rw [Shared.put_same] at hj
      cases hj
      rfl
    exact ⟨s, hserial, hprogress⟩

/-- Behind the tenure of the one agent inside, nobody is inside. -/
theorem Serialized.free_put (h : Serialized answer program s₀ m log) {i : ι}
    {t : Interaction C R α} (hi : m.stage i = .inside t) (r : Option α) :
    (m.put i (.over r)).Free := by
  intro j u hj
  by_cases hji : j = i
  · subst hji
    rw [Shared.put_same] at hj
    cases hj
  · rw [Shared.put_of_ne m hji] at hj
    exact hji (h.alone j i u t hj hi)

/-- The tenure of the agent inside is over. -/
theorem Serialized.over (h : Serialized answer program s₀ m log) {i : ι} {t : Interaction C R α}
    (hi : m.stage i = .inside t) {r : Option α}
    (hserial : Serial answer program s₀ (log ++ [(i, r)]) m.resource) :
    Serialized answer program s₀ (m.put i (.over r)) (log ++ [(i, r)]) where
  alone j k u v hj _ := absurd hj (h.free_put hi r j u)
  logged j r' hj := by
    rcases List.mem_append.mp hj with hj | hj
    · rw [Shared.put_of_ne m (h.ne_of_logged (by rw [hi]; simp) hj)]
      exact h.logged j r' hj
    · obtain ⟨rfl, rfl⟩ := Prod.mk.inj (List.mem_singleton.mp hj)
      exact Shared.put_same m j (.over r')
  results j a hj := by
    by_cases hji : j = i
    · subst hji
      rw [Shared.put_same] at hj
      cases hj
      exact List.mem_append_right log (List.mem_singleton_self _)
    · rw [Shared.put_of_ne m hji] at hj
      exact List.mem_append_left _ (h.results j a hj)
  idle _ := hserial
  busy j u hj := absurd hj (h.free_put hi r j u)

omit [DecidableEq ι] in
/-- The log is one of tenures that follow one another. -/
theorem Serialized.serial (h : Serialized answer program s₀ m log) :
    ∃ s, Serial answer program s₀ log s := by
  by_cases hfree : m.Free
  · exact ⟨m.resource, h.idle hfree⟩
  · simp only [Shared.Free, not_forall, not_not] at hfree
    obtain ⟨i, t, hi⟩ := hfree
    obtain ⟨s, hserial, -⟩ := h.busy i t hi
    exact ⟨s, hserial⟩

/-- One step of one agent adds at most its tenure to the log. -/
theorem Serialized.step (h : Serialized answer program s₀ m log)
    (hstep : SharedStep answer program m m') :
    ∃ log', log <+: log' ∧ Serialized answer program s₀ m' log' := by
  cases hstep with
  | @enter i hi hfree =>
    refine ⟨log, List.prefix_refl log, ?_⟩
    exact h.proceed (by rw [hi]; simp) (fun j t _ => hfree j t) (h.idle hfree) .start
  | @call i c k hi =>
    obtain ⟨s, hserial, hprogress⟩ := h.busy i _ hi
    have hothers : ∀ j t, j ≠ i → m.stage j ≠ .inside t := by
      intro j t hji hj
      exact hji (h.alone j i t _ hj hi)
    refine ⟨log, List.prefix_refl log, ?_⟩
    exact h.proceed (by rw [hi]; simp) hothers hserial hprogress.call
  | @leave i a hi =>
    obtain ⟨s, hserial, hprogress⟩ := h.busy i _ hi
    have hwhole := hserial.whole i fun r hr => h.ne_of_logged (by rw [hi]; simp) hr rfl
    rw [hprogress.run_of_done] at hwhole
    exact ⟨_, List.prefix_append log _, h.over hi hwhole⟩
  | @cut i t hi =>
    obtain ⟨s, hserial, hprogress⟩ := h.busy i _ hi
    have hcut := hserial.cut i (fun r hr => h.ne_of_logged (by rw [hi]; simp) hr rfl) hprogress
    exact ⟨_, List.prefix_append log _, h.over hi hcut⟩

/-! ### Whole runs -/

omit [DecidableEq ι] in
/-- Before anybody has begun, the log is empty. -/
theorem Serialized.initial (s₀ : S) :
    Serialized answer program s₀ (Shared.initial s₀ : Shared ι C R α S) [] := by
  refine ⟨?_, ?_, ?_, ?_, ?_⟩
  · intro i j t u hi
    cases hi
  · intro i r hr
    cases hr
  · intro i a hi
    cases hi
  · exact fun _ => .nil
  · intro i t hi
    cases hi

/-- In every state that steps lead to, tenures behind those of the log account for the resource
and for the results. -/
theorem Serialized.reach (h : Serialized answer program s₀ m log)
    (hrun : Relation.ReflTransGen (SharedStep answer program) m m') :
    ∃ log', log <+: log' ∧ Serialized answer program s₀ m' log' := by
  induction hrun with
  | refl => exact ⟨log, List.prefix_refl log, h⟩
  | tail _ hstep ih =>
    obtain ⟨log', hlog, h'⟩ := ih
    obtain ⟨log'', hlog', h''⟩ := h'.step hstep
    exact ⟨log'', hlog.trans hlog', h''⟩

omit [DecidableEq ι] in
/-- The tenures before one of the log lead to where its program was run as a whole. -/
theorem Serial.result_of_mem {s : S} (h : Serial answer program s₀ log s) {i : ι} {a : α}
    (hi : (i, some a) ∈ log) : ∃ before after s', log = before ++ (i, some a) :: after ∧
      Serial answer program s₀ before s' ∧ ((program i).run answer s').1 = a := by
  have hlift : ∀ {log : List (ι × Option α)} (last : ι × Option α),
      (∃ before after s', log = before ++ (i, some a) :: after ∧
        Serial answer program s₀ before s' ∧ ((program i).run answer s').1 = a) →
      ∃ before after s', log ++ [last] = before ++ (i, some a) :: after ∧
        Serial answer program s₀ before s' ∧ ((program i).run answer s').1 = a := by
    rintro log last ⟨before, after, s', rfl, hbefore, hresult⟩
    exact ⟨before, after ++ [last], s', by simp, hbefore, hresult⟩
  induction h with
  | nil => cases hi
  | @whole log s h j hj ih =>
    rcases List.mem_append.mp hi with hi | hi
    · exact hlift _ (ih hi)
    · obtain ⟨rfl, ha⟩ := Prod.mk.inj (List.mem_singleton.mp hi)
      obtain rfl := Option.some.inj ha
      exact ⟨log, [], s, rfl, h, rfl⟩
  | @cut log s s' h j hj t ht ih =>
    rcases List.mem_append.mp hi with hi | hi
    · exact hlift _ (ih hi)
    · exact absurd (List.mem_singleton.mp hi) (by simp)

end Shared

end Atsha204.Library
