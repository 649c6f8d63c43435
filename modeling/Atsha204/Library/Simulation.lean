import Atsha204.Library.Retry

/-!
# Simulation of programs

`Simulates R V x y`: run from states related by `R`, the program `x` and the program `y`
both return, with values related by `V`, or both stop with a fault, and their last states
are related again. A simulation passes through sequencing and through retry loops, and
lets a question about the runs of `x` be answered on `y` (`Simulates.returns_iff`).

`SimulatesInto R R' V x y` lets the relation change: the programs return in states related
by `R'`. A simulation of a program by itself keeps what both its states have
(`Simulates.keeps`).
-/

set_option autoImplicit false

namespace Atsha204.Library

variable {φ S T α β γ δ : Type}

/-- From related states both programs end the same way, in related states. -/
def Simulates (R : S → T → Prop) (V : α → β → Prop) (x : EStateM φ S α)
    (y : EStateM φ T β) : Prop :=
  ∀ s t, R s t → match y.run t with
    | .ok b t' => wp x (fun a s' => V a b ∧ R s' t') (fun _ => False) s
    | .error _ t' => wp x (fun _ _ => False) (fun s' => R s' t') s

/-- From states related by `R` both programs end the same way, in states related by `R'` where
they return. -/
def SimulatesInto (R R' : S → T → Prop) (V : α → β → Prop) (x : EStateM φ S α)
    (y : EStateM φ T β) : Prop :=
  ∀ s t, R s t → match y.run t with
    | .ok b t' => wp x (fun a s' => V a b ∧ R' s' t') (fun _ => False) s
    | .error _ t' => wp x (fun _ _ => False) (fun s' => R s' t') s

variable {R R' : S → T → Prop} {V V' : α → β → Prop} {W : γ → δ → Prop}

/-- Related values are returned from related states. -/
theorem Simulates.pure {a : α} {b : β} (h : V a b) :
    Simulates R V (pure a : EStateM φ S α) (pure b : EStateM φ T β) :=
  fun _ _ hR => ⟨h, hR⟩

/-- A simulation that changes the relation, and one of what follows, is one of the sequences. -/
theorem SimulatesInto.bind {x : EStateM φ S α} {y : EStateM φ T β} {f : α → EStateM φ S γ}
    {g : β → EStateM φ T δ} (hxy : SimulatesInto R R' V x y) (hR : ∀ s t, R' s t → R s t)
    (hfg : ∀ a b, V a b → Simulates R' W (f a) (g b)) : Simulates R W (x >>= f) (y >>= g) := by
  intro s t hrel
  have h := hxy s t hrel
  rw [EStateM.run_bind]
  cases hy : y.run t with
  | error e t' =>
    rw [hy] at h
    exact (wp_bind x f _ _ s).mpr (wp_mono h (fun _ _ hF => hF.elim) fun _ hE => hE)
  | ok b t' =>
    rw [hy] at h
    dsimp only at h ⊢
    have hnext := fun (a : α) (s' : S) (ha : V a b ∧ R' s' t') => hfg a b ha.1 s' t' ha.2
    cases hg : (g b).run t' with
    | ok d t'' =>
      simp only [hg] at hnext
      refine (wp_bind x f _ _ s).mpr (wp_mono h ?_ fun _ hF => hF.elim)
      intro a s' ha
      exact wp_mono (hnext a s' ha) (fun _ _ hQ => ⟨hQ.1, hR _ _ hQ.2⟩) fun _ hF => hF
    | error e t'' =>
      simp only [hg] at hnext
      refine (wp_bind x f _ _ s).mpr (wp_mono h ?_ fun _ hF => hF.elim)
      intro a s' ha
      exact wp_mono (hnext a s' ha) (fun _ _ hF => hF) fun _ hE => hR _ _ hE

/-- A simulation of the first parts and of what follows them is one of the sequences. -/
theorem Simulates.bind {x : EStateM φ S α} {y : EStateM φ T β} {f : α → EStateM φ S γ}
    {g : β → EStateM φ T δ} (hxy : Simulates R V x y)
    (hfg : ∀ a b, V a b → Simulates R W (f a) (g b)) :
    Simulates R W (x >>= f) (y >>= g) :=
  SimulatesInto.bind hxy (fun _ _ h => h) hfg

/-- First parts that give the same on both sides. -/
theorem Simulates.bind_same {x : EStateM φ S α} {y : EStateM φ T α} {f : α → EStateM φ S γ}
    {g : α → EStateM φ T δ} (hxy : Simulates R Eq x y) (hfg : ∀ a, Simulates R W (f a) (g a)) :
    Simulates R W (x >>= f) (y >>= g) := by
  apply hxy.bind
  rintro a _ rfl
  exact hfg a

/-- The relation of the results may be weakened. -/
theorem Simulates.mono {x : EStateM φ S α} {y : EStateM φ T β} (h : Simulates R V x y)
    (hV : ∀ a b, V a b → V' a b) : Simulates R V' x y := by
  intro s t hR
  have hrun := h s t hR
  cases hy : y.run t with
  | error e t' =>
    rw [hy] at hrun
    exact hrun
  | ok b t' =>
    rw [hy] at hrun
    exact wp_mono hrun (fun a _ hQ => ⟨hV a b hQ.1, hQ.2⟩) fun _ hF => hF

/-- Two programs that return. -/
theorem SimulatesInto.of_run {x : EStateM φ S α} {y : EStateM φ T β}
    (h : ∀ s t, R s t → ∃ a s' b t', x.run s = .ok a s' ∧ y.run t = .ok b t' ∧ V a b ∧ R' s' t') :
    SimulatesInto R R' V x y := by
  intro s t hR
  obtain ⟨a, s', b, t', hx, hy, hV, hR'⟩ := h s t hR
  rw [hy]
  exact (wp_of_run hx _ _).mpr ⟨hV, hR'⟩

/-- Two programs that return from related states, with related results, simulate each other. -/
theorem Simulates.of_run {x : EStateM φ S α} {y : EStateM φ T β}
    (h : ∀ s t, R s t → ∃ a s' b t', x.run s = .ok a s' ∧ y.run t = .ok b t' ∧ V a b ∧ R s' t') :
    Simulates R V x y := SimulatesInto.of_run h

/-- Programs may be replaced by others with the same runs from related states. -/
theorem Simulates.congr {x x' : EStateM φ S α} {y y' : EStateM φ T β}
    (h : Simulates R V x' y') (hrun : ∀ s t, R s t → x.run s = x'.run s ∧ y.run t = y'.run t) :
    Simulates R V x y := by
  intro s t hR
  obtain ⟨hx, hy⟩ := hrun s t hR
  have hxy := h s t hR
  unfold wp at hxy ⊢
  rwa [hx, hy]

/-- The same partial access, on both sides. -/
theorem Simulates.orFault (e : φ) (o : Option γ) :
    Simulates R Eq (Library.orFault e o : EStateM φ S γ)
      (Library.orFault e o : EStateM φ T γ) := by
  intro s t hR
  cases o with
  | none => exact hR
  | some a => exact ⟨rfl, hR⟩

/-- What is known of the values on each side may be added. -/
theorem Simulates.and_of_wp {x : EStateM φ S α} {y : EStateM φ T β} {P : α → Prop} {P' : β → Prop}
    (h : Simulates R V x y) (hx : ∀ s t, R s t → wp x (fun a _ => P a) (fun _ => True) s)
    (hy : ∀ s t, R s t → wp y (fun b _ => P' b) (fun _ => True) t) :
    Simulates R (fun a b => V a b ∧ P a ∧ P' b) x y := by
  intro s t hR
  have hrun := h s t hR
  cases hyrun : y.run t with
  | error e t' =>
    rw [hyrun] at hrun
    exact hrun
  | ok b t' =>
    rw [hyrun] at hrun
    have hb : P' b := (hy s t hR).of_run hyrun
    refine wp_mono (wp_and hrun (hx s t hR)) ?_ fun _ hF => hF.1
    rintro a s' ⟨⟨hV, hR'⟩, ha⟩
    exact ⟨⟨hV, ha, hb⟩, hR'⟩

/-- A program that simulates itself keeps what is kept on each side. -/
theorem Simulates.keeps {I : S → Prop} {V : α → α → Prop} {x : EStateM φ S α}
    (h : Simulates (fun s t => I s ∧ I t) V x x) {s : S} (hs : I s) :
    wp x (fun _ s' => I s') I s := by
  have hrun := h s s ⟨hs, hs⟩
  cases hx : x.run s with
  | error e s' =>
    rw [hx] at hrun
    exact wp_mono hrun (fun _ _ hF => hF.elim) fun _ hE => hE.1
  | ok a s' =>
    rw [hx] at hrun
    exact wp_mono hrun (fun _ _ hQ => hQ.2.1) fun _ hF => hF.elim

/-- Two attempts decide alike. -/
inductive VerdictRel (B : β → δ → Prop) (A : α → γ → Prop) :
    Verdict β α → Verdict δ γ → Prop where
  | accept {a : α} {c : γ} (h : A a c) : VerdictRel B A (.accept a) (.accept c)
  | again {b : β} {d : δ} (h : B b d) : VerdictRel B A (.again b) (.again d)
  | abort {b : β} {d : δ} (h : B b d) : VerdictRel B A (.abort b) (.abort d)

/-- Two loops end alike. -/
inductive ExceptRel (B : β → δ → Prop) (A : α → γ → Prop) :
    Except β α → Except δ γ → Prop where
  | ok {a : α} {c : γ} (h : A a c) : ExceptRel B A (.ok a) (.ok c)
  | error {b : β} {d : δ} (h : B b d) : ExceptRel B A (.error b) (.error d)

/-- Loops simulate each other when their attempts do. -/
theorem Simulates.retry {B : β → δ → Prop} {A : α → γ → Prop}
    {f : β → EStateM φ S (Verdict β α)} {g : δ → EStateM φ T (Verdict δ γ)}
    (h : ∀ b d, B b d → Simulates R (VerdictRel B A) (f b) (g d)) (n : ℕ) :
    ∀ b d, B b d → Simulates R (ExceptRel B A) (Library.retry f n b) (Library.retry g n d) := by
  induction n with
  | zero => exact fun b d hB => .pure (.error hB)
  | succ n ih =>
    intro b d hB
    refine (h b d hB).bind ?_
    rintro _ _ (hA | hB' | hB')
    · exact .pure (.ok hA)
    · exact ih _ _ hB'
    · exact .pure (.error hB')

/-- What `x` returns can be read off from what `y` does. -/
theorem Simulates.returns_iff {x : EStateM φ S α} {y : EStateM φ T β}
    (h : Simulates R V x y) {s : S} {t : T} (hR : R s t) {P : α → S → Prop}
    {Q : β → T → Prop}
    (hP : ∀ a s' b t', y.run t = .ok b t' → V a b → R s' t' → (P a s' ↔ Q b t')) :
    (∃ a s', x.run s = .ok a s' ∧ P a s') ↔ ∃ b t', y.run t = .ok b t' ∧ Q b t' := by
  have hrun := h s t hR
  unfold wp at hrun
  cases hy : y.run t with
  | ok b t' =>
    rw [hy] at hrun
    cases hx : x.run s with
    | error e s' => rw [hx] at hrun; exact hrun.elim
    | ok a s' =>
      rw [hx] at hrun
      obtain ⟨hV, hR'⟩ := hrun
      constructor
      · rintro ⟨_, _, ⟨⟩, hp⟩; exact ⟨b, t', rfl, (hP _ _ _ _ hy hV hR').mp hp⟩
      · rintro ⟨_, _, ⟨⟩, hp⟩; exact ⟨a, s', rfl, (hP _ _ _ _ hy hV hR').mpr hp⟩
  | error e t' =>
    rw [hy] at hrun
    cases hx : x.run s with
    | ok a s' => rw [hx] at hrun; exact hrun.elim
    | error e s' => constructor <;> rintro ⟨_, _, ⟨⟩, _⟩

end Atsha204.Library
