import Atsha204.Analysis.BusCalls
import Atsha204.Analysis.LockFile

/-!
# Operations behind the lock file do not see each other

The steps of the openers are steps of agents that share the device (`SharedStep`): an opener
enters with `flock` and leaves with `LOCK_UN`, or is cut off when a call fails or its process
dies; every other step is none of the agents' (`Matches.step`). So the tenures follow one
another, in the order of the runs, and an opener that makes public calls of the library gets
what it would get alone (`operations_serialized`).
-/

set_option autoImplicit false

namespace Atsha204.Analysis

open Atsha204.Library
open Atsha204.Model
open Atsha204.Interface

variable {ι π α σ : Type} {u u' : Users ι π α σ} {i j : ι} {process : ι → π}
  {bus : I2cBus σ} {program : ι → BusProgram α}

/-! ## Openers as agents -/

/-- Where an agent is that does the same as an opener at a place, if its program is `t`. -/
def StageOf (t : BusProgram α) : Place α →
    Stage BusCall BusAnswer (Except Fault α × AtshaHandle) → Prop
  | .start, stage | .locking _, stage => stage = .outside
  | .locked, stage | .opened, stage | .bound, stage | .allocated, stage | .alarmed .., stage =>
    stage = .inside t
  | .running _ left, stage => stage = .inside left
  | .fdClosed _ result, stage => ∃ handle, stage = .inside (.done (.ok result, handle))
  | .unlocked _ result, stage | .sigRestored _ result, stage | .alarmRestored result, stage
  | .closed result, stage => ∃ handle, stage = .over (some (.ok result, handle))
  | .failing why, stage => stage = if why = .lockBusy then .outside else .inside t
  | .refused _, stage | .killed, stage => ∀ left, stage ≠ .inside left

/-- An opener is inside exactly when it holds the lock. -/
theorem StageOf.inside_iff {t : BusProgram α} {place : Place α}
    {stage : Stage BusCall BusAnswer (Except Fault α × AtshaHandle)} (h : StageOf t place stage) :
    (∃ left, stage = .inside left) ↔ holdsLock place = true := by
  cases place with
  | start | locking =>
    rw [h]
    simp [holdsLock]
  | locked | opened | bound | allocated | alarmed | running =>
    rw [h]
    simp [holdsLock]
  | fdClosed =>
    obtain ⟨handle, rfl⟩ := h
    simp [holdsLock]
  | unlocked | sigRestored | alarmRestored | closed =>
    obtain ⟨handle, rfl⟩ := h
    simp [holdsLock]
  | failing why =>
    rw [h]
    cases why <;> simp [holdsLock]
  | refused | killed =>
    constructor
    · rintro ⟨left, hstage⟩
      exact absurd hstage (h left)
    · intro hholds
      cases hholds

/-- The agents are where the openers are, and the resource is the bus. -/
def Matches (program : ι → BusProgram α) (u : Users ι π α σ)
    (m : Shared ι BusCall BusAnswer (Except Fault α × AtshaHandle) σ) : Prop :=
  m.resource = u.bus ∧ ∀ i, StageOf (program i) (u.place i) (m.stage i)

variable {m : Shared ι BusCall BusAnswer (Except Fault α × AtshaHandle) σ}

/-- Nobody is inside while nobody has the lock. -/
theorem Matches.free_iff (h : Matches program u m) :
    m.Free ↔ ∀ i, holdsLock (u.place i) = false := by
  refine ⟨fun hfree i => ?_, fun hno i left hi => ?_⟩
  · by_contra hholds
    obtain ⟨left, hi⟩ := (h.2 i).inside_iff.mpr (by simpa using hholds)
    exact hfree i left hi
  · have hholds := (h.2 i).inside_iff.mp ⟨left, hi⟩
    rw [hno i] at hholds
    cases hholds

/-- The opener goes on where the agent stays. -/
theorem Matches.stay (h : Matches program u m) (hplace : ∀ j, j ≠ i → u'.place j = u.place j)
    (hbus : u'.bus = u.bus) (hi : StageOf (program i) (u'.place i) (m.stage i)) :
    Matches program u' m := by
  refine ⟨h.1.trans hbus.symm, fun j => ?_⟩
  by_cases hji : j = i
  · exact hji ▸ hi
  · rw [hplace j hji]
    exact h.2 j

variable [DecidableEq ι]

/-- The opener goes on and the agent too. -/
theorem Matches.put (h : Matches program u m) (hplace : ∀ j, j ≠ i → u'.place j = u.place j)
    {stage : Stage BusCall BusAnswer (Except Fault α × AtshaHandle)}
    (hi : StageOf (program i) (u'.place i) stage) {b : σ} (hbus : b = u'.bus) :
    Matches program u' { m.put i stage with resource := b } := by
  refine ⟨hbus, fun j => ?_⟩
  change StageOf (program j) (u'.place j) ((m.put i stage).stage j)
  by_cases hji : j = i
  · subst hji
    rw [Shared.put_same]
    exact hi
  · rw [hplace j hji, Shared.put_of_ne m hji]
    exact h.2 j

variable [DecidableEq π]

/-! ## Steps -/

/-- A step of an open is matched by the abstract system, which begins a tenure or does nothing. -/
theorem Matches.openStep (h : Matches program u m) (hturns : Turns u)
    (hstep : OpenStep process program u i u') :
    ∃ m', Relation.ReflTransGen (SharedStep (busAnswer bus) program) m m' ∧
      Matches program u' m' := by
  have hplace : ∀ j, j ≠ i → u'.place j = u.place j :=
    fun j hj => (openStep_moves hstep).place_of_ne hj
  have hi := h.2 i
  cases hstep with
  | @lock start hplace₀ hfree =>
    rw [hplace₀] at hi
    have hno : ∀ j, holdsLock (u.place j) = false := by
      intro j
      by_contra hholds
      have hj := (hturns j).mp (by simpa using hholds)
      rw [hfree] at hj
      cases hj
    refine ⟨_, .single (.enter hi (h.free_iff.mpr hno)), ?_⟩
    exact h.put hplace (by rw [place_goto_self]; rfl) h.1
  | @refuse why hplace₀ =>
    rw [hplace₀] at hi
    rw [closeLockFd_eq] at hplace ⊢
    by_cases hwhy : why = .lockBusy
    · subst hwhy
      refine ⟨m, .refl, h.stay hplace rfl ?_⟩
      rw [place_goto_self, hi]
      exact fun left => nofun
    · refine ⟨_, .single (.cut (hi.trans (if_neg hwhy))), ?_⟩
      exact h.put hplace (by rw [place_goto_self]; exact fun left => nofun) h.1
  | noLockFile hplace₀ =>
    rw [hplace₀] at hi
    refine ⟨m, .refl, h.stay hplace rfl ?_⟩
    rw [place_goto_self, hi]
    exact fun left => nofun
  | _ hplace₀ =>
    rw [hplace₀] at hi
    exact ⟨m, .refl, h.stay hplace rfl (by rw [place_goto_self]; exact hi)⟩

/-- A step of a close is, by the end of a tenure or by nothing. -/
theorem Matches.closeStep (h : Matches program u m) (hstep : CloseStep process u i u') :
    ∃ m', Relation.ReflTransGen (SharedStep (busAnswer bus) program) m m' ∧
      Matches program u' m' := by
  have hplace : ∀ j, j ≠ i → u'.place j = u.place j :=
    fun j hj => (closeStep_moves hstep).place_of_ne hj
  have hi := h.2 i
  cases hstep with
  | device hplace₀ =>
    rw [hplace₀] at hi
    exact ⟨m, .refl, h.stay hplace rfl (by rw [place_goto_self]; exact ⟨_, hi⟩)⟩
  | unlock hplace₀ =>
    rw [hplace₀] at hi
    rw [release_eq] at hplace ⊢
    obtain ⟨handle, hi⟩ := hi
    refine ⟨_, .single (.leave hi), ?_⟩
    exact h.put hplace (by rw [place_goto_self]; exact ⟨handle, rfl⟩) h.1
  | lockFile hplace₀ =>
    rw [hplace₀] at hi
    rw [closeLockFd_eq] at hplace ⊢
    exact ⟨m, .refl, h.stay hplace rfl (by rw [place_goto_self]; exact hi)⟩
  | _ hplace₀ =>
    rw [hplace₀] at hi
    exact ⟨m, .refl, h.stay hplace rfl (by rw [place_goto_self]; exact hi)⟩

/-- Of the openers of a process that dies at most one is cut off, the one that has the lock. -/
theorem Matches.die (h : Matches program u m) (hturns : Turns u) (p : π) :
    ∃ m', Relation.ReflTransGen (SharedStep (busAnswer bus) program) m m' ∧
      Matches program (u.die process p) m' := by
  have hgone : ∀ {j}, process j = p → (u.die process p).place j = (u.place j).behindDeath :=
    fun hj => if_pos hj
  have hstays : ∀ {j}, process j ≠ p → (u.die process p).place j = u.place j :=
    fun hj => if_neg hj
  have hdead : ∀ j, holdsLock (u.place j) = false →
      StageOf (program j) ((u.place j).behindDeath) (m.stage j) := by
    intro j hno
    have hj := h.2 j
    cases hplace : u.place j with
    | closed result => rwa [hplace] at hj
    | _ =>
      intro left hleft
      rw [hj.inside_iff.mp ⟨left, hleft⟩] at hno
      cases hno
  by_cases hholder : ∃ i, process i = p ∧ holdsLock (u.place i) = true
  · obtain ⟨i, hi, hholds⟩ := hholder
    obtain ⟨left, hleft⟩ := (h.2 i).inside_iff.mpr hholds
    have hother : ∀ j, j ≠ i → holdsLock (u.place j) = false := by
      intro j hji
      by_contra hj
      exact hji (Option.some.inj (((hturns j).mp (by simpa using hj)).symm.trans
        ((hturns i).mp hholds)))
    refine ⟨_, .single (.cut hleft), h.1, fun j => ?_⟩
    by_cases hji : j = i
    · subst hji
      rw [Shared.put_same, hgone hi]
      cases hplace : u.place j with
      | closed result =>
        rw [hplace] at hholds
        cases hholds
      | _ => exact fun left => nofun
    · rw [Shared.put_of_ne m hji]
      by_cases hj : process j = p
      · rw [hgone hj]
        exact hdead j (hother j hji)
      · rw [hstays hj]
        exact h.2 j
  · refine ⟨m, .refl, h.1, fun j => ?_⟩
    by_cases hj : process j = p
    · rw [hgone hj]
      refine hdead j ?_
      by_contra hholds
      exact hholder ⟨j, hj, by simpa using hholds⟩
    · rw [hstays hj]
      exact h.2 j

/-- So is every step of the openers. -/
theorem Matches.step (h : Matches program u m) (hturns : Turns u)
    (hstep : UsersStep process bus program u u') :
    ∃ m', Relation.ReflTransGen (SharedStep (busAnswer bus) program) m m' ∧
      Matches program u' m' := by
  cases hstep with
  | opening hopen => exact h.openStep hturns hopen
  | @calling i saved c k hplace =>
    have hi := h.2 i
    rw [hplace] at hi
    refine ⟨_, .single (.call hi), ?_⟩
    rw [h.1]
    refine h.put (fun j hj => Function.update_of_ne hj _ _) ?_ rfl
    rw [place_goto_self]
    rfl
  | closing hclose => exact h.closeStep hclose
  | tick => exact ⟨m, .refl, h⟩
  | handled => exact ⟨m, .refl, h⟩
  | die p => exact h.die hturns p

/-! ## Runs -/

/-- Runs of the openers are runs of the agents. -/
theorem Matches.reach (h : Matches program u m) (hturns : Turns u)
    (hrun : Reaches process bus program u u') :
    ∃ m', Relation.ReflTransGen (SharedStep (busAnswer bus) program) m m' ∧
      Matches program u' m' ∧ Turns u' := by
  induction hrun with
  | refl => exact ⟨m, .refl, h, hturns⟩
  | tail _ hstep ih =>
    obtain ⟨m', hrun', h', hturns'⟩ := ih
    obtain ⟨m'', hstep', h''⟩ := h'.step hturns' hstep
    exact ⟨m'', hrun'.trans hstep', h'', hturns'.step hstep⟩

variable {alarm₀ : π → Option ℕ} {action₀ : π → SigAction} {b₀ : σ} {tenures : Tenures ι α}

omit [DecidableEq ι] [DecidableEq π] in
/-- What is matched is serialized. -/
theorem Matches.serializes (h : Matches program u m)
    (hlog : Serialized (busAnswer bus) program b₀ m tenures) :
    Serializes bus program b₀ u tenures := by
  refine ⟨fun hno => ?_, fun i saved left hplace => ?_, fun i result hplace => ?_⟩
  · rw [← h.1]
    exact hlog.idle (h.free_iff.mpr hno)
  · have hi := h.2 i
    rw [hplace] at hi
    rw [← h.1]
    exact hlog.busy i left hi
  · have hi := h.2 i
    rw [hplace] at hi
    obtain ⟨handle, hi⟩ := hi
    obtain ⟨s, hserial⟩ := hlog.serial
    obtain ⟨before, after, b, hsplit, hbefore, hresult⟩ :=
      hserial.result_of_mem (hlog.results i _ hi)
    exact ⟨before, after, b, handle, hsplit, hbefore, hresult⟩

/-- There is a program on the bus for any list of public calls. -/
theorem performs_callAll (openssl : OpenSsl) (uninit : Uninit) (charSigned : Bool)
    (calls : List PublicCall) : ∃ t, Performs openssl uninit charSigned t calls := by
  obtain ⟨tree, htree⟩ := callAll_interactive openssl uninit charSigned calls
  exact ⟨tree openNi2cDev, fun σ bus b => (htree σ bus ⟨openNi2cDev, b, []⟩).symm⟩

/-- Whatever openers of the device do, in whatever order, with whatever failures and deaths:
tenures one after the other account for what they see, and those of a longer run are behind
those of a shorter one. An opener that makes public calls of the library, and has closed its
handle, got the results that the same calls give alone on a device that nobody else uses, from
where the tenures before its own have left it. -/
theorem operations_serialized {openssl : OpenSsl} {uninit : Uninit} {charSigned : Bool}
    {program : ι → BusProgram (List (AtshaErr × Output))} (calls : ι → List PublicCall)
    {u u' : Users ι π (List (AtshaErr × Output)) σ}
    (hprogram : ∀ i, Performs openssl uninit charSigned (program i) (calls i))
    (h : Reaches process bus program (.initial alarm₀ action₀ b₀) u)
    (h' : Reaches process bus program u u') :
    ∃ tenures tenures' : Tenures ι (List (AtshaErr × Output)), tenures <+: tenures' ∧
      Serializes bus program b₀ u tenures ∧ Serializes bus program b₀ u' tenures' ∧
      ∀ i results, u'.place i = .closed results →
        ∃ before after b handle, tenures' = before ++ (i, some (.ok results, handle)) :: after ∧
          Serial (busAnswer bus) program b₀ before b ∧
          (aloneOn openssl uninit charSigned bus (calls i) b).1 = (.ok results, handle) := by
  have hinitial : Matches program (.initial alarm₀ action₀ b₀ : Users ι π _ σ)
      (Shared.initial b₀) := ⟨rfl, fun _ => rfl⟩
  obtain ⟨m, hrun, hm, hturns⟩ := hinitial.reach (turns_initial _ _ _) h
  obtain ⟨m', hrun', hm', -⟩ := hm.reach hturns h'
  obtain ⟨tenures, -, hlog⟩ := (Serialized.initial b₀).reach hrun
  obtain ⟨tenures', hmore, hlog'⟩ := hlog.reach hrun'
  have hserializes := hm'.serializes hlog'
  refine ⟨tenures, tenures', hmore, hm.serializes hlog, hserializes, fun i results hplace => ?_⟩
  obtain ⟨before, after, b, handle, hsplit, hbefore, hresult⟩ := hserializes.results i _ hplace
  rw [hprogram i σ bus b] at hresult
  exact ⟨before, after, b, handle, hsplit, hbefore, hresult⟩

/-- A device node that cannot be opened, and counts the attempts. -/
def missingNode : I2cBus ℕ where
  openPath attempts := (false, attempts + 1)
  bindGeneralCall attempts := (true, attempts)
  writeWake attempts := attempts
  write _ attempts := (true, attempts)
  read attempts := (none, attempts)

/-- Two openers on the missing node: the second has opened the lock file and waits while the first
makes its calls, and gets the lock behind it. -/
theorem operations_serialized_missing_node :
    ∃ (program : Bool → BusProgram (List (AtshaErr × Output)))
      (u u' : Users Bool Bool (List (AtshaErr × Output)) ℕ) (saved : Saved) (start : ℕ)
      (tenures tenures' : Tenures Bool _),
      u.place true = .running saved (program true) ∧ u.place false = .locking start ∧
      (∀ i, u'.place i = .closed [(.communication, .revision 0)]) ∧ u'.bus = 14 ∧
      tenures <+: tenures' ∧ Serializes missingNode program 0 u tenures ∧
      Serializes missingNode program 0 u' tenures' := by
  obtain ⟨t, ht⟩ := performs_callAll ⟨fun _ _ => none, fun _ => none⟩ ⟨fun _ _ => 0, fun _ => 0⟩
    true [.devRev 0]
  have hfirst := (ht ℕ missingNode 0).trans rfl
  have hsecond := (ht ℕ missingNode 7).trans rfl
  obtain ⟨u₁, saved, hrun₁, hplace₁, hbus₁, hothers₁, -⟩ := reaches_running id missingNode
    (fun _ => t) (u := .initial (fun _ => none) (fun _ => .dfl) 0) (i := true) rfl rfl
  -- the second opener waits for the lock
  let u₂ := (u₁.setLockFd false true).goto false (.locking u₁.now)
  have hrun₂ : Reaches id missingNode (fun _ => t) (.initial (fun _ => none) (fun _ => .dfl) 0) u₂ :=
    hrun₁.tail (.opening (.lockFile (hothers₁ false (by decide))))
  have hplace₂ : u₂.place true = .running saved t :=
    (place_goto_of_ne (by decide) _).trans hplace₁
  -- the first makes its calls and closes its handle
  obtain ⟨u₃, hrun₃, hplace₃, hbus₃, hothers₃⟩ := reaches_result_of_running id missingNode
    (fun _ => t) (u := u₂) hplace₂ ((congrArg _ hbus₁).trans hfirst)
  have hwaits : u₃.place false = .locking u₁.now :=
    (hothers₃ false (by decide)).trans (place_goto_self _)
  have hfree : u₃.holder = none := by
    have hturns := turns_of_reaches (hrun₂.trans hrun₃)
    refine hturns.free fun i => ?_
    cases i with
    | true => simp [hplace₃, holdsLock]
    | false => simp [hwaits, holdsLock]
  -- the second has its turn
  obtain ⟨u₄, saved', hrun₄, hplace₄, hbus₄, hothers₄, -⟩ :=
    reaches_running_of_locking id missingNode (fun _ => t) hwaits hfree
  obtain ⟨u₅, hrun₅, hplace₅, hbus₅, hothers₅⟩ := reaches_result_of_running id missingNode
    (fun _ => t) (u := u₄) hplace₄ ((congrArg _ (hbus₄.trans hbus₃)).trans hsecond)
  obtain ⟨tenures, tenures', hmore, hlog, hlog', -⟩ := operations_serialized (fun _ => [.devRev 0])
    (fun _ => ht) hrun₂ (hrun₃.trans (hrun₄.trans hrun₅))
  refine ⟨fun _ => t, u₂, u₅, saved, u₁.now, tenures, tenures', hplace₂, place_goto_self _,
    fun i => ?_, hbus₅, hmore, hlog, hlog'⟩
  cases i with
  | true => exact ((hothers₅ true (by decide)).trans (hothers₄ true (by decide))).trans hplace₃
  | false => exact hplace₅

end Atsha204.Analysis
