import Atsha204.Analysis.LockFile

/-!
# The alarm of a process and its action

`atsha_open_ni2c_dev` borrows the alarm of its process and the action for `SIGALRM`, and
`atsha_close` gives them back. In a program of one thread they are lent to one opener at a time
(`Borrowed`), so that the process finds its own again (`signals_restored`) and no tenure is
longer than the alarm allows (`tenure_bounded`). `atsha_close` gives the lock back before the
alarm: with two threads, another opener can have its alarm cancelled in between.
-/

set_option autoImplicit false

namespace Atsha204.Analysis

open Atsha204.Library
open Atsha204.Model
open Atsha204.Interface

variable {ι π α σ : Type} [DecidableEq ι] {u u' : Users ι π α σ} {i j : ι} [DecidableEq π]
  {process : ι → π} {bus : I2cBus σ} {program : ι → BusProgram α} {alarm₀ : π → Option ℕ}
  {action₀ : π → SigAction} {b₀ : σ}

/-! ## What one step does to them -/

/-- What is so of the alarm and the action of the process of an opener that has set them: they
are those of the library or those of the process, and the handle keeps those of the process. -/
def Lends (alarm₀ : Option ℕ) (action₀ : SigAction) (alarm : Option ℕ) (action : SigAction) :
    Place α → Prop
  | .alarmed origAlarm since => (alarm₀ = none → origAlarm = 0) ∧ action = action₀ ∧
    (action₀ = .dfl → alarm = some (since + killUnreleasedLockAfter))
  | .running saved _ | .fdClosed saved _ | .unlocked saved _ =>
    (alarm₀ = none → saved.origAlarm = 0) ∧ saved.origSigact = action₀ ∧ action = .dfl ∧
    (action₀ = .dfl → alarm = some (saved.since + killUnreleasedLockAfter))
  | .sigRestored saved _ => (alarm₀ = none → saved.origAlarm = 0) ∧ action = action₀ ∧
    (action₀ = .dfl → alarm = some (saved.since + killUnreleasedLockAfter))
  | _ => True

/-- An opener that is not armed has borrowed nothing. -/
theorem lends_of_not_armed {place : Place α} (h : armed place = false) (alarm₀ : Option ℕ)
    (action₀ : SigAction) (alarm : Option ℕ) (action : SigAction) :
    Lends alarm₀ action₀ alarm action place := by
  cases place with
  | alarmed | running | fdClosed | unlocked | sigRestored => cases h
  | _ => trivial

/-- A handler runs: the library has not set its action yet, or has set it back. -/
theorem Lends.handled {place : Place α} {alarm₀ alarm : Option ℕ} {action₀ action : SigAction}
    (h : Lends alarm₀ action₀ alarm action place) (haction : action ≠ .dfl) :
    Lends alarm₀ action₀ none action place := by
  cases place with
  | alarmed origAlarm since =>
    exact ⟨h.1, h.2.1, fun hdfl => absurd (h.2.1.trans hdfl) haction⟩
  | sigRestored saved result =>
    exact ⟨h.1, h.2.1, fun hdfl => absurd (h.2.1.trans hdfl) haction⟩
  | running | fdClosed | unlocked => exact absurd h.2.2.1 haction
  | _ => trivial

/-- What a step of an opener does to the alarm and the action of its process: nothing, or it is
one of the four calls that set one of them. -/
inductive Signals (process : ι → π) (u u' : Users ι π α σ) (i : ι) : Prop where
  | quiet (halarm : u'.alarm = u.alarm) (haction : u'.action = u.action)
    (harmed : armed (u'.place i) = armed (u.place i))
    (hlends : ∀ alarm₀ action₀ alarm action, Lends alarm₀ action₀ alarm action (u.place i) →
      Lends alarm₀ action₀ alarm action (u'.place i))
  | setAlarm (hplace : u.place i = .allocated)
    (hplace' : u'.place i = .alarmed (u.alarmLeft (process i)) u.now)
    (halarm : u'.alarm (process i) = some (u.now + killUnreleasedLockAfter))
    (haction : u'.action = u.action)
  | setAction {origAlarm since : ℕ} {left : BusProgram α}
    (hplace : u.place i = .alarmed origAlarm since)
    (hplace' : u'.place i = .running ⟨origAlarm, u.action (process i), since⟩ left)
    (halarm : u'.alarm = u.alarm) (haction : u'.action (process i) = .dfl)
  | restoreAction {saved : Saved} {result : α} (hplace : u.place i = .unlocked saved result)
    (hplace' : u'.place i = .sigRestored saved result) (halarm : u'.alarm = u.alarm)
    (haction : u'.action (process i) = saved.origSigact)
  | restoreAlarm {saved : Saved} {result : α} (hplace : u.place i = .sigRestored saved result)
    (hplace' : u'.place i = .alarmRestored result)
    (halarm : saved.origAlarm = 0 → u'.alarm (process i) = none) (haction : u'.action = u.action)

omit [DecidableEq ι] [DecidableEq π] in
/-- A step outside the time in which the alarm is set. -/
theorem signals_elsewhere (halarm : u'.alarm = u.alarm) (haction : u'.action = u.action)
    (hbefore : armed (u.place i) = false) (hafter : armed (u'.place i) = false) :
    Signals process u u' i :=
  .quiet halarm haction (by rw [hbefore, hafter]) fun _ _ _ _ _ => lends_of_not_armed hafter ..

/-- A step of an open borrows the alarm and the action, or leaves them. -/
theorem openStep_signals (h : OpenStep process program u i u') : Signals process u u' i := by
  cases h with
  | setAlarm h => exact .setAlarm h (place_goto_self _) (Function.update_self _ _ _) rfl
  | setAction h => exact .setAction h (place_goto_self _) rfl (Function.update_self _ _ _)
  | refuse h =>
    rw [closeLockFd_eq]
    exact signals_elsewhere rfl rfl (by rw [h]; rfl) (by rw [place_goto_self]; rfl)
  | _ h => exact signals_elsewhere rfl rfl (by rw [h]; rfl) (by rw [place_goto_self]; rfl)

/-- A step of a close gives them back, or leaves them. -/
theorem closeStep_signals (h : CloseStep process u i u') : Signals process u u' i := by
  cases h with
  | device h =>
    refine .quiet rfl rfl (by rw [h, place_goto_self]; rfl) fun _ _ _ _ hlends => ?_
    rw [place_goto_self]
    rwa [h] at hlends
  | unlock h =>
    rw [release_eq]
    refine .quiet rfl rfl (by rw [h, place_goto_self]; rfl) fun _ _ _ _ hlends => ?_
    rw [place_goto_self]
    rwa [h] at hlends
  | restoreAction h => exact .restoreAction h (place_goto_self _) rfl (Function.update_self _ _ _)
  | restoreAlarm h =>
    refine .restoreAlarm h (place_goto_self _) (fun horig => ?_) rfl
    rw [horig]
    exact Function.update_self _ _ _
  | lockFile h =>
    rw [closeLockFd_eq]
    exact signals_elsewhere rfl rfl (by rw [h]; rfl) (by rw [place_goto_self]; rfl)

omit [DecidableEq π] in
/-- A call on the bus leaves them. -/
theorem callStep_signals (bus : I2cBus σ) {saved : Saved} {t t' : BusProgram α}
    (h : u.place i = .running saved t) (c : BusCall) :
    Signals process u ((u.callBus bus i c).goto i (.running saved t')) i := by
  refine .quiet rfl rfl (by rw [h, place_goto_self]; rfl) fun _ _ _ _ hlends => ?_
  rw [place_goto_self]
  rwa [h] at hlends

/-! ### Who can still step -/

/-- Nobody dies twice. -/
theorem behindDeath_behindDeath (place : Place α) :
    place.behindDeath.behindDeath = place.behindDeath := by
  cases place <;> rfl

/-- An opener that steps was not gone, and its step is not its death. -/
theorem openStep_live (h : OpenStep process program u i u') :
    (u.place i).behindDeath ≠ u.place i ∧ u'.place i ≠ .killed := by
  cases h with
  | refuse h => simp [h, closeLockFd_eq, Place.behindDeath]
  | _ h => simp [h, Place.behindDeath]

/-- Who closes a handle lives, and is not killed by it. -/
theorem closeStep_live (h : CloseStep process u i u') :
    (u.place i).behindDeath ≠ u.place i ∧ u'.place i ≠ .killed := by
  cases h with
  | unlock h => simp [h, release_eq, Place.behindDeath]
  | lockFile h => simp [h, closeLockFd_eq, Place.behindDeath]
  | _ h => simp [h, Place.behindDeath]

/-! ### What one process lends -/

/-- A process lends its alarm and its action to one opener at a time, and has them back while it
lends them to none. Its openers die together. -/
structure Borrowed (process : ι → π) (alarm₀ : Option ℕ) (action₀ : SigAction) (p : π)
    (u : Users ι π α σ) : Prop where
  lends : ∀ i, process i = p → Lends alarm₀ action₀ (u.alarm p) (u.action p) (u.place i)
  alone : ∀ i j, process i = p → process j = p →
    armed (u.place i) = true → armed (u.place j) = true → i = j
  restored : (∀ i, process i = p → armed (u.place i) = false ∧ u.place i ≠ .killed) →
    (alarm₀ = none → u.alarm p = none) ∧ u.action p = action₀
  dead : ∀ i j, process i = p → process j = p → u.place i = .killed →
    (u.place j).behindDeath = u.place j

variable {alarmBefore : Option ℕ} {actionBefore : SigAction} {p : π}

omit [DecidableEq ι] [DecidableEq π] in
/-- What moves none of the openers of a process, and leaves its alarm and its action, keeps what is
borrowed. -/
theorem Borrowed.congr (h : Borrowed process alarmBefore actionBefore p u)
    (hplace : ∀ j, process j = p → u'.place j = u.place j) (halarm : u'.alarm p = u.alarm p)
    (haction : u'.action p = u.action p) : Borrowed process alarmBefore actionBefore p u' := by
  refine ⟨fun i hi => ?_, fun i j hi hj => ?_, fun hall => ?_, fun i j hi hj => ?_⟩
  · rw [hplace i hi, halarm, haction]
    exact h.lends i hi
  · rw [hplace i hi, hplace j hj]
    exact h.alone i j hi hj
  · rw [halarm, haction]
    exact h.restored fun i hi => hplace i hi ▸ hall i hi
  · rw [hplace i hi, hplace j hj]
    exact h.dead i j hi hj

omit [DecidableEq ι] [DecidableEq π] in
/-- No other opener of the process has its alarm set, and none is dead. -/
theorem Borrowed.of_others (hi : process i = p)
    (hothers : ∀ j, process j = p → j ≠ i → armed (u'.place j) = false)
    (hlive : ∀ j, process j = p → u'.place j ≠ .killed)
    (hlends : Lends alarmBefore actionBefore (u'.alarm p) (u'.action p) (u'.place i))
    (hrestored : armed (u'.place i) = false →
      (alarmBefore = none → u'.alarm p = none) ∧ u'.action p = actionBefore) :
    Borrowed process alarmBefore actionBefore p u' := by
  have hone : ∀ j, process j = p → armed (u'.place j) = true → j = i := by
    intro j hj harmed
    by_contra hji
    rw [hothers j hj hji] at harmed
    cases harmed
  refine ⟨fun j hj => ?_, fun j k hj hk harmed harmed' => ?_, fun hall => ?_,
    fun j k hj _ hkilled => absurd hkilled (hlive j hj)⟩
  · by_cases hji : j = i
    · rw [hji]
      exact hlends
    · exact lends_of_not_armed (hothers j hj hji) ..
  · rw [hone j hj harmed, hone k hk harmed']
  · exact hrestored (hall i hi).1

omit [DecidableEq π] in
/-- A step of an opener of the process. An opener that is about to set the alarm has the lock;
one that has given it back and still has the alarm set would be inside of `atsha_close`. -/
theorem Borrowed.move (h : Borrowed process alarmBefore actionBefore p u) (hturns : Turns u)
    (hsequential : Sequential process u) (hi : process i = p) (hmove : Moves process u u' i)
    (hsignals : Signals process u u' i)
    (hlive : (u.place i).behindDeath ≠ u.place i ∧ u'.place i ≠ .killed) :
    Borrowed process alarmBefore actionBefore p u' := by
  have hbefore : ∀ j, process j = p → u.place j ≠ .killed :=
    fun j hj hkilled => hlive.1 (h.dead j i hj hi hkilled)
  have hafter : ∀ j, process j = p → u'.place j ≠ .killed := by
    intro j hj
    by_cases hji : j = i
    · exact hji ▸ hlive.2
    · rw [hmove.place_of_ne hji]
      exact hbefore j hj
  -- Where the opener has the alarm set, no other one has, and none comes to it now.
  have hothers : armed (u.place i) = true →
      ∀ j, process j = p → j ≠ i → armed (u'.place j) = false := by
    intro harmed j hj hji
    rw [hmove.place_of_ne hji]
    by_contra hj'
    exact hji (h.alone j i hj hi (by simpa using hj') harmed)
  have hlends := h.lends i hi
  cases hsignals with
  | quiet halarm haction harmed hlends' =>
    have harmed' : ∀ j, armed (u'.place j) = armed (u.place j) := by
      intro j
      by_cases hji : j = i
      · rw [hji, harmed]
      · rw [hmove.place_of_ne hji]
    refine ⟨fun j hj => ?_, fun j k hj hk => ?_, fun hall => ?_,
      fun j k hj _ hkilled => absurd hkilled (hafter j hj)⟩
    · rw [halarm, haction]
      by_cases hji : j = i
      · exact hji ▸ hlends' _ _ _ _ hlends
      · rw [hmove.place_of_ne hji]
        exact h.lends j hj
    · rw [harmed', harmed']
      exact h.alone j k hj hk
    · rw [halarm, haction]
      exact h.restored fun j hj => ⟨harmed' j ▸ (hall j hj).1, hbefore j hj⟩
  | setAlarm hplace hplace' halarm haction =>
    have hothers' : ∀ j, process j = p → j ≠ i → armed (u.place j) = false := by
      intro j hj hji
      have hholder : u.holder = some i := (hturns i).mp (by rw [hplace]; rfl)
      have hnot : holdsLock (u.place j) = false := by
        by_contra hholds
        have hj' := (hturns j).mp (by simpa using hholds)
        exact hji (Option.some.inj (hj'.symm.trans hholder))
      have hinside : insideCall (u.place j) = false := by
        by_contra hinside
        exact hji (hsequential j i (hj.trans hi.symm) (by simpa using hinside)
          (by rw [hplace]; rfl))
      cases hplacej : u.place j with
      | alarmed | running | fdClosed =>
        rw [hplacej] at hnot
        cases hnot
      | unlocked | sigRestored =>
        rw [hplacej] at hinside
        cases hinside
      | _ => rfl
    have hrestored := h.restored fun j hj => by
      refine ⟨?_, hbefore j hj⟩
      by_cases hji : j = i
      · rw [hji, hplace]
        rfl
      · exact hothers' j hj hji
    refine .of_others hi (fun j hj hji => by rw [hmove.place_of_ne hji]; exact hothers' j hj hji)
      hafter ?_ (by rw [hplace']; simp [armed])
    rw [hplace', haction, ← hi, halarm]
    refine ⟨fun hnone => ?_, hi ▸ hrestored.2, fun _ => rfl⟩
    rw [Users.alarmLeft, hi, hrestored.1 hnone]
  | setAction hplace hplace' halarm haction =>
    rw [hplace] at hlends hothers
    refine .of_others hi (hothers rfl) hafter ?_ (by rw [hplace']; simp [armed])
    rw [hplace', halarm, ← hi, haction]
    subst hi
    exact ⟨hlends.1, hlends.2.1, rfl, hlends.2.2⟩
  | restoreAction hplace hplace' halarm haction =>
    rw [hplace] at hlends hothers
    refine .of_others hi (hothers rfl) hafter ?_ (by rw [hplace']; simp [armed])
    rw [hplace', halarm, ← hi, haction]
    subst hi
    exact ⟨hlends.1, hlends.2.1, hlends.2.2.2⟩
  | restoreAlarm hplace hplace' halarm haction =>
    rw [hplace] at hlends hothers
    refine .of_others hi (hothers rfl) hafter (by rw [hplace']; trivial) fun _ => ?_
    rw [haction, ← hi]
    subst hi
    exact ⟨fun hnone => halarm (hlends.1 hnone), hlends.2.1⟩

omit [DecidableEq ι] in
/-- A death keeps what the living have borrowed. -/
theorem Borrowed.die (h : Borrowed process alarmBefore actionBefore p u) (q : π) :
    Borrowed process alarmBefore actionBefore p (u.die process q) := by
  by_cases hq : p = q
  · subst hq
    have hplace : ∀ i, process i = p → (u.die process p).place i = (u.place i).behindDeath :=
      fun i hi => if_pos hi
    have hnot : ∀ i, process i = p → armed ((u.die process p).place i) = false := by
      intro i hi
      rw [hplace i hi]
      cases u.place i <;> rfl
    refine ⟨fun i hi => lends_of_not_armed (hnot i hi) .., fun i j hi _ harmed => ?_,
      fun hall => ?_, fun i j hi hj _ => ?_⟩
    · rw [hnot i hi] at harmed
      cases harmed
    · refine ⟨fun _ => Function.update_self _ _ _, (h.restored fun i hi => ?_).2⟩
      have hlive := (hall i hi).2
      rw [hplace i hi] at hlive
      cases hi' : u.place i with
      | closed result => simp [armed]
      | _ => simp [hi', Place.behindDeath] at hlive
    · rw [hplace j hj, behindDeath_behindDeath]
  · refine h.congr (fun j hj => if_neg fun hjq => hq (hj.symm.trans hjq)) ?_ rfl
    exact Function.update_of_ne hq _ _

/-- Every step of a system of sequential programs does. -/
theorem Borrowed.step (h : Borrowed process alarmBefore actionBefore p u) (hturns : Turns u)
    (hsequential : Sequential process u) (hstep : UsersStep process bus program u u') :
    Borrowed process alarmBefore actionBefore p u' := by
  have hmove : ∀ {i}, Moves process u u' i → Signals process u u' i →
      (u.place i).behindDeath ≠ u.place i ∧ u'.place i ≠ .killed →
      Borrowed process alarmBefore actionBefore p u' := by
    intro i hmove hsignals hlive
    by_cases hi : process i = p
    · exact h.move hturns hsequential hi hmove hsignals hlive
    · obtain ⟨halarm, haction⟩ := hmove.signals p (Ne.symm hi)
      refine h.congr (fun j hj => hmove.place_of_ne ?_) halarm haction
      rintro rfl
      exact hi hj
  cases hstep with
  | opening hopen =>
    exact hmove (openStep_moves hopen) (openStep_signals hopen) (openStep_live hopen)
  | calling hplace =>
    exact hmove (callStep_moves process bus hplace _) (callStep_signals bus hplace _)
      (by simp [hplace, Place.behindDeath])
  | closing hclose =>
    exact hmove (closeStep_moves hclose) (closeStep_signals hclose) (closeStep_live hclose)
  | tick htick => exact h.congr (fun _ _ => rfl) rfl rfl
  | @handled q due halarm hdue haction =>
    by_cases hq : p = q
    · subst hq
      have halarm' : Function.update u.alarm p none p = none := Function.update_self ..
      refine ⟨fun i hi => ?_, h.alone, fun hall => ⟨fun _ => halarm', (h.restored hall).2⟩, h.dead⟩
      change Lends _ _ (Function.update u.alarm p none p) _ _
      rw [halarm']
      exact (h.lends i hi).handled haction
    · exact h.congr (fun _ _ => rfl) (Function.update_of_ne hq _ _) rfl
  | die q => exact h.die q

/-! ### Whole runs -/

/-- A run of sequential programs is a run. -/
theorem reaches_of_sequentially {m m' : Users ι π α σ}
    (h : ReachesSequentially process bus program m m') : Reaches process bus program m m' := by
  induction h with
  | refl => exact .refl
  | tail _ hstep ih => exact ih.tail hstep.1

/-- In such a run every process has one opener at work at most. -/
theorem sequential_of_reaches
    (h : ReachesSequentially process bus program (.initial alarm₀ action₀ b₀) u) :
    Sequential process u := by
  cases h with
  | refl =>
    intro i j _ hi
    cases hi
  | tail _ hstep => exact hstep.2

/-- In every such run the alarm and the action of a process are its own or lent. -/
theorem borrowed_of_reaches
    (h : ReachesSequentially process bus program (.initial alarm₀ action₀ b₀) u) (p : π) :
    Borrowed process (alarm₀ p) (action₀ p) p u := by
  induction h with
  | refl =>
    exact ⟨fun _ _ => trivial, fun _ _ _ _ => nofun, fun _ => ⟨id, rfl⟩, fun _ _ _ _ => nofun⟩
  | tail hrun hstep ih =>
    exact ih.step (turns_of_reaches (reaches_of_sequentially hrun)) (sequential_of_reaches hrun)
      hstep.1

/-- No alarm is due and has not gone off. -/
def Timely (u : Users ι π α σ) : Prop := ∀ p due, u.alarm p = some due → u.now ≤ due

omit [DecidableEq ι] in
/-- Setting an alarm, or cancelling it. -/
theorem Timely.setAlarm (h : Timely u) (p : π) (seconds : ℕ) : Timely (u.setAlarm p seconds) := by
  intro q due hq
  by_cases hqp : q = p
  · subst hqp
    simp only [Users.setAlarm, Function.update_self] at hq
    split at hq
    · cases hq
    · have hdue := Option.some.inj hq
      change u.now ≤ due
      omega
  · simp only [Users.setAlarm, Function.update_of_ne hqp] at hq
    exact h q due hq

omit [DecidableEq ι] in
/-- A cancelled alarm is not overdue, and the others are as they were. -/
theorem Timely.cancel (h : Timely u) (p : π) {q : π} {due : ℕ}
    (hq : Function.update u.alarm p none q = some due) : u.now ≤ due := by
  by_cases hqp : q = p
  · rw [hqp, Function.update_self] at hq
    cases hq
  · rw [Function.update_of_ne hqp] at hq
    exact h q due hq

/-- No step lets an alarm become overdue. -/
theorem Timely.step (h : Timely u) (hstep : UsersStep process bus program u u') : Timely u' := by
  cases hstep with
  | opening hopen =>
    cases hopen with
    | setAlarm => exact h.setAlarm _ _
    | refuse =>
      rw [closeLockFd_eq]
      exact h
    | _ => exact h
  | calling => exact h
  | closing hclose =>
    cases hclose with
    | unlock =>
      rw [release_eq]
      exact h
    | restoreAlarm => exact h.setAlarm _ _
    | lockFile =>
      rw [closeLockFd_eq]
      exact h
    | _ => exact h
  | tick htick => exact htick
  | handled => exact fun _ _ hq => h.cancel _ hq
  | die p => exact fun _ _ hq => h.cancel p hq

/-- In every run no alarm is overdue. -/
theorem timely_of_reaches (h : Reaches process bus program (.initial alarm₀ action₀ b₀) u) :
    Timely u := by
  induction h with
  | refl => exact fun _ due _ => Nat.zero_le due
  | tail _ hstep ih => exact ih.step hstep

/-- In a program of one thread, while no opener has the alarm set and none was killed, the
process has its action for `SIGALRM` back, and no alarm where it had none.
SOURCE: api.c:300-308 -/
theorem signals_restored
    (h : ReachesSequentially process bus program (.initial alarm₀ action₀ b₀) u) {p : π}
    (hopeners : ∀ i, process i = p → armed (u.place i) = false ∧ u.place i ≠ .killed) :
    (alarm₀ p = none → u.alarm p = none) ∧ u.action p = action₀ p :=
  (borrowed_of_reaches h p).restored hopeners

/-- One opener is a program of one thread. -/
theorem reachesSequentially_of_subsingleton [Subsingleton ι]
    (h : Reaches process bus program u u') : ReachesSequentially process bus program u u' := by
  induction h with
  | refl => exact .refl
  | tail _ hstep ih => exact ih.tail ⟨hstep, fun _ _ _ _ _ => Subsingleton.elim _ _⟩

/-- A process that has closed its handle has its own handler back, and no alarm. -/
theorem signals_restored_closed :
    ∃ u : Users Unit Unit Unit Unit, u.place () = .closed () ∧ u.alarm () = none ∧
      u.action () = .handler 1 := by
  obtain ⟨u, h, hplace, -⟩ := reaches_result id silentBus
    (fun _ => .done (.ok (), openNi2cDev))
    (u := .initial (fun _ => none) (fun _ => .handler 1) ()) (i := ()) rfl rfl rfl
  obtain ⟨halarm, haction⟩ := signals_restored (reachesSequentially_of_subsingleton h) (p := ())
    fun _ _ => by rw [hplace]; exact ⟨rfl, nofun⟩
  exact ⟨u, hplace, halarm rfl, haction⟩

/-- In a program of one thread with the default action for `SIGALRM`, an opener is not found
with its alarm set more than ten seconds after it was set: it would have died.
SOURCE: api.c:99-117 -/
theorem tenure_bounded
    (h : ReachesSequentially process bus program (.initial alarm₀ action₀ b₀) u) {since : ℕ}
    (haction : action₀ (process i) = .dfl) (hi : armedSince (u.place i) = some since) :
    u.now ≤ since + killUnreleasedLockAfter := by
  have hlends := (borrowed_of_reaches h (process i)).lends i rfl
  have halarm : u.alarm (process i) = some (since + killUnreleasedLockAfter) := by
    cases hplace : u.place i with
    | alarmed origAlarm since' =>
      rw [hplace] at hlends hi
      exact Option.some.inj hi ▸ hlends.2.2 haction
    | sigRestored saved result =>
      rw [hplace] at hlends hi
      exact Option.some.inj hi ▸ hlends.2.2 haction
    | running saved left =>
      rw [hplace] at hlends hi
      exact Option.some.inj hi ▸ hlends.2.2.2 haction
    | fdClosed saved result =>
      rw [hplace] at hlends hi
      exact Option.some.inj hi ▸ hlends.2.2.2 haction
    | unlocked saved result =>
      rw [hplace] at hlends hi
      exact Option.some.inj hi ▸ hlends.2.2.2 haction
    | _ =>
      rw [hplace] at hi
      cases hi
  exact timely_of_reaches (reaches_of_sequentially h) _ _ halarm

/-- An opener at work has set its alarm not too long ago. -/
theorem tenure_bounded_running :
    ∃ (u : Users Unit Unit Unit Unit) (since : ℕ), armedSince (u.place ()) = some since ∧
      u.now ≤ since + killUnreleasedLockAfter := by
  obtain ⟨u, saved, h, hplace, -⟩ := reaches_running id silentBus
    (fun _ => .done (.ok (), openNi2cDev)) (u := .initial (fun _ => none) (fun _ => .dfl) ())
    (i := ()) rfl rfl
  have hi : armedSince (u.place ()) = some saved.since := by rw [hplace]; rfl
  exact ⟨u, _, hi, tenure_bounded (reachesSequentially_of_subsingleton h) rfl hi⟩

end Atsha204.Analysis
