import Atsha204.Interface.LockFile

/-!
# Turns at the lock file

What a step of one opener can do is said once (`Moves`): where it goes, what becomes of the
lock, and that nothing of the other openers and processes changes. From this, the one who is
between taking the lock and giving it back is the holder, in every run (`turns_of_reaches`),
and with it that the openers take turns (`lock_file_excludes`).
-/

set_option autoImplicit false

namespace Atsha204.Analysis

open Atsha204.Library
open Atsha204.Model
open Atsha204.Interface

variable {ι π α σ : Type} [DecidableEq ι] {u u' : Users ι π α σ} {i j : ι}

/-! ## System calls -/

/-- An opener that goes to a place is there. -/
@[simp] theorem place_goto_self (place : Place α) : (u.goto i place).place i = place := by
  simp [Users.goto]

/-- The other ones stay where they are. -/
theorem place_goto_of_ne (hj : j ≠ i) (place : Place α) : (u.goto i place).place j = u.place j :=
  Function.update_of_ne hj _ _

/-- The descriptor of the node does not tell where an opener is. -/
@[simp] theorem place_setNodeFd (isOpen : Bool) : (u.setNodeFd i isOpen).place = u.place := rfl

/-- Giving the lock back changes the holder and nothing else. -/
theorem release_eq (u : Users ι π α σ) (i : ι) : u.release i =
    { u with holder := if u.holder = some i then none else u.holder } := by
  unfold Users.release
  split <;> rfl

/-- Closing the lock file gives the lock back. -/
theorem closeLockFd_eq (u : Users ι π α σ) (i : ι) : u.closeLockFd i =
    { u with
      lockFd := Function.update u.lockFd i false
      holder := if u.holder = some i then none else u.holder } := by
  rw [Users.closeLockFd, release_eq]
  rfl

/-- Giving the lock back moves nobody. -/
theorem place_release (u : Users ι π α σ) (i : ι) : (u.release i).place = u.place := by
  rw [release_eq]

/-- Closing the lock file moves nobody. -/
theorem place_closeLockFd (u : Users ι π α σ) (i : ι) : (u.closeLockFd i).place = u.place :=
  place_release _ _

/-! ## One step of one opener -/

/-- What a step of an opener does to the lock: nothing, or it takes the free lock, or it gives
back the lock that it may have. -/
inductive Turn (u u' : Users ι π α σ) (i : ι) : Prop where
  | keeps (hholder : u'.holder = u.holder) (hplace : holdsLock (u'.place i) = holdsLock (u.place i))
  | takes (hfree : u.holder = none) (hholder : u'.holder = some i)
    (hplace : holdsLock (u'.place i) = true)
  | gives (hholder : u'.holder = if u.holder = some i then none else u.holder)
    (hplace : holdsLock (u'.place i) = false)

/-- What a step of an opener can do. -/
structure Moves (process : ι → π) (u u' : Users ι π α σ) (i : ι) : Prop where
  place : ∃ place, u'.place = Function.update u.place i place
  turn : Turn u u' i
  now : u'.now = u.now
  files : ∀ j, j ≠ i → u'.lockFd j = u.lockFd j ∧ u'.nodeFd j = u.nodeFd j
  wakes : ∀ j, j ≠ i → u'.wakeFds j = u.wakeFds j ∧ u'.wakesLost j = u.wakesLost j
  signals : ∀ p, p ≠ process i → u'.alarm p = u.alarm p ∧ u'.action p = u.action p

/-- A move of one opener leaves the others where they are. -/
theorem Moves.place_of_ne {process : ι → π} (h : Moves process u u' i) (hj : j ≠ i) :
    u'.place j = u.place j := by
  obtain ⟨place, hplace⟩ := h.place
  rw [hplace, Function.update_of_ne hj]

/-- The opener goes to another place, and no more. -/
theorem moves_goto (process : ι → π) {place : Place α}
    (h : holdsLock place = holdsLock (u.place i)) : Moves process u (u.goto i place) i where
  place := ⟨place, rfl⟩
  turn := .keeps rfl (by rw [place_goto_self, h])
  now := rfl
  files _ _ := ⟨rfl, rfl⟩
  wakes _ _ := ⟨rfl, rfl⟩
  signals _ _ := ⟨rfl, rfl⟩

variable [DecidableEq π] {process : ι → π} {bus : I2cBus σ} {program : ι → BusProgram α}

omit [DecidableEq ι] in
/-- Setting an alarm moves nobody. -/
@[simp] theorem place_setAlarm (p : π) (seconds : ℕ) :
    (u.setAlarm p seconds).place = u.place := rfl

omit [DecidableEq ι] in
/-- Nor does setting the action for it. -/
@[simp] theorem place_setAction (p : π) (action : SigAction) :
    (u.setAction p action).place = u.place := rfl

/-- A step of an open is a move. -/
theorem openStep_moves (h : OpenStep process program u i u') : Moves process u u' i := by
  cases h with
  | lockFile h =>
    have hfiles : ∀ j, j ≠ i → (u.setLockFd i true).lockFd j = u.lockFd j :=
      fun j hj => Function.update_of_ne hj _ _
    exact ⟨⟨_, rfl⟩, .keeps rfl (by simp [h, holdsLock]), rfl, fun j hj => ⟨hfiles j hj, rfl⟩,
      fun _ _ => ⟨rfl, rfl⟩, fun p hp => ⟨rfl, rfl⟩⟩
  | noLockFile h => exact moves_goto process (by rw [h]; rfl)
  | lock h hfree =>
    exact ⟨⟨_, rfl⟩, .takes hfree rfl (by simp [holdsLock]), rfl, fun j hj => ⟨rfl, rfl⟩,
      fun _ _ => ⟨rfl, rfl⟩, fun p hp => ⟨rfl, rfl⟩⟩
  | lockBusy h hlate => exact moves_goto process (by rw [h]; rfl)
  | device h =>
    have hfiles : ∀ j, j ≠ i → (u.setNodeFd i true).nodeFd j = u.nodeFd j :=
      fun j hj => Function.update_of_ne hj _ _
    exact ⟨⟨_, rfl⟩, .keeps rfl (by simp [h, holdsLock]), rfl, fun j hj => ⟨rfl, hfiles j hj⟩,
      fun _ _ => ⟨rfl, rfl⟩, fun p hp => ⟨rfl, rfl⟩⟩
  | noDevice h => exact moves_goto process (by rw [h]; rfl)
  | address h => exact moves_goto process (by rw [h]; rfl)
  | noAddress h => exact moves_goto process (by rw [h]; rfl)
  | memory h => exact moves_goto process (by rw [h]; rfl)
  | noMemory h => exact moves_goto process (by rw [h]; rfl)
  | setAlarm h =>
    have halarm : ∀ p, p ≠ process i →
        (u.setAlarm (process i) killUnreleasedLockAfter).alarm p = u.alarm p :=
      fun p hp => Function.update_of_ne hp _ _
    exact ⟨⟨_, rfl⟩, .keeps rfl (by simp [h, holdsLock]), rfl, fun j hj => ⟨rfl, rfl⟩,
      fun _ _ => ⟨rfl, rfl⟩, fun p hp => ⟨halarm p hp, rfl⟩⟩
  | setAction h =>
    have haction : ∀ p, p ≠ process i → (u.setAction (process i) .dfl).action p = u.action p :=
      fun p hp => Function.update_of_ne hp _ _
    exact ⟨⟨_, rfl⟩, .keeps rfl (by simp [h, holdsLock]), rfl, fun j hj => ⟨rfl, rfl⟩,
      fun _ _ => ⟨rfl, rfl⟩, fun p hp => ⟨rfl, haction p hp⟩⟩
  | refuse h =>
    rw [closeLockFd_eq]
    exact ⟨⟨_, rfl⟩, .gives rfl (by simp [holdsLock]), rfl,
      fun j hj => ⟨Function.update_of_ne hj _ _, rfl⟩, fun _ _ => ⟨rfl, rfl⟩,
      fun p hp => ⟨rfl, rfl⟩⟩

/-- A step of a close is one. -/
theorem closeStep_moves (h : CloseStep process u i u') : Moves process u u' i := by
  cases h with
  | device h =>
    have hfiles : ∀ j, j ≠ i → (u.setNodeFd i false).nodeFd j = u.nodeFd j :=
      fun j hj => Function.update_of_ne hj _ _
    exact ⟨⟨_, rfl⟩, .keeps rfl (by simp [h, holdsLock]), rfl, fun j hj => ⟨rfl, hfiles j hj⟩,
      fun _ _ => ⟨rfl, rfl⟩, fun p hp => ⟨rfl, rfl⟩⟩
  | unlock h =>
    rw [release_eq]
    exact ⟨⟨_, rfl⟩, .gives rfl (by simp [holdsLock]), rfl, fun j hj => ⟨rfl, rfl⟩,
      fun _ _ => ⟨rfl, rfl⟩, fun p hp => ⟨rfl, rfl⟩⟩
  | @restoreAction saved result h =>
    have haction : ∀ p, p ≠ process i →
        (u.setAction (process i) saved.origSigact).action p = u.action p :=
      fun p hp => Function.update_of_ne hp _ _
    exact ⟨⟨_, rfl⟩, .keeps rfl (by simp [h, holdsLock]), rfl, fun j hj => ⟨rfl, rfl⟩,
      fun _ _ => ⟨rfl, rfl⟩, fun p hp => ⟨rfl, haction p hp⟩⟩
  | @restoreAlarm saved result h =>
    have halarm : ∀ p, p ≠ process i →
        (u.setAlarm (process i) saved.origAlarm).alarm p = u.alarm p :=
      fun p hp => Function.update_of_ne hp _ _
    exact ⟨⟨_, rfl⟩, .keeps rfl (by simp [h, holdsLock]), rfl, fun j hj => ⟨rfl, rfl⟩,
      fun _ _ => ⟨rfl, rfl⟩, fun p hp => ⟨halarm p hp, rfl⟩⟩
  | lockFile h =>
    rw [closeLockFd_eq]
    exact ⟨⟨_, rfl⟩, .gives rfl (by simp [holdsLock]), rfl,
      fun j hj => ⟨Function.update_of_ne hj _ _, rfl⟩, fun _ _ => ⟨rfl, rfl⟩,
      fun p hp => ⟨rfl, rfl⟩⟩

omit [DecidableEq π] in
/-- A call on the bus is one. -/
theorem callStep_moves (process : ι → π) (bus : I2cBus σ) {saved : Saved} {t t' : BusProgram α}
    (h : u.place i = .running saved t) (c : BusCall) :
    Moves process u ((u.callBus bus i c).goto i (.running saved t')) i where
  place := ⟨_, rfl⟩
  turn := .keeps rfl (by simp [h, holdsLock])
  now := rfl
  files _ _ := ⟨rfl, rfl⟩
  wakes _ hj := ⟨Function.update_of_ne hj _ _, Function.update_of_ne hj _ _⟩
  signals _ _ := ⟨rfl, rfl⟩

/-! ## The holder -/

/-- The opener that is between taking the lock and giving it back is the holder. -/
def Turns (u : Users ι π α σ) : Prop := ∀ i, holdsLock (u.place i) = true ↔ u.holder = some i

omit [DecidableEq π] in
/-- A move keeps the turns. -/
theorem Turns.move (h : Turns u) (hmove : Moves process u u' i) : Turns u' := by
  intro j
  by_cases hj : j = i
  · subst hj
    cases hmove.turn with
    | keeps hholder hplace => rw [hplace, hholder, h j]
    | takes hfree hholder hplace => simp [hplace, hholder]
    | gives hholder hplace =>
      rw [hplace, hholder]
      split
      · simp
      · simp [*]
  · rw [hmove.place_of_ne hj, h j]
    cases hmove.turn with
    | keeps hholder hplace => rw [hholder]
    | takes hfree hholder hplace =>
      rw [hfree, hholder]
      simp [Ne.symm hj]
    | gives hholder hplace =>
      rw [hholder]
      split
      · rename_i hi
        rw [hi]
        simp [Ne.symm hj]
      · rfl

/-- The dead hold no lock. -/
theorem holdsLock_behindDeath (place : Place α) : holdsLock place.behindDeath = false := by
  cases place <;> rfl

omit [DecidableEq ι] in
/-- A dead process has no turn. -/
theorem Turns.die (h : Turns u) (p : π) : Turns (u.die process p) := by
  intro i
  have hholder : (u.die process p).holder = some i ↔ u.holder = some i ∧ process i ≠ p := by
    simp [Users.die, Option.filter_eq_some_iff]
  rw [hholder, ← h i]
  by_cases hp : process i = p
  · simp [Users.die, hp, holdsLock_behindDeath]
  · simp [Users.die, hp]

/-- Every step of the system keeps the turns. -/
theorem Turns.step (h : Turns u) (hstep : UsersStep process bus program u u') : Turns u' := by
  cases hstep with
  | opening hopen => exact h.move (openStep_moves hopen)
  | calling hplace => exact h.move (callStep_moves process bus hplace _)
  | closing hclose => exact h.move (closeStep_moves hclose)
  | tick htick => exact h
  | handled halarm hdue haction => exact h
  | die p => exact h.die p

variable {alarm₀ : π → Option ℕ} {action₀ : π → SigAction} {b₀ : σ}

omit [DecidableEq ι] [DecidableEq π] in
/-- In the beginning nobody has the lock. -/
theorem turns_initial (alarm₀ : π → Option ℕ) (action₀ : π → SigAction) (b₀ : σ) :
    Turns (.initial alarm₀ action₀ b₀ : Users ι π α σ) := by
  intro i
  simp [Users.initial, holdsLock]

/-- In every run the openers take turns. -/
theorem turns_of_reaches (h : Reaches process bus program (.initial alarm₀ action₀ b₀) u) :
    Turns u := by
  induction h with
  | refl => exact turns_initial _ _ _
  | tail _ hstep ih => exact ih.step hstep

omit [DecidableEq ι] [DecidableEq π] in
/-- Where no opener is at a place with the lock, nobody has it. -/
theorem Turns.free (h : Turns u) (hno : ∀ i, holdsLock (u.place i) = false) : u.holder = none := by
  refine Option.eq_none_iff_forall_ne_some.mpr fun i hi => ?_
  rw [← h i, hno i] at hi
  cases hi

/-! ## An opener that nothing happens to -/

section Alone

variable (process : ι → π) (bus : I2cBus σ) (program : ι → BusProgram α)

/-- Where nobody has the lock, an opener that waits for it can get its handle. -/
theorem reaches_running_of_locking {start : ℕ} (hlocking : u.place i = .locking start)
    (hfree : u.holder = none) :
    ∃ u' saved, Reaches process bus program u u' ∧ u'.place i = .running saved (program i) ∧
      u'.bus = u.bus ∧ (∀ j, j ≠ i → u'.place j = u.place j) ∧ u'.wakesLost = u.wakesLost := by
  let locked := { u with holder := some i }.goto i .locked
  let opened := (locked.setNodeFd i true).goto i .opened
  let bound := opened.goto i .bound
  let allocated := bound.goto i .allocated
  let alarmed := (allocated.setAlarm (process i) killUnreleasedLockAfter).goto i
    (.alarmed (allocated.alarmLeft (process i)) allocated.now)
  have hlocked : Reaches process bus program u locked := .single (.opening (.lock hlocking hfree))
  have hopened := hlocked.tail (.opening (.device (place_goto_self _)))
  have hbound := hopened.tail (.opening (.address (place_goto_self _)))
  have hallocated := hbound.tail (.opening (.memory (place_goto_self _)))
  have halarmed := hallocated.tail (.opening (.setAlarm (place_goto_self _)))
  have hrunning := halarmed.tail (.opening (.setAction (place_goto_self _)))
  refine ⟨_, _, hrunning, place_goto_self _, rfl, fun j hj => ?_, rfl⟩
  rw [place_goto_of_ne hj, place_setAction, place_goto_of_ne hj, place_setAlarm,
    place_goto_of_ne hj, place_goto_of_ne hj, place_goto_of_ne hj, place_setNodeFd,
    place_goto_of_ne hj]

/-- Where nobody has the lock, an opener can get its handle. -/
theorem reaches_running (hstart : u.place i = .start) (hfree : u.holder = none) :
    ∃ u' saved, Reaches process bus program u u' ∧ u'.place i = .running saved (program i) ∧
      u'.bus = u.bus ∧ (∀ j, j ≠ i → u'.place j = u.place j) ∧ u'.wakesLost = u.wakesLost := by
  let locking := (u.setLockFd i true).goto i (.locking u.now)
  obtain ⟨u', saved, hrun, hplace, hbus, hothers, hlost⟩ :=
    reaches_running_of_locking process bus program (u := locking) (place_goto_self _) hfree
  exact ⟨u', saved, .head (.opening (.lockFile hstart)) hrun, hplace, hbus,
    fun j hj => (hothers j hj).trans (place_goto_of_ne hj _), hlost⟩

/-- An opener with a handle can make all its calls. -/
theorem reaches_done {saved : Saved} {t : BusProgram α} (hplace : u.place i = .running saved t) :
    ∃ u', Reaches process bus program u u' ∧
      u'.place i = .running saved (.done (t.run (busAnswer bus) u.bus).1) ∧
      u'.bus = (t.run (busAnswer bus) u.bus).2 ∧ ∀ j, j ≠ i → u'.place j = u.place j := by
  induction t generalizing u with
  | done a => exact ⟨u, .refl, hplace, rfl, fun _ _ => rfl⟩
  | call c k ih =>
    obtain ⟨u', hrun, hdone, hbus, hothers⟩ := ih (busAnswer bus c u.bus).1 (place_goto_self
      (u := u.callBus bus i c) _)
    exact ⟨u', .head (.calling hplace) hrun, hdone, hbus,
      fun j hj => (hothers j hj).trans (place_goto_of_ne hj _)⟩

/-- An opener whose calls are made can close its handle. -/
theorem reaches_closed {saved : Saved} {result : α} {handle : AtshaHandle}
    (hplace : u.place i = .running saved (.done (.ok result, handle))) :
    ∃ u', Reaches process bus program u u' ∧ u'.place i = .closed result ∧ u'.bus = u.bus ∧
      (∀ j, j ≠ i → u'.place j = u.place j) ∧ u'.wakesLost = u.wakesLost := by
  let fdClosed := (u.setNodeFd i false).goto i (.fdClosed saved result)
  let unlocked := (fdClosed.release i).goto i (.unlocked saved result)
  let sigRestored := (unlocked.setAction (process i) saved.origSigact).goto i
    (.sigRestored saved result)
  let alarmRestored := (sigRestored.setAlarm (process i) saved.origAlarm).goto i
    (.alarmRestored result)
  refine ⟨_, ?_, place_goto_self (u := alarmRestored.closeLockFd i) _, ?_, fun j hj => ?_, ?_⟩
  · have hfd : Reaches process bus program u fdClosed := .single (.closing (.device hplace))
    have hunlocked := hfd.tail (.closing (.unlock (place_goto_self _)))
    have hsig := hunlocked.tail (.closing (.restoreAction (place_goto_self _)))
    have halarm := hsig.tail (.closing (.restoreAlarm (place_goto_self _)))
    exact halarm.tail (.closing (.lockFile (place_goto_self _)))
  · simp only [alarmRestored, sigRestored, unlocked, fdClosed, closeLockFd_eq, release_eq,
      Users.goto, Users.setAlarm, Users.setAction, Users.setNodeFd]
  · simp only [place_goto_of_ne hj, place_closeLockFd, place_setAlarm, place_setAction,
      place_release, place_setNodeFd, alarmRestored, sigRestored, unlocked, fdClosed]
  · simp only [alarmRestored, sigRestored, unlocked, fdClosed, closeLockFd_eq, release_eq,
      Users.goto, Users.setAlarm, Users.setAction, Users.setNodeFd]

/-- An opener that has its handle can get through, with the result it has alone. -/
theorem reaches_result_of_running {saved : Saved} (hplace : u.place i = .running saved (program i))
    {result : α} {handle : AtshaHandle} {b : σ}
    (hresult : (program i).run (busAnswer bus) u.bus = ((.ok result, handle), b)) :
    ∃ u', Reaches process bus program u u' ∧ u'.place i = .closed result ∧ u'.bus = b ∧
      ∀ j, j ≠ i → u'.place j = u.place j := by
  obtain ⟨u₁, hcalls, hplace₁, hbus₁, hothers₁⟩ := reaches_done process bus program hplace
  rw [hresult] at hplace₁ hbus₁
  obtain ⟨u₂, hclose, hplace₂, hbus₂, hothers₂, -⟩ := reaches_closed process bus program hplace₁
  exact ⟨u₂, hcalls.trans hclose, hplace₂, hbus₂.trans hbus₁,
    fun j hj => (hothers₂ j hj).trans (hothers₁ j hj)⟩

/-- Where nobody has the lock, an opener can get through, with the result it has alone. -/
theorem reaches_result (hstart : u.place i = .start) (hfree : u.holder = none) {result : α}
    {handle : AtshaHandle} {b : σ}
    (hresult : (program i).run (busAnswer bus) u.bus = ((.ok result, handle), b)) :
    ∃ u', Reaches process bus program u u' ∧ u'.place i = .closed result ∧ u'.bus = b ∧
      ∀ j, j ≠ i → u'.place j = u.place j := by
  obtain ⟨u₁, saved, hopen, hplace₁, hbus₁, hothers₁, -⟩ :=
    reaches_running process bus program hstart hfree
  rw [← hbus₁] at hresult
  obtain ⟨u₂, hcalls, hplace₂, hbus₂, hothers₂⟩ :=
    reaches_result_of_running process bus program hplace₁ hresult
  exact ⟨u₂, hopen.trans hcalls, hplace₂, hbus₂,
    fun j hj => (hothers₂ j hj).trans (hothers₁ j hj)⟩

end Alone

/-! ## Mutual exclusion -/

/-- Whatever the openers do, and in whatever order, at most one of them is between taking the
lock and giving it back. -/
theorem lock_file_excludes (h : Reaches process bus program (.initial alarm₀ action₀ b₀) u)
    (hi : holdsLock (u.place i) = true) (hj : holdsLock (u.place j) = true) : i = j := by
  have hturns := turns_of_reaches h
  exact Option.some.inj (((hturns i).mp hi).symm.trans ((hturns j).mp hj))

/-- A bus on which nobody answers. -/
def silentBus : I2cBus Unit where
  openPath _ := (true, ())
  bindGeneralCall _ := (true, ())
  writeWake _ := ()
  write _ _ := (true, ())
  read _ := (none, ())

/-- One opener holds the lock, and it is the only one. -/
theorem lock_file_excludes_running :
    ∃ u : Users Bool Bool Unit Unit, holdsLock (u.place true) = true ∧
      ∀ j, holdsLock (u.place j) = true → true = j := by
  obtain ⟨u, saved, h, hplace, -⟩ := reaches_running id silentBus
    (fun _ => .done (.ok (), openNi2cDev)) (u := .initial (fun _ => none) (fun _ => .dfl) ())
    (i := true) rfl rfl
  have hi : holdsLock (u.place true) = true := by rw [hplace]; rfl
  exact ⟨u, hi, fun j hj => lock_file_excludes h hi hj⟩

end Atsha204.Analysis
