import Atsha204.Model.BusCall
import Mathlib.Logic.Relation

/-!
# `api.c`: the lock file

Everyone who opens the device takes the exclusive lock on one file first and gives it back
behind `close(handle->fd)`. The text here is that of `atsha_open_ni2c_dev` and `atsha_close`,
cut at the system calls: each call is a step of one opener, and a run is any sequence of
steps of any openers, of the clock, and of processes that die.

An opener is one call of `atsha_open_ni2c_dev` with what its caller goes on to do: a program
on the bus (`BusProgram`), and then `atsha_close`. Several openers may belong to one process.
The lock belongs to the open file of an opener, so it is given back by `LOCK_UN`, by closing
that file, and when the process dies. A process has one alarm and one action for `SIGALRM`.

The device node is opened for the handle, and again by each `ni2c_wake`, which closes it behind the
wake token, but not where `ioctl` fails.

Storing the PID in the lock file, flushing it, and the lines given to the log have no effect
on any of this and are left out. An alarm goes off in the second it is due in.
-/

set_option autoImplicit false

namespace Atsha204.Model

open Atsha204.Library

/-- The limit on waiting for the lock, in tenths of a second.
SOURCE: configuration.h:55-56 -/
def lockTryMaxTenths : ℕ := 22

/-! ## The state -/

/-- The action for `SIGALRM`. -/
inductive SigAction where
  | dfl
  | handler (n : ℕ)
  deriving DecidableEq, Repr

/-- Why an opener gets NULL. -/
inductive OpenFailure where
  | lockFile
  | lockBusy
  | device
  | address
  | memory
  deriving DecidableEq, Repr

/-- What a handle keeps of the process, and the time its alarm was set at (which no function
reads).
SOURCE: api.h:61-62 -/
structure Saved where
  origAlarm : ℕ
  origSigact : SigAction
  since : ℕ
  deriving DecidableEq, Repr

/-- Where an opener is: behind the system call that the comment names. -/
inductive Place (α : Type) where
  | start
  /-- `open(LOCK_FILE)` and `time(NULL)` -/
  | locking (start : ℕ)
  /-- `flock(LOCK_EX | LOCK_NB)` -/
  | locked
  /-- `open(path)` -/
  | opened
  /-- `ioctl(I2C_SLAVE)` -/
  | bound
  /-- `calloc` -/
  | allocated
  /-- `alarm(KILL_UNRELEASED_LOCK_AFTER)` -/
  | alarmed (origAlarm since : ℕ)
  /-- `sigaction(SIG_DFL)`: the handle is the caller's. -/
  | running (saved : Saved) (left : BusProgram α)
  /-- `close(handle->fd)` -/
  | fdClosed (saved : Saved) (result : α)
  /-- `flock(LOCK_UN)` -/
  | unlocked (saved : Saved) (result : α)
  /-- `sigaction(orig_sigact)` -/
  | sigRestored (saved : Saved) (result : α)
  /-- `alarm(orig_alarm)` -/
  | alarmRestored (result : α)
  /-- `close(handle->lockfile)` -/
  | closed (result : α)
  /-- A call has failed; the lock file is still open. -/
  | failing (why : OpenFailure)
  /-- NULL was returned. -/
  | refused (why : OpenFailure)
  | killed

/-- The bus and everyone who opens it. The `wakeFds` are open since a wake, and `wakesLost` says how
many wakes have failed behind their `open(path)` (which no function reads). -/
structure Users (ι π α σ : Type) where
  now : ℕ
  holder : Option ι
  lockFd : ι → Bool
  nodeFd : ι → Bool
  wakeFds : ι → ℕ
  wakesLost : ι → ℕ
  place : ι → Place α
  alarm : π → Option ℕ
  action : π → SigAction
  bus : σ

/-! ## System calls -/

section Calls

variable {ι π α σ : Type} [DecidableEq ι] [DecidableEq π] (u : Users ι π α σ)

def Users.goto (i : ι) (place : Place α) : Users ι π α σ :=
  { u with place := Function.update u.place i place }

def Users.setLockFd (i : ι) (isOpen : Bool) : Users ι π α σ :=
  { u with lockFd := Function.update u.lockFd i isOpen }

def Users.setNodeFd (i : ι) (isOpen : Bool) : Users ι π α σ :=
  { u with nodeFd := Function.update u.nodeFd i isOpen }

/-- What a call on the bus opens and closes.
SOURCE: layer_ni2c.c:60-87 -/
def wakeFdsBehind (fds : ℕ) : (c : BusCall) → BusAnswer c → ℕ
  | .openPath, true => fds + 1
  | .writeWake, () => fds - 1
  | _, _ => fds

/-- The wakes that have failed, with this call.
SOURCE: layer_ni2c.c:70-73 -/
def wakesLostBehind (lost : ℕ) : (c : BusCall) → BusAnswer c → ℕ
  | .bindGeneralCall, false => lost + 1
  | _, _ => lost

/-- A call on the bus, from within the program of an opener. -/
def Users.callBus (bus : I2cBus σ) (i : ι) (c : BusCall) : Users ι π α σ :=
  { u with
    wakeFds := Function.update u.wakeFds i
      (wakeFdsBehind (u.wakeFds i) c (busAnswer bus c u.bus).1)
    wakesLost := Function.update u.wakesLost i
      (wakesLostBehind (u.wakesLost i) c (busAnswer bus c u.bus).1)
    bus := (busAnswer bus c u.bus).2 }

/-- The lock is given back by the one who has it. -/
def Users.release (i : ι) : Users ι π α σ :=
  if u.holder = some i then { u with holder := none } else u

/-- `close` of the lock file gives the lock back. -/
def Users.closeLockFd (i : ι) : Users ι π α σ := (u.setLockFd i false).release i

/-- What `alarm` returns: the seconds left of the alarm that was set before. -/
def Users.alarmLeft (p : π) : ℕ :=
  match u.alarm p with
  | none => 0
  | some due => max 1 (due - u.now)

/-- `alarm(seconds)`; zero cancels. -/
def Users.setAlarm (p : π) (seconds : ℕ) : Users ι π α σ :=
  { u with
    alarm := Function.update u.alarm p (if seconds = 0 then none else some (u.now + seconds)) }

def Users.setAction (p : π) (action : SigAction) : Users ι π α σ :=
  { u with action := Function.update u.action p action }

end Calls

/-! ## Processes -/

/-- A handle that was closed before its process dies stays closed. -/
def Place.behindDeath {α : Type} : Place α → Place α
  | .closed result => .closed result
  | _ => .killed

section Processes

variable {ι π α σ : Type} [DecidableEq π] (u : Users ι π α σ) (process : ι → π)

/-- A process dies, for whatever reason: its openers are gone, its files are closed, its lock is
given back. -/
def Users.die (p : π) : Users ι π α σ :=
  { u with
    holder := u.holder.filter fun i => process i ≠ p
    lockFd := fun i => u.lockFd i && decide (process i ≠ p)
    nodeFd := fun i => u.nodeFd i && decide (process i ≠ p)
    wakeFds := fun i => if process i = p then 0 else u.wakeFds i
    wakesLost := fun i => if process i = p then 0 else u.wakesLost i
    place := fun i => if process i = p then (u.place i).behindDeath else u.place i
    alarm := Function.update u.alarm p none }

end Processes

/-! ## Steps -/

section Steps

variable {ι π α σ : Type} [DecidableEq ι] [DecidableEq π] (process : ι → π) (bus : I2cBus σ)
  (program : ι → BusProgram α)

/-- Steps of `atsha_open_ni2c_dev`. An attempt to lock that fails within the time limit is made
again, and is no step.
SOURCE: api.c:78-131, api.c:158-206 -/
inductive OpenStep (u : Users ι π α σ) (i : ι) : Users ι π α σ → Prop where
  | lockFile (h : u.place i = .start) :
    OpenStep u i ((u.setLockFd i true).goto i (.locking u.now))
  | noLockFile (h : u.place i = .start) : OpenStep u i (u.goto i (.refused .lockFile))
  | lock {start : ℕ} (h : u.place i = .locking start) (hfree : u.holder = none) :
    OpenStep u i ({ u with holder := some i }.goto i .locked)
  | lockBusy {start : ℕ} (h : u.place i = .locking start)
    (hlate : lockTryMaxTenths < 10 * (u.now - start)) :
    OpenStep u i (u.goto i (.failing .lockBusy))
  | device (h : u.place i = .locked) : OpenStep u i ((u.setNodeFd i true).goto i .opened)
  | noDevice (h : u.place i = .locked) : OpenStep u i (u.goto i (.failing .device))
  | address (h : u.place i = .opened) : OpenStep u i (u.goto i .bound)
  | noAddress (h : u.place i = .opened) : OpenStep u i (u.goto i (.failing .address))
  | memory (h : u.place i = .bound) : OpenStep u i (u.goto i .allocated)
  | noMemory (h : u.place i = .bound) : OpenStep u i (u.goto i (.failing .memory))
  | setAlarm (h : u.place i = .allocated) :
    OpenStep u i ((u.setAlarm (process i) killUnreleasedLockAfter).goto i
      (.alarmed (u.alarmLeft (process i)) u.now))
  | setAction {origAlarm since : ℕ} (h : u.place i = .alarmed origAlarm since) :
    OpenStep u i ((u.setAction (process i) .dfl).goto i
      (.running ⟨origAlarm, u.action (process i), since⟩ (program i)))
  /-- Every failure behind `open(LOCK_FILE)` closes the lock file, and nothing else. -/
  | refuse {why : OpenFailure} (h : u.place i = .failing why) :
    OpenStep u i ((u.closeLockFd i).goto i (.refused why))

/-- Steps of `atsha_close` on a handle of the native I2C layer.
SOURCE: api.c:143-147, api.c:293-314 -/
inductive CloseStep (u : Users ι π α σ) (i : ι) : Users ι π α σ → Prop where
  | device {saved : Saved} {result : α} {handle : AtshaHandle}
    (h : u.place i = .running saved (.done (.ok result, handle))) :
    CloseStep u i ((u.setNodeFd i false).goto i (.fdClosed saved result))
  | unlock {saved : Saved} {result : α} (h : u.place i = .fdClosed saved result) :
    CloseStep u i ((u.release i).goto i (.unlocked saved result))
  | restoreAction {saved : Saved} {result : α} (h : u.place i = .unlocked saved result) :
    CloseStep u i ((u.setAction (process i) saved.origSigact).goto i (.sigRestored saved result))
  | restoreAlarm {saved : Saved} {result : α} (h : u.place i = .sigRestored saved result) :
    CloseStep u i ((u.setAlarm (process i) saved.origAlarm).goto i (.alarmRestored result))
  | lockFile {result : α} (h : u.place i = .alarmRestored result) :
    CloseStep u i ((u.closeLockFd i).goto i (.closed result))

/-- One step of the whole: of an opener, which may also call on the bus, of the clock, or of a
process that gets its alarm or dies. The default action of the alarm is that it dies. -/
inductive UsersStep (u : Users ι π α σ) : Users ι π α σ → Prop where
  | opening {i : ι} {u' : Users ι π α σ} (h : OpenStep process program u i u') : UsersStep u u'
  | calling {i : ι} {saved : Saved} {c : BusCall} {k : BusAnswer c → BusProgram α}
    (h : u.place i = .running saved (.call c k)) :
    UsersStep u ((u.callBus bus i c).goto i (.running saved (k (busAnswer bus c u.bus).1)))
  | closing {i : ι} {u' : Users ι π α σ} (h : CloseStep process u i u') : UsersStep u u'
  | tick (h : ∀ p due, u.alarm p = some due → u.now < due) :
    UsersStep u { u with now := u.now + 1 }
  | handled {p : π} {due : ℕ} (h : u.alarm p = some due) (hdue : due ≤ u.now)
    (haction : u.action p ≠ .dfl) :
    UsersStep u { u with alarm := Function.update u.alarm p none }
  | die (p : π) : UsersStep u (u.die process p)

/-- Nobody has opened the device yet. -/
def Users.initial (alarm : π → Option ℕ) (action : π → SigAction) (b : σ) : Users ι π α σ where
  now := 0
  holder := none
  lockFd := fun _ => false
  nodeFd := fun _ => false
  wakeFds := fun _ => 0
  wakesLost := fun _ => 0
  place := fun _ => .start
  alarm := alarm
  action := action
  bus := b

end Steps

end Atsha204.Model
