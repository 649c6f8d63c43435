import Atsha204.Interface.Link

/-!
# The session with the device, as the trace shows it

What can be known of the device from the outside alone: it has confirmed a wake when an
answer to a wake token passes the check and carries the wake status, and it has been put
to sleep when an idle byte was written to it. `sessionOf` reads this off a trace; the wake
flag of the handle is meant to agree with it.

`CommCall` are the three calls of `communication.c`, and `Runs` the runs of sequences of
them that return.
-/

set_option autoImplicit false

namespace Atsha204.Interface

open Atsha204.Library
open Atsha204.Model

variable {σ : Type}

/-! ## The session -/

/-- Whether a wake token waits for its answer, and whether the device is awake. -/
structure Session where
  asked : Bool
  awake : Bool
  deriving DecidableEq

/-- An answer that passes `check_packet` and whose second byte is the wake status. -/
def confirmsWake (frame : Frame) : Bool :=
  match frameAnswer frame with
  | some answer =>
    checkPacket answer = some true && peek answer 1 = some atsha204StatusWakeOk
  | none => false

/-- What one event says of the device. -/
def Session.step (session : Session) : Event σ → Session
  | .wakeToken => { session with asked := true }
  | .received (some frame) =>
    ⟨false, session.awake || (session.asked && confirmsWake frame)⟩
  | .received none => { session with asked := false }
  | .written bytes ok _ =>
    ⟨false, session.awake && !(ok && bytes = [atsha204I2cWaIdle])⟩
  | _ => session

/-- What a trace says of the device, which sleeps at first. -/
def sessionOf (trace : List (Event σ)) : Session := trace.foldl Session.step ⟨false, false⟩

/-- Before the first event nobody is awake. -/
@[simp] theorem sessionOf_nil : sessionOf ([] : List (Event σ)) = ⟨false, false⟩ := rfl

/-- The events of a trace are gone through one after the other. -/
theorem sessionOf_append (front back : List (Event σ)) :
    sessionOf (front ++ back) = back.foldl Session.step (sessionOf front) := List.foldl_append

/-- Messages say nothing of the device. -/
@[simp] theorem foldl_step_messages (s : Session) (messages : List String) :
    (messages.map (Event.message (σ := σ))).foldl Session.step s = s := by
  induction messages with
  | nil => rfl
  | cons text messages ih => exact ih

/-! ## Calls -/

/-- The calls of `communication.c`. -/
inductive CommCall where
  | wake
  | idle
  | command (rawPacket : Block)

/-- A call, and the status it returns. -/
def CommCall.run (env : Env σ) : CommCall → Prog σ AtshaErr
  | .wake => Model.wake env
  | .idle => Model.idle env
  | .command rawPacket => do return (← send env rawPacket).1

/-- When a call keeps the flag true to the device: `wake` does where the device is expected
to be awake already or confirms a wake within the attempts made, `idle` where it is not
expected to be awake or the idle byte is written, `command` always. -/
def CommCall.Orderly (env : Env σ) (s : St σ) : CommCall → Prop
  | .wake => s.handle.wakeIsExpected = true ∨ ∃ b', Confirms env.bus s.bus b'
  | .idle => s.handle.wakeIsExpected = false ∨
      (env.bus.write [atsha204I2cWaIdle] s.bus).1 = true
  | .command _ => True

/-- The calls return one after the other, each made in a state that meets `ok`. -/
inductive Runs (env : Env σ) (ok : St σ → CommCall → Prop) :
    St σ → List CommCall → St σ → Prop where
  | nil (s : St σ) : Runs env ok s [] s
  | cons {s s₁ s' : St σ} {call : CommCall} {calls : List CommCall} {status : AtshaErr}
      (hok : ok s call) (hrun : (call.run env).run s = .ok status s₁)
      (hrest : Runs env ok s₁ calls s') : Runs env ok s (call :: calls) s'

/-- A new NI2C handle, before anything has been exchanged. -/
structure Fresh (s : St σ) : Prop where
  layer : s.handle.bottomLayer = .ni2c
  asleep : s.handle.wakeIsExpected = false
  silent : s.trace = []

end Atsha204.Interface
