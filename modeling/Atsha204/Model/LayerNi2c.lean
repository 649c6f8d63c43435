import Atsha204.Model.Tools

/-!
# `layer_ni2c.c`: the native I2C layer

The calls on the bus, with their traces, and on top of them the three exchanges of the
layer. The library waits for the device (`ni2c_wait`) behind a wake token and behind a command
that was written. Waiting has no effect on the state, but it takes time, and a process with a
native handle has little of it before its alarm goes off; so the trace tells how often the
library has waited (`St.ni2cWaits`).
-/

set_option autoImplicit false

namespace Atsha204.Model

open Atsha204.Library

variable {σ : Type} (env : Env σ)

/-! ## Calls on the bus -/

def sysOpen : Prog σ Bool := do
  let s : St σ ← get
  let r := env.bus.openPath s.bus
  set (s.exchanged r.2 (.opened r.1))
  return r.1

def sysBindGeneralCall : Prog σ Bool := do
  let s : St σ ← get
  let r := env.bus.bindGeneralCall s.bus
  set (s.exchanged r.2 (.bound r.1))
  return r.1

def sysWriteWake : Prog σ Unit :=
  modify fun s => s.exchanged (env.bus.writeWake s.bus) .wakeToken

def sysWrite (bytes : List UInt8) : Prog σ Bool := do
  let s : St σ ← get
  let r := env.bus.write bytes s.bus
  set (s.exchanged r.2 (.written bytes r.1 s.bus))
  return r.1

def sysRead : Prog σ (Option Frame) := do
  let s : St σ ← get
  let r := env.bus.read s.bus
  set (s.exchanged r.2 (.received r.1))
  return r.1

/-! ## Waiting -/

/-- What the library waits behind.
SOURCE: layer_ni2c.c:41-43, layer_ni2c.c:73-76, layer_ni2c.c:106-114 -/
def Event.ni2cWait : Event σ → Bool
  | .wakeToken => true
  | .written (address :: _) true _ => address = atsha204I2cWaCommand
  | _ => false

/-- How often the library has waited for the device, each time for `ATSHA204_I2C_CMD_TOUT`. The
pauses between two attempts (communication.c:35-39) come on top of it, and there are none where
the first attempt of each exchange goes well. -/
def St.ni2cWaits (s : St σ) : ℕ := s.trace.countP Event.ni2cWait

/-! ## The layer -/

/-- The answer is a copy of as many bytes of the buffer as its first byte says.
SOURCE: layer_ni2c.c:45-58 -/
def ni2cRead (answer : Option Block) : Prog σ (AtshaErr × Option Block) := do
  match ← sysRead env with
  | none =>
    logMessage "layer_ni2c: ni2c_read: Read packet failed"
    return (.communication, answer)
  | some data =>
    let count ← access (peek data.val 0)
    let copy ← access (copyOut data.val count.toNat)
    return (.ok, some copy)

/-- SOURCE: layer_ni2c.c:60-87 -/
def ni2cWake (answer : Option Block) : Prog σ (AtshaErr × Option Block) := do
  if !(← sysOpen env) then
    logMessage "layer_ni2c: ni2c_wake: Couldn't open bus."
    return (.communication, answer)
  if !(← sysBindGeneralCall env) then
    logMessage "layer_ni2c: ni2c_wake: Couldn't bind address."
    return (.communication, answer)
  sysWriteWake env
  ni2cRead env answer

/-- The result of the write is not looked at.
SOURCE: layer_ni2c.c:89-95 -/
def ni2cIdle : Prog σ AtshaErr := do
  let _ ← sysWrite env [atsha204I2cWaIdle]
  return .ok

/-- SOURCE: layer_ni2c.c:97-123 -/
def ni2cCommand (rawPacket : Block) (answer : Option Block) :
    Prog σ (AtshaErr × Option Block) := do
  let count ← access (peek rawPacket 0)
  let bytes ← access (copyOut rawPacket count.toNat)
  if !(← sysWrite env (atsha204I2cWaCommand :: bytes)) then
    logMessage "layer_ni2c: ni2c_command: Send command packet"
    return (.communication, answer)
  ni2cRead env answer

/-! ## Weakest preconditions of the calls on the bus -/

section WeakestPreconditions

variable (E : St σ → Prop) (s : St σ)

/-- The driver says whether the node is opened, and the trace tells it. -/
@[simp] theorem wp_sysOpen (Q : Bool → St σ → Prop) :
    wp (sysOpen env) Q E s ↔ Q (env.bus.openPath s.bus).1
      (s.exchanged (env.bus.openPath s.bus).2 (.opened (env.bus.openPath s.bus).1)) := Iff.rfl

/-- The driver says whether the general call address is bound. -/
@[simp] theorem wp_sysBindGeneralCall (Q : Bool → St σ → Prop) :
    wp (sysBindGeneralCall env) Q E s ↔ Q (env.bus.bindGeneralCall s.bus).1
      (s.exchanged (env.bus.bindGeneralCall s.bus).2
        (.bound (env.bus.bindGeneralCall s.bus).1)) := Iff.rfl

/-- The wake token is written. -/
@[simp] theorem wp_sysWriteWake (Q : Unit → St σ → Prop) :
    wp (sysWriteWake env) Q E s ↔
      Q () (s.exchanged (env.bus.writeWake s.bus) .wakeToken) := Iff.rfl

/-- The driver says whether the bytes are written; the trace tells them with the state of the
bus. -/
@[simp] theorem wp_sysWrite (bytes : List UInt8) (Q : Bool → St σ → Prop) :
    wp (sysWrite env bytes) Q E s ↔ Q (env.bus.write bytes s.bus).1
      (s.exchanged (env.bus.write bytes s.bus).2
        (.written bytes (env.bus.write bytes s.bus).1 s.bus)) := Iff.rfl

/-- The driver gives a frame or none. -/
@[simp] theorem wp_sysRead (Q : Option Frame → St σ → Prop) :
    wp (sysRead env) Q E s ↔ Q (env.bus.read s.bus).1
      (s.exchanged (env.bus.read s.bus).2 (.received (env.bus.read s.bus).1)) := Iff.rfl

end WeakestPreconditions

end Atsha204.Model
