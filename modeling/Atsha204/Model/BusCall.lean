import Atsha204.Library.Interaction
import Atsha204.Model.State

/-!
# The calls on the bus

The library meets the device in five calls of `layer_ni2c.c` on the system. A program on the
bus is a tree of such calls, which ends with a value or a fault, and with a handle.
-/

set_option autoImplicit false

namespace Atsha204.Model

open Atsha204.Library

/-- SOURCE: layer_ni2c.c:45-123 -/
inductive BusCall where
  | openPath
  | bindGeneralCall
  | writeWake
  | write (bytes : List UInt8)
  | read
  deriving DecidableEq, Repr

/-- What a call is answered with. -/
def BusAnswer : BusCall → Type
  | .openPath | .bindGeneralCall | .write _ => Bool
  | .writeWake => Unit
  | .read => Option Frame

/-- What a bus does in a call. -/
def busAnswer {σ : Type} (bus : I2cBus σ) : (c : BusCall) → σ → BusAnswer c × σ
  | .openPath, b => bus.openPath b
  | .bindGeneralCall, b => bus.bindGeneralCall b
  | .writeWake, b => ((), bus.writeWake b)
  | .write bytes, b => bus.write bytes b
  | .read, b => bus.read b

/-- A program on the bus. -/
abbrev BusProgram (α : Type) := Interaction BusCall BusAnswer (Except Fault α × AtshaHandle)

end Atsha204.Model
