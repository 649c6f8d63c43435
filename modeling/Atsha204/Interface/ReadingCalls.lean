import Atsha204.Interface.Device
import Atsha204.Interface.EmulatedDevice
import Atsha204.Model.ChipCommands

/-!
# What asks a device, and what changes it

Most public operations and most commands of `chiptools` are meant to ask the chip for something and
to leave it as it is (`Reading`). What the link does to a command is not theirs to say, nor what the
device makes of it: a chip behind a link is taken to stay as it is whenever it is woken, let idle or
sent an inquiry (`Steady`), as one does whose slots may be used without limit.
-/

set_option autoImplicit false

namespace Atsha204.Interface

open Atsha204.Library
open Atsha204.Model

variable {σ : Type}

/-- Whatever becomes of what is sent, an attempt to wake the device or to make an inquiry leaves its
chip as it is, and so does letting it idle. -/
structure Steady (bus : I2cBus σ) (device : σ → Device) : Prop where
  wakes : ∀ b, (device (wakeExchange bus b).2).chip = (device b).chip
  inquiries : ∀ inquiry b,
    (device (commandExchange bus (Inquiry.packet inquiry) b).2).chip = (device b).chip
  idles : ∀ b, (device (bus.write [atsha204I2cWaIdle] b).2).chip = (device b).chip

/-- The operations that are no write and no lock. -/
def PlainCall.Reading : PlainCall → Prop
  | .write .. | .lockConfig _ | .lockData _ => False
  | _ => True

def PublicCall.Reading : PublicCall → Prop
  | .plain call _ => call.Reading
  | .changeAddress _ | .automatic (.slotWrite _) _ => False
  | _ => True

/-- A process of `chiptools`, with what it finds. -/
structure Process where
  dns : Resolution
  locals : CommandLocals
  opened : Bool
  command : Command

/-- Its command is another one than `init` and `set-address`. -/
def Process.Reading (process : Process) : Prop :=
  match process.command with
  | .init _ | .setAddress _ => False
  | _ => True

/-- Processes one after the other, with their results. One that accesses memory outside of its data
has none, and the next one runs all the same. -/
def processes (env : Env σ) (charSigned : Bool) : List Process → Prog σ (List (Option CommandResult))
  | [] => return []
  | process :: rest => do
    let result ← contained
      (chiptools env charSigned process.dns process.locals process.opened process.command)
    let results ← processes env charSigned rest
    return result :: results

end Atsha204.Interface
