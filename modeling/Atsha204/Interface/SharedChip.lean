import Atsha204.Interface.Device
import Atsha204.Interface.LockFile

/-!
# A chip that is shared

The users of a device come and go, and may be stopped in the middle of a call. What is asked of the
link here is asked of every single call on the bus (`SteadyCalls`). A user that asks for what the
chip holds or works out is meant to be told that, whatever the others do (`AnsweredTruly`).
-/

set_option autoImplicit false

namespace Atsha204.Interface

open Atsha204.Library
open Atsha204.Model

variable {σ : Type}

/-- No call on the bus changes the chip but one that writes a command, and none of these that writes
an inquiry. -/
structure SteadyCalls (bus : I2cBus σ) (device : σ → Device) : Prop where
  inquiries : ∀ inquiry b,
    (device (bus.write (atsha204I2cWaCommand :: Inquiry.packet inquiry) b).2).chip =
      (device b).chip
  others : ∀ call b, (∀ packet, call ≠ .write (atsha204I2cWaCommand :: packet)) →
    (device (busAnswer bus call b).2).chip = (device b).chip

/-- The operation that makes a request. -/
def Request.call (number : AtshaBigInt) : Request → PublicCall
  | .otp address => .plain (.otpRead (UInt8.ofNat address)) number
  | .serialNumber => .serialNumber number
  | .chipSerialNumber => .chipSerialNumber number
  | .respond slotNumber ⟨kind, challenge, useSn⟩ =>
    .plain (.respond kind (UInt8.ofNat slotNumber) ⟨32, challenge⟩ useSn) number

/-- Up to the first failure, every result holds what the chip has to answer. -/
def AnsweredTruly (openssl : OpenSsl) (chip : Chip) :
    List (Request × AtshaBigInt) → List (AtshaErr × Output) → Prop
  | [], results => results = []
  | (request, _) :: requests, results => ∃ status output rest, results = (status, output) :: rest ∧
    (status = .ok → (∃ number bytes, output = .number number ∧
      request.answer openssl chip = some bytes ∧ Holds number bytes) ∧
      AnsweredTruly openssl chip requests rest)

end Atsha204.Interface
