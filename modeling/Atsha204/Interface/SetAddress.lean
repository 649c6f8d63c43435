import Atsha204.Interface.Chip
import Atsha204.Model.SetAddress

/-!
# A new address

The address of the device is the first byte of word 4 of the configuration zone, shifted by
one bit. A change of it is to fail with nothing written, or to be in range and to leave the
chip with the new byte and with the others as they were.
-/

set_option autoImplicit false

namespace Atsha204.Interface

open Atsha204.Library
open Atsha204.Model

variable {σ : Type}

/-- The addresses that a device on the bus can have. -/
def AddressInRange (address : Int) : Prop := 1 ≤ address ∧ address ≤ 0x7E

/-- A write command that goes out on the bus. -/
def sendsWrite : Event σ → Bool
  | .written (0x03 :: packet) true _ => peek packet 1 = some atsha204OpcodeWrite
  | _ => false

/-- No write command goes out between the states. -/
def NoWriteSent (s s' : St σ) : Prop :=
  ∀ e ∈ s'.trace.drop s.trace.length, sendsWrite e = false

/-- Word 4 of the chip has the address in its first byte, and is as before in the other three;
so is the rest of the zone. -/
structure AddressStored (address : Int) (chip chip' : Chip) : Prop where
  inRange : AddressInRange address
  word : ∀ b0 b1 b2 b3, (chip.config.val.drop 16).take 4 = [b0, b1, b2, b3] →
    (chip'.config.val.drop 16).take 4 = [UInt8.ofNat (2 * address).toNat, b1, b2, b3]
  rest : ∀ i, i ≠ 16 → chip'.config.val[i]? = chip.config.val[i]?

/-- What may be left behind a change of address that fails or not. -/
def AddressOutcome (address : Int) (failed : Prop) (s s' : St ChipLink) : Prop :=
  (failed ∧ NoWriteSent s s') ∨ AddressStored address s.bus.chip s'.bus.chip

/-- The command returns, with one of the outcomes. -/
structure CommandSetsAddress (env : Env ChipLink) (newAddr : Int) (s : St ChipLink) : Prop where
  outcome : wp (setAddress env newAddr)
    (fun result s' => AddressOutcome newAddr (result.exitCode ≠ 0) s s') (fun _ => False) s

/-- The function of the library returns, with one of the outcomes. -/
structure LibrarySetsAddress (env : Env ChipLink) (address : UInt8) (s : St ChipLink) : Prop where
  outcome : wp (atshaChangeAddress env address)
    (fun r s' => AddressOutcome address.toNat (r.1 ≠ .ok) s s') (fun _ => False) s

/-! ## What a script says of a read and of a write -/

/-- The step behind the first command among `n` attempts from step `t` on that the chip executes
and whose answer arrives. -/
def answeredStep (script : ℕ → LinkStep) : ℕ → ℕ → Option ℕ
  | 0, _ => none
  | n + 1, t =>
    if !(script t).works then answeredStep script n (t + 1)
    else match (script t).fate, (script (t + 1)).reception with
      | .delivered none, .intact _ => some (t + 2)
      | _, _ => answeredStep script n (t + 2)

/-- The step behind the read of word 4. -/
def readStep (s : St ChipLink) : Option ℕ :=
  (commandStep s).bind (answeredStep s.bus.script maxAttempts)

/-- The step with the first attempt to send the write: the device has been idled, in one step,
and woken again. -/
def writeStep (s : St ChipLink) : Option ℕ :=
  (readStep s).bind fun t => wakeStep s.bus.script maxAttempts (t + 1)

/-- The write is tried, and one of the attempts goes out. -/
def WriteGoesOut (s : St ChipLink) : Prop :=
  ∃ t, writeStep s = some t ∧ ∃ i < maxAttempts, (s.bus.script (t + i)).works = true

/-- The chip executes what is sent from the write on. -/
def StoresWrites (s : St ChipLink) : Prop :=
  ∀ t, writeStep s = some t → ∀ i, t ≤ i → (s.bus.script i).fate = .delivered none

end Atsha204.Interface
