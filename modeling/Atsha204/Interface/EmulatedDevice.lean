import Atsha204.Interface.ApiCall
import Atsha204.Interface.Delivery
import Atsha204.Interface.SlotAnnouncement

/-!
# Emulated devices and the calls made on them

A handle on the emulation layer is opened over a configuration file, or as a server from a
slot, a serial number and a key. Any public operation may then be called on it, as often and
in whatever order; its result is a status and, for most of them, an output.
-/

set_option autoImplicit false

namespace Atsha204.Interface

open Atsha204.Library
open Atsha204.Model
open Atsha204.Analysis (answerPacket)

variable {σ : Type}

/-! ## Opening -/

inductive Opening where
  | emulation (file : Option (List UInt8))
  | server (slotId : UInt8) (serialNumber key : Option Block)

def Opening.run (env : Env σ) : Opening → Prog σ Bool
  | .emulation file => atshaOpenEmulation env file
  | .server slotId serialNumber key => atshaOpenServerEmulation slotId serialNumber key

/-- The state behind an opening that gave a handle. -/
def Opened (opening : Opening) (s : St σ) : Prop :=
  ∃ (env : Env σ) (before : St σ), (opening.run env).run before = .ok true s

/-! ## Calls -/

/-- What a call gives beside its status. -/
inductive Output where
  | nothing
  | number (number : AtshaBigInt)
  | revision (revision : UInt32)
  | slot (slotNumber : UInt8)
  deriving DecidableEq

/-- The result of an operation, with its output. -/
def giving {α : Type} (output : α → Output) (x : Prog σ (AtshaErr × α)) :
    Prog σ (AtshaErr × Output) := do
  let (status, a) ← x
  return (status, output a)

def AutomaticOp.result (env : Env σ) (charSigned : Bool) (dns : Resolution) :
    AutomaticOp → Prog σ (AtshaErr × Output)
  | .slotRead number => giving .number (atshaSlotRead env charSigned dns number)
  | .slotWrite number => giving (fun _ => .nothing) (atshaSlotWrite env charSigned dns number)
  | .challengeResponse challenge response =>
    giving .number (atshaChallengeResponse env charSigned dns challenge response)
  | .challengeResponseMac challenge response =>
    giving .number (atshaChallengeResponseMac env charSigned dns challenge response)

/-- A public operation, with its arguments and what its output parameter holds before. -/
inductive PublicCall where
  | plain (call : PlainCall) (number : AtshaBigInt)
  | devRev (revision : UInt32)
  | chipSerialNumber (number : AtshaBigInt)
  | serialNumber (number : AtshaBigInt)
  | changeAddress (address : UInt8)
  | findSlotNumber (dns : Resolution)
  | automatic (op : AutomaticOp) (dns : Resolution)

def PublicCall.run (env : Env σ) (charSigned : Bool) : PublicCall → Prog σ (AtshaErr × Output)
  | .plain call number => giving .number (call.run env number)
  | .devRev revision => giving .revision (atshaDevRev env revision)
  | .chipSerialNumber number => giving .number (atshaChipSerialNumber env number)
  | .serialNumber number => giving .number (atshaSerialNumber env number)
  | .changeAddress address => giving (fun _ => .nothing) (atshaChangeAddress env address)
  | .findSlotNumber dns => do
    let slotNumber ← atshaFindSlotNumber env charSigned dns
    return (.ok, .slot slotNumber)
  | .automatic op dns => op.result env charSigned dns

/-- The states that calls lead to from a first one, whatever the surroundings they are made
in; a call that faults leaves the state it faulted in. -/
inductive Reached (charSigned : Bool) (s₀ : St σ) : St σ → Prop where
  | start : Reached charSigned s₀ s₀
  | call {s : St σ} (h : Reached charSigned s₀ s) (env : Env σ) (call : PublicCall) :
    Reached charSigned s₀ (lastState ((call.run env charSigned).run s))

/-- The call does not ask the resolver for a slot, and is not for the chip serial number of a
server, which has none. -/
def PublicCall.OnDevice (handle : AtshaHandle) : PublicCall → Prop
  | .findSlotNumber _ | .automatic .. => handle.isSrvEmulation = true
  | .chipSerialNumber _ => handle.isSrvEmulation = false
  | _ => True

/-! ## Commands with checks -/

/-- A good status comes with a good answer of one, four or thirty-two data bytes, and any other
one with none. -/
def WellAnswered (reply : Reply) : Prop :=
  (reply.1 = .ok → ∃ data : Block, reply.2 = some (answerPacket data) ∧
    (data.length = 1 ∨ data.length = 4 ∨ data.length = 32) ∧ GoodAnswer (answerPacket data)) ∧
  (reply.1 ≠ .ok → reply.2 = none)

/-- One round of `command`, with the emulator in the place of the I2C layer: its answers go
through the same checks.
SOURCE: communication.c:123-166 -/
def checkedAttempt (env : Env σ) (rawPacket : Block) (_ : Reply) :
    Prog σ (Verdict Reply Reply) := do
  let (status, answer) ← emulCommand env (nestedSlotRead env) rawPacket
  if status = .ok then
    let answer ← access answer
    if !(← access (checkPacket answer)) then
      logMessage "communication: command: CRC doesn't match."
      return .again (.communication, none)
    if (← access (peek answer 0)) = 4 then
      let atsha204Status ← access (peek answer 1)
      if let some text := refusedStatus atsha204Status then
        logMessage text
        if atsha204Status = atsha204StatusWakeOk then
          return .abort (.badCommunicationStatus, none)
        return .again (.badCommunicationStatus, none)
    return .accept (.ok, some answer)
  else
    return .again (status, answer)

/-- The attempts of `command` with these rounds. -/
def checkedCommand (env : Env σ) (rawPacket : Block) : Prog σ Reply := do
  match ← retry (checkedAttempt env rawPacket) maxAttempts (.ok, none) with
  | .ok reply => return reply
  | .error reply => return reply

end Atsha204.Interface
