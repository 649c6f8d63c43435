import Atsha204.Interface.EmulatedStorage
import Atsha204.Interface.WriteRequest
import Atsha204.Model.Dnsmagic

/-!
# The slot that a record announces

A TXT record announces a slot when its string is a decimal numeral and the value of the
numeral lies at most fifteen above the origin of the key set, a big-endian number of four
bytes. A slot is to be chosen from such a record only.
-/

set_option autoImplicit false

namespace Atsha204.Interface

open Atsha204.Library
open Atsha204.Model

variable {σ : Type}

/-! ## Records -/

/-- The character string of a record. -/
def string (rdata : TxtRdata) : List UInt8 := rdata.text.take rdata.length.toNat

/-- A non-empty string of decimal digits. -/
def IsNumeral (chars : List UInt8) : Prop := chars ≠ [] ∧ ∀ c ∈ chars, 0x30 ≤ c ∧ c ≤ 0x39

/-- The value of a string where every character, digit or not, stands for its distance from
the digit zero. -/
def positionalValue (chars : List UInt8) : Int :=
  chars.foldl (fun value c => 10 * value + ((c.toNat : Int) - 0x30)) 0

/-- The number that some bytes are, the most significant byte first. -/
def bigEndian (bytes : Block) : ℕ := bytes.foldl (fun value b => 256 * value + b.toNat) 0

/-- A record announces a slot: its string is a numeral, and the value of the numeral less the
origin is the slot. -/
def Announces (rdata : TxtRdata) (origin : Block) (slot : UInt8) : Prop :=
  IsNumeral (string rdata) ∧ positionalValue (string rdata) - bigEndian origin = slot.toNat

/-- The platform reads the length byte of the record as the number it is. -/
def LengthRead (charSigned : Bool) (rdata : TxtRdata) : Prop :=
  charSigned = false ∨ rdata.length.toNat < 128

/-! ## Handles -/

/-- The origin record of a handle that is no server: the cached one, or the one that a read of
the OTP memory gives. -/
structure HasOrigin (env : Env σ) (s : St σ) (origin : Block) : Prop where
  device : s.handle.isSrvEmulation = false
  length : origin.length = 4
  cached : s.handle.keyOriginCached = true → uint32From4Bytes origin = some s.handle.keyOrigin
  stored : s.handle.keyOriginCached = false → ∃ number s',
    (atshaRawOtpRead env atsha204OtpMemoryMapOriginKeySet
      (env.uninitBigInt .findSlotNumber)).run s = .ok (.ok, number) s' ∧ Holds number origin

/-- The device is no server, its origin record is not cached, and the OTP memory cannot be
read. -/
structure OriginUnread (env : Env σ) (s : St σ) : Prop where
  device : s.handle.isSrvEmulation = false
  uncached : s.handle.keyOriginCached = false
  unread : ∃ status number s', (atshaRawOtpRead env atsha204OtpMemoryMapOriginKeySet
    (env.uninitBigInt .findSlotNumber)).run s = .ok (status, number) s' ∧ status ≠ .ok

/-- The operations that ask for the slot. -/
inductive AutomaticOp where
  | slotRead (number : AtshaBigInt)
  | slotWrite (number : AtshaBigInt)
  | challengeResponse (challenge response : AtshaBigInt)
  | challengeResponseMac (challenge response : AtshaBigInt)
  deriving DecidableEq

/-- The status of an automatic operation. -/
def AutomaticOp.run (env : Env σ) (charSigned : Bool) (dns : Resolution) :
    AutomaticOp → Prog σ AtshaErr
  | .slotRead number => return (← atshaSlotRead env charSigned dns number).1
  | .slotWrite number => return (← atshaSlotWrite env charSigned dns number).1
  | .challengeResponse challenge response =>
    return (← atshaChallengeResponse env charSigned dns challenge response).1
  | .challengeResponseMac challenge response =>
    return (← atshaChallengeResponseMac env charSigned dns challenge response).1

/-- The operation fails, and sends nothing once the slot has been asked for. -/
def AutomaticOp.TouchesNoSlot (env : Env σ) (charSigned : Bool) (dns : Resolution) (s s₁ : St σ)
    (op : AutomaticOp) : Prop :=
  ∃ status s', (op.run env charSigned dns).run s = .ok status s' ∧ status ≠ .ok ∧
    sentSince s₁ s' = []

/-- The slot is chosen from a meaningful record: the library answers the question for the
slot, and if it answers with a slot, then with the one that the record announces; otherwise
every automatic operation fails and touches no slot. -/
def ChosenFromRecord (env : Env σ) (charSigned : Bool) (rdata : TxtRdata) (origin : Block)
    (s : St σ) : Prop :=
  ∃ slot s₁, (atshaFindSlotNumber env charSigned (.record rdata)).run s = .ok slot s₁ ∧
    (slot ≤ atsha204MaxSlotNumber → Announces rdata origin slot) ∧
    (atsha204MaxSlotNumber < slot →
      ∀ op : AutomaticOp, op.TouchesNoSlot env charSigned (.record rdata) s s₁)

/-- The length byte is read as it is, and the record announces one of the slots, or the value
of its characters less the origin is none of the slots even modulo 256. -/
def NotMistaken (charSigned : Bool) (rdata : TxtRdata) (origin : Block) : Prop :=
  LengthRead charSigned rdata ∧
    ((IsNumeral (string rdata) ∧ 0 ≤ positionalValue (string rdata) - bigEndian origin ∧
        positionalValue (string rdata) - bigEndian origin ≤ 15) ∨
      15 < (positionalValue (string rdata) - bigEndian origin) % 256)

/-- The slot is asked for again and again, with the same record. -/
def askRepeatedly (env : Env σ) (charSigned : Bool) (rdata : TxtRdata) : ℕ → Prog σ (List UInt8)
  | 0 => return []
  | n + 1 => do
    let slot ← atshaFindSlotNumber env charSigned (.record rdata)
    let slots ← askRepeatedly env charSigned rdata n
    return slot :: slots

end Atsha204.Interface
