import Atsha204.Interface.Link

/-!
# Write requests

The four public writes as calls with a target and a number, the packets that a run sends
(to the bus or to the emulator), and what is asked of a request: it is refused before
anything is sent, or every packet it sends is well formed.
-/

set_option autoImplicit false

namespace Atsha204.Interface

open Atsha204.Library
open Atsha204.Model

variable {σ : Type}

/-- The public writes, with what they write to. -/
inductive WriteCall where
  | slot (slotNumber : UInt8)
  | conf (address : UInt8)
  | otp (address : UInt8)
  | otp32 (address : UInt8)
  deriving DecidableEq, Repr

def WriteCall.run (env : Env σ) (number : AtshaBigInt) : WriteCall → Prog σ (AtshaErr × Unit)
  | .slot slotNumber => atshaRawSlotWrite env slotNumber number
  | .conf address => atshaRawConfWrite env address number
  | .otp address => atshaRawOtpWrite env address number
  | .otp32 address => atshaRawOtp32Write env address number

/-- The zone byte of the request. -/
def WriteCall.zone : WriteCall → UInt8
  | .slot _ => getZoneConfig ioMemData ioRwNonEnc ioRw32Bytes
  | .conf _ => getZoneConfig ioMemConfig ioRwNonEnc ioRw4Bytes
  | .otp _ => getZoneConfig ioMemOtp ioRwNonEnc ioRw4Bytes
  | .otp32 _ => getZoneConfig ioMemOtp ioRwNonEnc ioRw32Bytes

/-- The word that the request writes to. -/
def WriteCall.address : WriteCall → UInt8
  | .slot slotNumber => 8 * slotNumber
  | .conf address | .otp address | .otp32 address => address

/-- The number of bytes that the zone byte of the request announces. -/
def WriteCall.width : WriteCall → ℕ
  | .slot _ => 32
  | .conf _ => 4
  | .otp _ => 4
  | .otp32 _ => 32

/-- The requests that the code refuses: a slot that there is not, and a write of two OTP
words that is not 32 bytes long. -/
def WriteCall.Refused (number : AtshaBigInt) : WriteCall → Prop
  | .slot slotNumber => atsha204MaxSlotNumber < slotNumber
  | .otp32 _ => number.bytes ≠ 32
  | _ => False

/-- The packets among some events. -/
def sentPackets (events : List (Event σ)) : List Block :=
  events.filterMap fun
    | .written (0x03 :: packet) _ _ => some packet
    | .emulated packet => some packet
    | _ => none

/-- The packets sent from one state of a run to a later one. -/
def sentSince (s s' : St σ) : List Block := sentPackets (s'.trace.drop s.trace.length)

/-- A write packet that carries exactly the number: as many data bytes as the number has and
as the size bit of the zone byte says, a count byte that says so, and a good checksum. -/
def WellFormedWrite (number : AtshaBigInt) (packet : Block) : Prop :=
  ∃ (n : ℕ) (zone low high crc0 crc1 : UInt8),
    packet = [UInt8.ofNat (n + 7), atsha204OpcodeWrite, zone, low, high] ++
      number.data.val.take n ++ [crc0, crc1] ∧
    n + 7 < 256 ∧ n = number.bytes ∧ n = (if zone &&& 0x80 = 0 then 4 else 32) ∧
    checkPacket packet = some true

/-- The request is refused with nothing sent, or it sends well-formed packets only. -/
def RefusedOrWellFormed (env : Env σ) (call : WriteCall) (number : AtshaBigInt)
    (s : St σ) : Prop :=
  let r := (call.run env number).run s
  (∃ s', r = .ok (.invalidInput, ()) s' ∧ sentSince s s' = []) ∨
    (sentSince s (lastState r) ≠ [] ∧
      ∀ packet ∈ sentSince s (lastState r), WellFormedWrite number packet)

/-- The device can be worked with: it is expected to be awake, or is emulated, or confirms a
wake within the attempts made. -/
def Wakeable (env : Env σ) (s : St σ) : Prop :=
  s.handle.wakeIsExpected = true ∨ s.handle.bottomLayer = .emulation ∨
    ∃ b', Confirms env.bus s.bus b'

end Atsha204.Interface
