import Atsha204.Interface.Device

/-!
# An unreliable link to a device

The link of `Atsha204.Interface.Chip`, with a device at its end that is asked. The script says of
each call on the bus whether it fails, and what becomes of what it carries; where the reaction of
the device leaves the answer open, `noise` says what it answers. What goes through such a link can
be trusted (`Honest`); on a script without faults it can be relied on (`Reliable`).
-/

set_option autoImplicit false

namespace Atsha204.Interface

open Atsha204.Library
open Atsha204.Model
open Atsha204.Analysis (answerPacket)

/-- The slot that a number stands for. -/
def slotOf (n : ℕ) : Fin 16 := ⟨n % 16, Nat.mod_lt n (by decide)⟩

/-- The inquiry that a command can be, by its opcode, its parameters and its data. -/
def Inquiry.named (opcode param1 low : UInt8) (challenge : Option (List.Vector UInt8 32)) :
    Option Inquiry :=
  if opcode = atsha204OpcodeDevRev then some .devRev
  else if opcode = atsha204OpcodeRandom then some .random
  else if opcode = atsha204OpcodeRead then
    if param1 = getZoneConfig ioMemConfig ioRwNonEnc ioRw4Bytes then some (.configWord low)
    else if param1 = getZoneConfig ioMemConfig ioRwNonEnc ioRw32Bytes then some .configBlock
    else if param1 = getZoneConfig ioMemOtp ioRwNonEnc ioRw4Bytes then some (.otpWord low)
    else some (.slot (slotOf (low.toNat / 8)))
  else if opcode = atsha204OpcodeNonce then challenge.map .nonce
  else if opcode = atsha204OpcodeHmac then
    some (.hmac (slotOf low.toNat) (param1 != 0x04))
  else challenge.map fun challenge => .mac (slotOf low.toNat) challenge (param1 != 0x00)

/-- The inquiry that a packet carries. -/
def Inquiry.ofPacket (packet : Block) : Option Inquiry := do
  let inquiry ← match packet with
    | _ :: opcode :: param1 :: low :: _ :: rest =>
      named opcode param1 low (carriedChallenge rest.dropLast.dropLast)
    | _ => none
  if inquiry.packet = packet then some inquiry else none

/-- The device behind a command. -/
def Device.behind (device : Device) (nonce : Option (List.Vector UInt8 32)) : Device :=
  { device with nonce := nonce, awake := device.awake - 1 }

/-- What the device does with a command that reaches it, and answers. It refuses what is no
inquiry, and may refuse any; only where it has not heard a command well it keeps its nonce. -/
def Device.receive (openssl : OpenSsl) (device : Device) (noise packet : Block) :
    Option Refusal → Device × Block
  | some .communicationError => (device.behind device.nonce, Refusal.communicationError.data)
  | some refusal => (device.behind none, refusal.data)
  | none =>
    match Inquiry.ofPacket packet with
    | none => (device.behind none, Refusal.parseError.data)
    | some inquiry =>
      match device.reaction openssl inquiry with
      | .answers data => (device.behind inquiry.nonceAfter, data)
      | .refuses => (device.behind none, Refusal.execError.data)
      | .untold | .unsettled => (device.behind none, noise)

/-- The device, the data of the answer that waits to be read, and the number of calls made on the
bus so far. -/
structure DeviceLink where
  device : Device
  pending : Option Block
  clock : ℕ

def DeviceLink.tick (b : DeviceLink) : DeviceLink := { b with clock := b.clock + 1 }

/-- What becomes of something written. -/
def DeviceLink.carry (b : DeviceLink) (fate : Fate) (react : Option Refusal → Device × Block) :
    DeviceLink :=
  match fate with
  | .lost => { b.tick with pending := none }
  | .damaged answer => { b.tick with pending := answer.map Refusal.data }
  | .delivered refused =>
    { b.tick with device := (react refused).1, pending := some (react refused).2 }

/-- The driver on such a link. A device that sleeps hears nothing but the wake token, behind which
it stays awake for three commands. -/
def deviceBus (openssl : OpenSsl) (script : ℕ → LinkStep) (noise : ℕ → Block) :
    I2cBus DeviceLink where
  openPath := fun b => ((script b.clock).works, b.tick)
  bindGeneralCall := fun b => ((script b.clock).works, b.tick)
  writeWake := fun b => b.carry (script b.clock).fate fun _ =>
    ({ b.device with awake := 3 }, [atsha204StatusWakeOk])
  write := fun bytes b =>
    if (script b.clock).works then
      match bytes with
      | 0x03 :: packet =>
        (true, b.carry (if b.device.awake = 0 then .lost else (script b.clock).fate)
          (b.device.receive openssl (noise b.clock) packet))
      | _ => (true, { b.tick with device := { b.device with awake := 0 }, pending := none })
    else (false, b.tick)
  read := fun b =>
    (match (script b.clock).reception with
      | .intact padding => b.pending.bind fun data => overwrite padding (answerPacket data)
      | .none => none
      | .damaged damage => some damage.frame, b.tick)

/-- A call on the bus that goes well. -/
structure LinkStep.Good (step : LinkStep) : Prop where
  works : step.works = true
  delivered : step.fate = .delivered none
  intact : ∃ padding, step.reception = .intact padding

end Atsha204.Interface
