import Atsha204.Interface.Link

/-!
# A chip behind an unreliable link

A chip has three memory zones and two locks. It answers a read with the stored bytes; to a
write it stores the payload and answers success, or it stores nothing and answers an
error; it executes a lock once and answers an execution error to a lock of a locked zone.
It may refuse any command with an error.

The link in front of it follows a script. Step by step, each call on the bus may fail;
what is written may be lost, or damaged so that the chip can tell, or delivered; an answer
may arrive intact, be lost, or be damaged so that the check of the packet can tell. An
answer that arrives intact is the one to the command written last.
-/

set_option autoImplicit false

namespace Atsha204.Interface

open Atsha204.Library
open Atsha204.Model
open Atsha204.Analysis (answerPacket)

/-! ## The chip -/

/-- The zones of the chip: 22 configuration words, 16 slots of 32 bytes, 64 OTP bytes; and
whether the configuration zone and the other two are locked.
SOURCE: mainpage.dox:28-40, init.c:32-37 -/
structure Chip where
  config : List.Vector UInt8 88
  data : List.Vector UInt8 512
  otp : List.Vector UInt8 64
  configLocked : Bool
  dataLocked : Bool

/-- The error statuses of the chip.
SOURCE: atsha204consts.h:41-44 -/
inductive Refusal where
  | parseError
  | execError
  | communicationError
  deriving DecidableEq, Repr

def Refusal.status : Refusal → UInt8
  | .parseError => atsha204StatusParseError
  | .execError => atsha204StatusExecError
  | .communicationError => atsha204StatusCommunicationError

/-- The data of a status answer. -/
def success : Block := [atsha204StatusSucces]
def Refusal.data (refusal : Refusal) : Block := [refusal.status]

/-- A write to a zone: the payload at its address, if it fits. -/
def Chip.store (chip : Chip) (zone : UInt8) (address : ℕ) (payload : Block) : Option Chip :=
  if zone &&& 0x3 = ioMemConfig then
    (overwriteAt chip.config (4 * address) payload).map fun config => { chip with config := config }
  else if zone &&& 0x3 = ioMemOtp then
    (overwriteAt chip.otp (4 * address) payload).map fun otp => { chip with otp := otp }
  else if zone &&& 0x3 = ioMemData then
    (overwriteAt chip.data (4 * address) payload).map fun data => { chip with data := data }
  else none

/-- The bytes of a zone. -/
def Chip.zone (chip : Chip) (zone : UInt8) : Block :=
  if zone &&& 0x3 = ioMemConfig then chip.config.val
  else if zone &&& 0x3 = ioMemOtp then chip.otp.val
  else if zone &&& 0x3 = ioMemData then chip.data.val
  else []

/-- A word of the configuration zone. -/
def configWord (config : Block) (address : ℕ) : Block := (config.drop (4 * address)).take 4

/-- A read of a zone: as many bytes as the size bit says, if they are there. -/
def Chip.load (chip : Chip) (zone : UInt8) (address : ℕ) : Option Block :=
  copyOut ((chip.zone zone).drop (4 * address)) (if zone &&& 0x80 = 0 then 4 else 32)

/-- Whether the zone that a lock command names is locked. -/
def Chip.locked (chip : Chip) (zone : UInt8) : Bool :=
  if zone = lockConfig then chip.configLocked else chip.dataLocked

def Chip.lock (chip : Chip) (zone : UInt8) : Chip :=
  if zone = lockConfig then { chip with configLocked := true } else { chip with dataLocked := true }

/-- What the chip does with a command that it does not refuse, and the data it answers. -/
def Chip.execute (chip : Chip) (packet : Block) : Chip × Block :=
  match packet with
  | _ :: opcode :: param1 :: low :: _ :: rest =>
    if opcode = atsha204OpcodeRead then
      (chip, (chip.load param1 low.toNat).getD Refusal.parseError.data)
    else if opcode = atsha204OpcodeWrite then
      match chip.store param1 low.toNat rest.dropLast.dropLast with
      | some chip => (chip, success)
      | none => (chip, Refusal.parseError.data)
    else if opcode = atsha204OpcodeLock then
      if chip.locked param1 then (chip, Refusal.execError.data) else (chip.lock param1, success)
    else (chip, Refusal.parseError.data)
  | _ => (chip, Refusal.parseError.data)

/-- What the chip does with a command, which it may refuse. -/
def Chip.receive (chip : Chip) (packet : Block) : Option Refusal → Chip × Block
  | none => chip.execute packet
  | some refusal => (chip, refusal.data)

/-! ## The link -/

/-- A frame that is damaged so that `check_packet` can tell. -/
structure DamagedFrame where
  frame : Frame
  answer : Block
  answered : frameAnswer frame = some answer
  rejected : checkPacket answer = some false

/-- What becomes of something written: lost; damaged, and answered with an error or not at
all; or delivered, and refused or not. -/
inductive Fate where
  | lost
  | damaged (answer : Option Refusal)
  | delivered (refused : Option Refusal)
  deriving DecidableEq, Repr

/-- What becomes of an answer; what lies behind an intact one in the frame is arbitrary. -/
inductive Reception where
  | intact (padding : Frame)
  | none
  | damaged (frame : DamagedFrame)

/-- One call on the bus: whether it succeeds, and what becomes of what it carries. -/
structure LinkStep where
  works : Bool
  fate : Fate
  reception : Reception

/-- The chip, the data of the answer that waits to be read, and the script of the link with
the step that comes next. -/
structure ChipLink where
  chip : Chip
  pending : Option Block
  script : ℕ → LinkStep
  clock : ℕ

def ChipLink.step (b : ChipLink) : LinkStep := b.script b.clock

def ChipLink.tick (b : ChipLink) : ChipLink := { b with clock := b.clock + 1 }

/-- Something is written that the chip answers as `react` says where it is delivered. -/
def ChipLink.carry (b : ChipLink) (react : Option Refusal → Chip × Block) : ChipLink :=
  match b.step.fate with
  | .lost => { b.tick with pending := none }
  | .damaged answer => { b.tick with pending := answer.map Refusal.data }
  | .delivered refused => { b.tick with chip := (react refused).1, pending := some (react refused).2 }

/-- The driver on such a link. -/
def chipBus : I2cBus ChipLink where
  openPath := fun b => (b.step.works, b.tick)
  bindGeneralCall := fun b => (b.step.works, b.tick)
  writeWake := fun b => b.carry fun _ => (b.chip, [atsha204StatusWakeOk])
  write := fun bytes b =>
    if b.step.works then
      match bytes with
      | 0x03 :: packet => (true, b.carry (b.chip.receive packet))
      | _ => (true, { b.tick with pending := none })
    else (false, b.tick)
  read := fun b =>
    (match b.step.reception with
      | .intact padding => b.pending.bind fun data => overwrite padding (answerPacket data)
      | .none => none
      | .damaged damage => some damage.frame, b.tick)

/-- Surroundings with such a link. -/
def chipEnv (openssl : OpenSsl) (uninit : Uninit) : Env ChipLink := ⟨chipBus, openssl, uninit⟩

/-! ## What a script says of a wake and of a lock -/

/-- The step behind the first wake among `n` attempts from step `t` on that reaches the chip
and whose answer arrives. -/
def wakeStep (script : ℕ → LinkStep) : ℕ → ℕ → Option ℕ
  | 0, _ => none
  | n + 1, t =>
    if !(script t).works then wakeStep script n (t + 1)
    else if !(script (t + 1)).works then wakeStep script n (t + 2)
    else match (script (t + 2)).fate, (script (t + 3)).reception with
      | .delivered _, .intact _ => some (t + 4)
      | _, _ => wakeStep script n (t + 4)

/-- Of `n` attempts from step `t` on to send a command, none is executed by the chip, or the
answer to the first one executed arrives. -/
def heardIfExecuted (script : ℕ → LinkStep) : ℕ → ℕ → Bool
  | 0, _ => true
  | n + 1, t =>
    if !(script t).works then heardIfExecuted script n (t + 1)
    else match (script t).fate, (script (t + 1)).reception with
      | .delivered none, .intact _ => true
      | .delivered none, _ => false
      | _, _ => heardIfExecuted script n (t + 2)

/-- The step with the first attempt to send a command, for a handle in this state. -/
def commandStep (s : St ChipLink) : Option ℕ :=
  if s.handle.wakeIsExpected then some s.bus.clock
  else wakeStep s.bus.script maxAttempts s.bus.clock

/-- The two lock operations. -/
inductive LockCall where
  | config
  | data
  deriving DecidableEq, Repr

def LockCall.run (env : Env ChipLink) (crc : UInt8 × UInt8) :
    LockCall → Prog ChipLink (AtshaErr × Unit)
  | .config => atshaLockConfig env crc
  | .data => atshaLockData env crc

/-- What the operation locks. -/
def LockCall.zone : LockCall → UInt8
  | .config => lockConfig
  | .data => lockData

/-- The operation returns, and with a good status exactly when the zone is locked then. -/
structure ReportsTruly (env : Env ChipLink) (call : LockCall) (crc : UInt8 × UInt8)
    (s : St ChipLink) : Prop where
  report : wp (call.run env crc)
    (fun r s' => r.1 = .ok ↔ s'.bus.chip.locked call.zone = true) (fun _ => False) s

/-- The device is never woken, or among the attempts to lock none is executed, or the answer
to the first that is executed arrives. -/
def LockHeard (s : St ChipLink) : Prop :=
  ∀ t, commandStep s = some t → heardIfExecuted s.bus.script maxAttempts t = true

end Atsha204.Interface
