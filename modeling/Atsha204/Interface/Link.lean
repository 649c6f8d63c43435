import Atsha204.Analysis.PacketCodec
import Atsha204.Model.Api

/-!
# The link to the device

What a call of the library sees of the device on the native I2C layer, as functions and
programs on the state of the bus alone: one exchange of the bus (`wakeExchange`,
`commandExchange`), what is made of the frame it brings (`judgeWake`, `judgeCommand`),
and the exchanges repeated (`linkRetry`). `Confirms` and `Answers` are the outcomes that
the operations build on: within the attempts that are made, the device confirms a wake,
or gives an answer that goes through.
-/

set_option autoImplicit false

namespace Atsha204.Interface

open Atsha204.Library
open Atsha204.Model
open Atsha204.Analysis (answerPacket)

variable {σ : Type}

/-! ## Frames -/

/-- The answer in a frame: as many bytes as its first one says.
SOURCE: layer_ni2c.c:52-57 -/
def frameAnswer (frame : Frame) : Option Block := do
  let count ← peek frame.val 0
  copyOut frame.val count.toNat

/-- The bytes of a packet that are sent: as many as its first one says.
SOURCE: layer_ni2c.c:105-112 -/
def sentBytes (packet : Block) : Option Block := do
  let count ← peek packet 0
  copyOut packet count.toNat

/-- A frame that holds a packet, with zeros behind it. -/
def frameOf (packet : Block) : Frame :=
  ⟨(packet ++ List.replicate buffsizeNi2c 0).take buffsizeNi2c, by simp⟩

/-- What an attempt to wake makes of a frame; `none` where it leaves the frame.
SOURCE: communication.c:58-75 -/
def judgeWake (frame : Frame) : Option (Verdict AtshaErr Block) := do
  let answer ← frameAnswer frame
  if !(← checkPacket answer) then
    return .again .communication
  if (← peek answer 1) ≠ atsha204StatusWakeOk then
    return .again .communication
  return .accept answer

/-- What an attempt to send a command makes of a frame; `none` where it leaves the frame.
SOURCE: communication.c:127-165 -/
def judgeCommand (frame : Frame) : Option (Verdict AtshaErr Block) := do
  let answer ← frameAnswer frame
  if !(← checkPacket answer) then
    return .again .communication
  if (← peek answer 0) = 4 then
    let status ← peek answer 1
    if (refusedStatus status).isSome then
      if status = atsha204StatusWakeOk then
        return .abort .badCommunicationStatus
      return .again .badCommunicationStatus
  return .accept answer

/-! ## Exchanges -/

/-- Open the bus, bind the general call address, send the wake token, read a frame.
SOURCE: layer_ni2c.c:60-87 -/
def wakeExchange (bus : I2cBus σ) (b : σ) : Option Frame × σ :=
  let opened := bus.openPath b
  if opened.1 then
    let bound := bus.bindGeneralCall opened.2
    if bound.1 then bus.read (bus.writeWake bound.2) else (none, bound.2)
  else (none, opened.2)

/-- Write a command, read a frame.
SOURCE: layer_ni2c.c:97-123 -/
def commandExchange (bus : I2cBus σ) (packet : Block) (b : σ) : Option Frame × σ :=
  let written := bus.write (atsha204I2cWaCommand :: packet) b
  if written.1 then bus.read written.2 else (none, written.2)

/-- One attempt over the link: an exchange, and the judgement on its frame. -/
def linkAttempt (exchange : σ → Option Frame × σ)
    (judge : Frame → Option (Verdict AtshaErr Block)) (_ : AtshaErr) :
    EStateM Fault σ (Verdict AtshaErr Block) := do
  let b ← get
  set (exchange b).2
  match (exchange b).1 with
  | none => return .again .communication
  | some frame => orFault .outOfBounds (judge frame)

/-- The attempts over the link. -/
def linkRetry (exchange : σ → Option Frame × σ)
    (judge : Frame → Option (Verdict AtshaErr Block)) : EStateM Fault σ (Except AtshaErr Block) :=
  retry (linkAttempt exchange judge) maxAttempts .ok

/-- Within the attempts made, the device confirms a wake. -/
def Confirms (bus : I2cBus σ) (b b' : σ) : Prop :=
  ∃ answer, Accepts (linkAttempt (wakeExchange bus) judgeWake) maxAttempts .ok b answer b'

/-- Within the attempts made, the device gives an answer that goes through. -/
def Answers (bus : I2cBus σ) (packet : Block) (b : σ) (answer : Block) (b' : σ) : Prop :=
  Accepts (linkAttempt (commandExchange bus packet) judgeCommand) maxAttempts .ok b answer b'

/-- The first attempt is accepted. -/
def AtOnce (exchange : σ → Option Frame × σ)
    (judge : Frame → Option (Verdict AtshaErr Block)) (b : σ) (answer : Block) (b' : σ) : Prop :=
  ∃ frame, exchange b = (some frame, b') ∧ judge frame = some (.accept answer)

/-! ## A bus that replays frames -/

/-- A bus whose state is the list of what its reads bring; nothing else on it fails. -/
def replayBus : I2cBus (List (Option Frame)) where
  openPath := fun b => (true, b)
  bindGeneralCall := fun b => (true, b)
  writeWake := id
  write := fun _ b => (true, b)
  read := fun b => (b.head?.join, b.tail)

/-- Surroundings with such a bus; no digest can be computed in them. -/
def replayEnv : Env (List (Option Frame)) where
  bus := replayBus
  openssl := ⟨fun _ _ => none, fun _ => none⟩
  uninit := ⟨fun _ _ => 0, fun _ => 0⟩

/-- A new handle on the bus. -/
def replayState (frames : List (Option Frame)) : St (List (Option Frame)) :=
  ⟨openNi2cDev, frames, []⟩

/-- The answer of a device that was woken. -/
def wakeOkFrame : Frame := frameOf (answerPacket [atsha204StatusWakeOk])

end Atsha204.Interface
