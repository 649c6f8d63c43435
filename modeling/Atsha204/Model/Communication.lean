import Atsha204.Library.Retry
import Atsha204.Model.Emulation
import Atsha204.Model.LayerNi2c

/-!
# `communication.c`: waking, idling and the retry loop

The loops of `wake` and `command` run while `tries >= 0`, with `tries` set to
`TRY_SEND_RECV_ON_COMM_ERROR + 1` and decremented at the top, so they make at most
`TRY_SEND_RECV_ON_COMM_ERROR + 2` attempts. An attempt that leaves the loop with `break`
or `return` accepts; `continue` asks for another; `tries = -1` before `continue` ends the
loop. The loop state is the status and the answer, which is NULL again after a failed
attempt.
-/

set_option autoImplicit false

namespace Atsha204.Model

open Atsha204.Library

variable {σ : Type} (env : Env σ)

/-- The number of rounds of a loop over `tries`.
SOURCE: communication.c:43, communication.c:48-49 -/
def maxAttempts : ℕ := trySendRecvOnCommError + 2

/-- One round of the loop of `wake`.
SOURCE: communication.c:49-79 -/
def wakeAttempt (loop : Reply) : Prog σ (Verdict Reply Reply) := do
  match (← getHandle).bottomLayer with
  | .emulation => return .accept (.ok, loop.2)
  | .ni2c =>
    let (status, answer) ← ni2cWake env loop.2
    if status = .ok then
      let answer ← access answer
      if !(← access (checkPacket answer)) then
        logMessage "communication: wake: CRC doesn't match."
        return .again (.communication, none)
      if (← access (peek answer 1)) ≠ atsha204StatusWakeOk then
        return .again (.communication, none)
      return .accept (.ok, some answer)
    else
      return .again (status, answer)

/-- The flag is set behind the loop, whatever its outcome; the emulation layer sets it and
returns from inside the loop.
SOURCE: communication.c:41-85 -/
def wake : Prog σ AtshaErr := do
  if (← getHandle).wakeIsExpected then
    return .ok
  let result ← retry (wakeAttempt env) maxAttempts (.ok, none)
  setWakeIsExpected true
  match result with
  | .ok (status, _) => return status
  | .error (status, _) => return status

/-- The loop of `idle` over the idle call of the bottom layer: `tries` keeps its value.
SOURCE: communication.c:91-108 -/
def idleLoop (layerIdle : Prog σ AtshaErr) (tries : Int) : ℕ → Prog σ AtshaErr
  | 0 => throw .outOfFuel
  | fuel + 1 => do
    match (← getHandle).bottomLayer with
    | .emulation =>
      setWakeIsExpected false
      return .ok
    | .ni2c =>
      let status ← layerIdle
      if status = .ok then
        setWakeIsExpected false
        return status
      if tries < 0 then
        return status
      idleLoop layerIdle tries fuel

/-- The idle call of the I2C layer always returns OK, so the loop ends in its first round.
SOURCE: communication.c:87-109 -/
def idle : Prog σ AtshaErr := idleLoop (ni2cIdle env) trySendRecvOnCommError 1

/-- The text that is logged for a status byte that does not go through.
SOURCE: communication.c:141-153 -/
def refusedStatus (status : UInt8) : Option String :=
  if status = atsha204StatusParseError then
    some "communication: command: Bad ATSHA204 status: Parse error."
  else if status = atsha204StatusExecError then
    some "communication: command: Bad ATSHA204 status: Execution error."
  else if status = atsha204StatusCommunicationError then
    some "communication: command: Bad ATSHA204 status: Communication error."
  else if status = atsha204StatusWakeOk then
    some <| "communication: command: Bad ATSHA204 status: Wake OK (undocumented; " ++
      "inadmissible in common communication)."
  else none

/-- One round of the loop of `command`.
SOURCE: communication.c:115-168 -/
def commandAttempt (rawSlotRead : SlotRead σ) (rawPacket : Block) (loop : Reply) :
    Prog σ (Verdict Reply Reply) := do
  match (← getHandle).bottomLayer with
  | .emulation => return .accept (← emulCommand env rawSlotRead rawPacket)
  | .ni2c =>
    let (status, answer) ← ni2cCommand env rawPacket loop.2
    if status = .ok then
      let answer ← access answer
      if !(← access (checkPacket answer)) then
        logMessage "communication: command: CRC doesn't match."
        return .again (.communication, none)
      if (← access (peek answer 0)) = 4 then
        let atsha204Status ← access (peek answer 1)
        if let some text := refusedStatus atsha204Status then
          logMessage text
          if atsha204Status = atsha204StatusWakeOk then
            return .abort (.badCommunicationStatus, none)
          return .again (.badCommunicationStatus, none)
      return .accept (.ok, some answer)
    else
      return .again (status, answer)

/-- SOURCE: communication.c:111-172 -/
def command (rawSlotRead : SlotRead σ) (rawPacket : Block) (answer : Option Block) :
    Prog σ Reply := do
  match ← retry (commandAttempt env rawSlotRead rawPacket) maxAttempts (.ok, answer) with
  | .ok reply => return reply
  | .error reply => return reply

end Atsha204.Model
