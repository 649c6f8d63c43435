import Atsha204.Interface.WriteRequest

/-!
# What the bottom layer yields, and what is delivered of it

The exchanges of one command packet with the device, one after the other, as a sequence of
outcomes: an error, or an answer. Of the answers some are good, and one of them, the status
of a wake, ends a command at once.
-/

set_option autoImplicit false

namespace Atsha204.Interface

open Atsha204.Library
open Atsha204.Model

variable {σ : Type}

/-! ## Outcomes -/

/-- The state of the bus after some exchanges. -/
def busAfter (exchange : σ → Option Frame × σ) (b : σ) : ℕ → σ
  | 0 => b
  | n + 1 => (exchange (busAfter exchange b n)).2

/-- The frame that exchange `i` of a command brings, counted from zero. -/
def outcomeFrame (bus : I2cBus σ) (bytes : Block) (b : σ) (i : ℕ) : Option Frame :=
  (commandExchange bus bytes (busAfter (commandExchange bus bytes) b i)).1

/-- Outcome `i` of the bottom layer: `none` is an error code.
SOURCE: layer_ni2c.c:97-123 -/
def outcome (bus : I2cBus σ) (bytes : Block) (b : σ) (i : ℕ) : Option Block :=
  (outcomeFrame bus bytes b i).bind frameAnswer

/-- Outcome `i` is an error, or an answer of at least three bytes. -/
def ErrorOrAnswer (bus : I2cBus σ) (bytes : Block) (b : σ) (i : ℕ) : Prop :=
  ∀ frame, outcomeFrame bus bytes b i = some frame →
    ∃ answer, frameAnswer frame = some answer ∧ 3 ≤ answer.length

/-! ## Answers -/

/-- The statuses that a command does not let through. -/
def filteredStatuses : List UInt8 :=
  [atsha204StatusParseError, atsha204StatusExecError, atsha204StatusCommunicationError,
    atsha204StatusWakeOk]

/-- An answer that passes the check and is no packet of four bytes with a filtered status. -/
def GoodAnswer (answer : Block) : Prop :=
  checkPacket answer = some true ∧
    ¬ (answer.length = 4 ∧ ∃ status ∈ filteredStatuses, answer[1]? = some status)

/-- A valid packet of four bytes with the status of a wake. -/
def WakeAnswer (answer : Block) : Prop :=
  checkPacket answer = some true ∧ answer.length = 4 ∧ answer[1]? = some atsha204StatusWakeOk

/-- Outcome `i` is a good answer. -/
def GoodAt (bus : I2cBus σ) (bytes : Block) (b : σ) (i : ℕ) : Prop :=
  ∃ answer, outcome bus bytes b i = some answer ∧ GoodAnswer answer

/-- Outcome `i` is the answer to a wake. -/
def WakeAt (bus : I2cBus σ) (bytes : Block) (b : σ) (i : ℕ) : Prop :=
  ∃ answer, outcome bus bytes b i = some answer ∧ WakeAnswer answer

end Atsha204.Interface
