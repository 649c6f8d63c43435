import Atsha204.Model.Api

/-!
# The loop of `idle` over an arbitrary layer

The idle call of the bottom layer is a script of status codes here, one for each call; the
state of the bus counts the calls made. What is asked of the loop is that it returns after a
bounded number of calls, with what these calls say.
-/

set_option autoImplicit false

namespace Atsha204.Interface

open Atsha204.Library
open Atsha204.Model

/-- An idle call of a bottom layer that returns one status after the other. -/
def scriptedIdle (statuses : ℕ → AtshaErr) : Prog ℕ AtshaErr := do
  let calls := (← get).bus
  modify fun s => { s with bus := calls + 1 }
  return statuses calls

/-- One of the next calls returns OK. -/
def OkWithin (statuses : ℕ → AtshaErr) (s : St ℕ) (calls : ℕ) : Prop :=
  ∃ i < calls, statuses (s.bus + i) = .ok

/-- What the loop returned and left, after some calls of the layer. -/
structure IdleOutcome (statuses : ℕ → AtshaErr) (s : St ℕ) (calls : ℕ) (status : AtshaErr)
    (s' : St ℕ) : Prop where
  counted : s'.bus = s.bus + calls
  bounded : calls ≤ maxAttempts
  ok : status = .ok ∧ s'.handle.wakeIsExpected = false ↔ OkWithin statuses s calls
  error : ¬ OkWithin statuses s calls → 0 < calls ∧ status = statuses (s.bus + (calls - 1)) ∧
    s'.handle.wakeIsExpected = s.handle.wakeIsExpected

/-- The loop returns with such an outcome. -/
def IdleBounded (statuses : ℕ → AtshaErr) (s : St ℕ) : Prop :=
  ∃ fuel calls status s',
    (idleLoop (scriptedIdle statuses) trySendRecvOnCommError fuel).run s = .ok status s' ∧
      IdleOutcome statuses s calls status s'

end Atsha204.Interface
