import Atsha204.Interface.BusCalls
import Atsha204.Model.LockFile

/-!
# What the lock file is for

Openers take turns: from `flock` to `LOCK_UN` or a failure the device is one opener's alone
(`holdsLock`), and no tenure is meant to be longer than the alarm that `atsha_open_ni2c_dev`
sets allows. In between the process lends its alarm and its action for `SIGALRM`
(`armed`) and is meant to get both back.

`Sequential` says of a state what is so in every program of one thread: no two openers of one
process are inside of `atsha_open_ni2c_dev` or `atsha_close` at once.
-/

set_option autoImplicit false

namespace Atsha204.Interface

open Atsha204.Library
open Atsha204.Model

variable {ι π α β σ : Type}

/-! ## Places -/

/-- The opener has taken the lock and not given it back. -/
def holdsLock : Place α → Bool
  | .locked | .opened | .bound | .allocated | .alarmed .. | .running .. | .fdClosed .. => true
  | .failing why => why != .lockBusy
  | _ => false

/-- The opener has set the alarm of its process and not set it back. -/
def armed : Place α → Bool
  | .alarmed .. | .running .. | .fdClosed .. | .unlocked .. | .sigRestored .. => true
  | _ => false

/-- The opener is inside of `atsha_open_ni2c_dev` or of `atsha_close`. -/
def insideCall : Place α → Bool
  | .start | .running .. | .closed _ | .refused _ | .killed => false
  | _ => true

/-- When the alarm of the opener was set. -/
def armedSince : Place α → Option ℕ
  | .alarmed _ since => some since
  | .running saved _ => some saved.since
  | .fdClosed saved _ | .unlocked saved _ | .sigRestored saved _ => some saved.since
  | _ => none

/-- Nothing is left to be done for the opener. -/
def settled : Place α → Bool
  | .closed _ | .refused _ | .killed => true
  | _ => false

/-- The failures that leave the device node open.
SOURCE: api.c:169-186 -/
def leavesNode : OpenFailure → Bool
  | .address | .memory => true
  | _ => false

/-! ## Runs -/

section Runs

variable [DecidableEq ι] [DecidableEq π] (process : ι → π) (bus : I2cBus σ)
  (program : ι → BusProgram α)

/-- The states that runs of the whole lead to. -/
def Reaches (u u' : Users ι π α σ) : Prop :=
  Relation.ReflTransGen (UsersStep process bus program) u u'

/-- No two openers of one process are at once inside of a call that opens or closes. -/
def Sequential (u : Users ι π α σ) : Prop :=
  ∀ i j, process i = process j → insideCall (u.place i) = true → insideCall (u.place j) = true →
    i = j

/-- The states that runs of programs of one thread lead to. -/
def ReachesSequentially (u u' : Users ι π α σ) : Prop :=
  Relation.ReflTransGen
    (fun u u' => UsersStep process bus program u u' ∧ Sequential process u') u u'

end Runs

/-! ## Turns -/

/-- What an opener gets that makes these calls alone, on a handle that was just opened. -/
def aloneOn (openssl : OpenSsl) (uninit : Uninit) (charSigned : Bool) (bus : I2cBus σ)
    (calls : List PublicCall) (b : σ) :
    (Except Fault (List (AtshaErr × Output)) × AtshaHandle) × σ :=
  ending ((callAll (envOn openssl uninit bus) charSigned calls).run ⟨openNi2cDev, b, []⟩)

/-- The program makes these calls, on every bus. -/
def Performs (openssl : OpenSsl) (uninit : Uninit) (charSigned : Bool)
    (t : BusProgram (List (AtshaErr × Output))) (calls : List PublicCall) : Prop :=
  ∀ (σ : Type) (bus : I2cBus σ) (b : σ),
    t.run (busAnswer bus) b = aloneOn openssl uninit charSigned bus calls b

/-- The openers that were behind the lock so far, one after the other: who had the time to run
its whole program with the value and the handle it ended with, who failed or died on the way
without them. -/
abbrev Tenures (ι α : Type) := List (ι × Option (Except Fault α × AtshaHandle))

/-- Tenures one after the other account for what the openers see of the device. -/
structure Serializes (bus : I2cBus σ) (program : ι → BusProgram α) (b₀ : σ) (u : Users ι π α σ)
    (tenures : Tenures ι α) : Prop where
  /-- Nobody has the device: it is where they lead to. -/
  idle : (∀ i, holdsLock (u.place i) = false) →
    Serial (busAnswer bus) program b₀ tenures u.bus
  /-- Somebody has: it has got from there to where the device is. -/
  busy : ∀ i saved left, u.place i = .running saved left →
    ∃ b, Serial (busAnswer bus) program b₀ tenures b ∧
      Progress (busAnswer bus) (program i) b left u.bus
  /-- What an opener that has closed its handle got is what it gets alone from where the
  tenures before its own lead to. -/
  results : ∀ i result, u.place i = .closed result →
    ∃ before after b handle, tenures = before ++ (i, some (.ok result, handle)) :: after ∧
      Serial (busAnswer bus) program b₀ before b ∧
      ((program i).run (busAnswer bus) b).1 = (.ok result, handle)

end Atsha204.Interface
