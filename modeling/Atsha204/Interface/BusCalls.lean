import Atsha204.Interface.EmulatedDevice
import Atsha204.Model.BusCall

/-!
# The library as programs that call on the bus

Taken apart at its calls on the bus, a program of the library is a tree (`BusProgram`) over
the handle it starts with: `Interacts` says that on every bus the program does what the tree
does. The trace is left out: no function reads it.
-/

set_option autoImplicit false

namespace Atsha204.Interface

open Atsha204.Library
open Atsha204.Model

variable {σ α : Type}

/-- What a run leaves behind, without its trace. -/
def ending : EStateM.Result Fault (St σ) α → (Except Fault α × AtshaHandle) × σ
  | .ok a s => ((.ok a, s.handle), s.bus)
  | .error e s => ((.error e, s.handle), s.bus)

/-- A program for every bus. -/
abbrev OnEveryBus (α : Type) := (σ : Type) → I2cBus σ → Prog σ α

/-- On every bus and from every state, the program does what the tree does. -/
def Interacts (x : OnEveryBus α) (tree : AtshaHandle → BusProgram α) : Prop :=
  ∀ (σ : Type) (bus : I2cBus σ) (s : St σ),
    ending ((x σ bus).run s) = (tree s.handle).run (busAnswer bus) s.bus

/-- The program meets the bus in its calls only. -/
def Interactive (x : OnEveryBus α) : Prop := ∃ tree, Interacts x tree

/-- Surroundings with a given bus. -/
def envOn (openssl : OpenSsl) (uninit : Uninit) {σ : Type} (bus : I2cBus σ) : Env σ :=
  ⟨bus, openssl, uninit⟩

/-- The surroundings have these digests. -/
@[simp] theorem envOn_openssl (openssl : OpenSsl) (uninit : Uninit) {σ : Type} (bus : I2cBus σ) :
    (envOn openssl uninit bus).openssl = openssl := rfl

/-- They have this uninitialised memory. -/
@[simp] theorem envOn_uninit (openssl : OpenSsl) (uninit : Uninit) {σ : Type} (bus : I2cBus σ) :
    (envOn openssl uninit bus).uninit = uninit := rfl

/-- Public operations one after the other, with their results. -/
def callAll (env : Env σ) (charSigned : Bool) :
    List PublicCall → Prog σ (List (AtshaErr × Output))
  | [] => return []
  | call :: calls => do
    let result ← call.run env charSigned
    let results ← callAll env charSigned calls
    return result :: results

end Atsha204.Interface
