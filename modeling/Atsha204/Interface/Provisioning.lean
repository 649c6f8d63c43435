import Atsha204.Interface.EmulatedStorage
import Atsha204.Model.ChipTools

/-!
# Provisioning

What a run of `init` has read from the configuration file.
-/

set_option autoImplicit false

namespace Atsha204.Interface

open Atsha204.Library
open Atsha204.Model

variable {σ : Type}

/-- Both calls of `read_config` in a run of `init` succeed, and these are the buffers they
fill.
SOURCE: init.c:166-181 -/
def ReadByInit (env : Env σ) (content : List UInt8) (data otp : Block) : Prop :=
  ∃ conf conf',
    (readConfig env (env.uninitBuffer .initData (slotCnt * bytesizeKey)).val bytesizeKey).run
      ⟨content, content⟩ = .ok (some data) conf ∧
    (readConfig env (env.uninitBuffer .initOtp (slotCnt * bytesizeOtp)).val bytesizeOtp).run
      conf = .ok (some otp) conf'

/-- A read succeeds, whatever number it is to be read into. -/
def Readable (env : Env σ) (s : St σ) (read : StorageRead) : Prop :=
  ∀ number, ∃ r s', (read.run env number).run s = .ok (.ok, r) s'

/-- A read gives these bytes, whatever number it is to be read into. -/
def ReadsAs (env : Env σ) (s : St σ) (read : StorageRead) (bytes : Block) : Prop :=
  ∀ number, ∃ r s', (read.run env number).run s = .ok (.ok, r) s' ∧ Holds r bytes

end Atsha204.Interface
