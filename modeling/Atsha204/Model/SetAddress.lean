import Atsha204.Model.MacCommand

/-!
# `chiptools/main.c`: a new address for the device

The command `set-address` takes a number, as `parse_number` returns it, and hands it to the
library narrowed to `unsigned char`.
-/

set_option autoImplicit false

namespace Atsha204.Model

variable {σ : Type} (env : Env σ)

/-- No number is both below 1 and above 0x7E, so none is refused here either.
SOURCE: main.c:297-306, main.c:334-343 -/
def setAddress (newAddr : Int) : Prog σ CommandResult := do
  if newAddr < 1 ∧ newAddr > 0x7E then
    return ⟨1, [], "Requested address is out of range\n"⟩
  let (errcode, _) ← atshaChangeAddress env (toUnsignedChar newAddr)
  if errcode ≠ .ok then
    return ⟨2, [], "Command failed\n"⟩
  return ⟨0, ["Address changed successfully\n".toUTF8.toList], ""⟩

end Atsha204.Model
