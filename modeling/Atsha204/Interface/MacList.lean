import Atsha204.Model.MacCommand
import Atsha204.Interface.SlotAnnouncement

/-!
# The list of MAC addresses

An address is the prefix and a number of three bytes. The command is to end, and either to
refuse a count that there are not so many addresses for, or to list exactly the count.
-/

set_option autoImplicit false

namespace Atsha204.Interface

open Atsha204.Library
open Atsha204.Model

variable {σ : Type}

/-- The three bytes behind the first one of an OTP word. -/
def threeBytes (word : AtshaBigInt) : Block := (word.data.val.drop 1).take 3

/-- The number that the first address has behind the prefix. -/
def macBase (addr : AtshaBigInt) : ℕ := bigEndian (threeBytes addr)

/-- A number as three bytes, the most significant one first. -/
def numberBytes (number : ℕ) : Block :=
  [UInt8.ofNat (number / 2 ^ 16), UInt8.ofNat (number / 2 ^ 8), UInt8.ofNat number]

/-- The OTP words of the prefix and of the first address can be read. -/
structure MacWords (env : Env σ) (number number' macPrefix addr : AtshaBigInt) (s : St σ) :
    Prop where
  read : ∃ s₁ s₂,
    (atshaRawOtpRead env atsha204OtpMemoryMapMacPrefix number).run s = .ok (.ok, macPrefix) s₁ ∧
    (atshaRawOtpRead env atsha204OtpMemoryMapMacAddr number').run s₁ = .ok (.ok, addr) s₂

/-- The command fails without an address, for a count that is out of range or too big. -/
structure CountRefused (count : Int) (base : ℕ) (result : CommandResult) : Prop where
  failed : result.exitCode ≠ 0
  silent : result.stdout = []
  reason : count < 1 ∨ 255 < count ∨ 0xFFFFFF < base + count - 1

/-- The command lists exactly the addresses from the first one on; no number reaches into the
prefix. -/
structure ExactList (count : Int) (macPrefix : Block) (base : ℕ) (result : CommandResult) :
    Prop where
  succeeded : result.exitCode = 0
  counted : (result.stdout.length : Int) = count
  line : ∀ (k : ℕ) (hk : k < result.stdout.length),
    result.stdout[k] = macText (macPrefix ++ numberBytes (base + k)) ∧ base + k ≤ 0xFFFFFF
  distinct : result.stdout.Nodup

/-- The command ends, and does one or the other. -/
def MacListExact (env : Env σ) (charSigned : Bool) (count : Int)
    (number number' macPrefix addr : AtshaBigInt) (s : St σ) : Prop :=
  ∃ fuel result s',
    (macCommand env charSigned fuel count number number').run s = .ok result s' ∧
    (CountRefused count (macBase addr) result ∨
      ExactList count (threeBytes macPrefix) (macBase addr) result)

/-- A count in range goes beyond the addresses that there are, or leaves one of them over and is
reached by the counter. Any other count is narrowed to zero, or to one that does not leave an
address over. -/
def MacCountSound (charSigned : Bool) (count : Int) (base : ℕ) : Prop :=
  if 1 ≤ count ∧ count ≤ 255 then
    0x1000000 < base + count ∨
      (base + count < 0x1000000 ∧ (charSigned = true → count ≤ 127))
  else count % 256 = 0 ∨ 0x1000000 ≤ base + count % 256

end Atsha204.Interface
