import Atsha204.Interface.Alarm
import Atsha204.Interface.Chip
import Atsha204.Interface.Provisioning

/-!
# What is locked

Each command that a run writes to the bus is in its trace, with the link and the chip
behind it as they were then. `AsIntended` says of such a command that the file had been
read, and, where it is a lock, that the chip holds what was meant to be locked and that
the packet carries the checksum of it.

When the data zones are locked is another question: `LocksDataLate` says that the process
has waited longer by then than the alarm of its handle lets it live.
-/

set_option autoImplicit false

namespace Atsha204.Interface

open Atsha204.Library
open Atsha204.Model

/-- The zone that a command locks. -/
def lockedZone (packet : Block) : Option UInt8 :=
  if peek packet 1 = some atsha204OpcodeLock then peek packet 2 else none

/-- What provisioning makes of byte `i` of the configuration zone: the OTP mode in word 0x04,
the slot configuration in words 0x05 to 0x0C.
SOURCE: init.c:72-103 -/
def intendedByte (i : ℕ) (b : UInt8) : UInt8 :=
  if i = 4 * 0x04 + 2 then atsha204ConfigOtpmodeReadonly
  else if 4 * 0x05 ≤ i ∧ i < 4 * 0x0D then
    if i % 2 = 0 then slotConfigRead else slotConfigWrite
  else b

/-- The checksum that a lock command carries, low byte first. -/
def carriedCrc (packet : Block) : Option (UInt8 × UInt8) := do
  let low ← peek packet 3
  let high ← peek packet 4
  return (low, high)

/-- The configuration zone may be locked: the image that `create_and_lock_config` has built is
what the chip holds, every byte of it is the intended one, and the checksum is the one of
the zone. -/
structure ConfigIntended (env : Env ChipLink) (s : St ChipLink) (packet : Block) (chip : Chip) :
    Prop where
  image : ∃ s', (prepareConfig env).run s = .ok (some chip.config.val) s'
  bytes : chip.config.val = s.bus.chip.config.val.mapIdx intendedByte
  crc : carriedCrc packet = calculateCrc 88 chip.config.val

/-- The data zones may be locked: the configuration zone has been locked and everything has
been written, the chip holds the keys and the OTP words of the file, and the checksum is
the one of both zones. -/
structure DataIntended (env : Env ChipLink) (content : List UInt8) (s : St ChipLink)
    (packet : Block) (chip : Chip) : Prop where
  written : ∃ s₁ s₂, ReadByInit env content chip.data.val chip.otp.val ∧
    (createAndLockConfig env).run s = .ok true s₁ ∧
    (writeData env chip.data.val chip.otp.val).run
      (s₁.exchanged s₁.bus (.printed "Configuration is locked")) = .ok true s₂
  crc : carriedCrc packet = calculateCrc 576 (chip.data.val ++ chip.otp.val)

/-- A command is sent only when both zones of the file have been read, and a lock only when the
chip holds what is to be locked. -/
def AsIntended (env : Env ChipLink) (file : Option (List UInt8)) (s : St ChipLink) :
    Event ChipLink → Prop
  | .written (0x03 :: packet) _ link => ∃ content, file = some content ∧
    (∃ data otp, ReadByInit env content data otp) ∧
    ∀ zone, lockedZone packet = some zone →
      (zone = lockConfig ∧ ConfigIntended env s packet link.chip) ∨
      (zone = lockData ∧ DataIntended env content s packet link.chip)
  | _ => True

/-- In a run of `init`, whether it returns or not, every command is sent as intended. -/
def LocksAsIntended (env : Env ChipLink) (file : Option (List UInt8)) (s : St ChipLink) : Prop :=
  ∀ e ∈ (lastState ((init env file).run s)).trace.drop s.trace.length, AsIntended env file s e

/-- The command locks the data zones. -/
def LocksData {σ : Type} : Event σ → Prop
  | .written (0x03 :: packet) _ _ => lockedZone packet = some lockData
  | _ => False

/-- In a run of `init`, whether it returns or not, a lock of the data zones comes behind so many
waits that an alarm set before the run has gone off by then. -/
def LocksDataLate {σ : Type} (env : Env σ) (file : Option (List UInt8)) (s : St σ) : Prop :=
  ∀ front e back, (lastState ((init env file).run s)).trace = s.trace ++ front ++ e :: back →
    LocksData e → waitsUntilAlarm ≤ front.countP Event.ni2cWait

end Atsha204.Interface
