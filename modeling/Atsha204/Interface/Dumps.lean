import Atsha204.Interface.Device
import Atsha204.Model.ChipCommands

/-!
# What a dump shows

A dump of `chiptools` is meant to show a zone of the chip as it is: a title, and a line with a label
and the bytes for each word (`ZoneDump.text`). The chip gives its configuration out at any time, the
OTP zone and the slots only when they are locked, and then only as its settings say (`Readable`).
-/

set_option autoImplicit false

namespace Atsha204.Interface

open Atsha204.Library
open Atsha204.Model

inductive ZoneDump where
  | config
  | otp
  | data
  deriving DecidableEq, Repr

namespace ZoneDump

/-- The command.
SOURCE: chiptools/main.c:238-252 -/
def command : ZoneDump → Command
  | .config => .dumpConfig
  | .otp => .dumpOtp
  | .data => .dumpData

/-- The call that reads a word.
SOURCE: commands.c:32, commands.c:54, commands.c:74 -/
def call : ZoneDump → UInt8 → PlainCall
  | .config => .confRead
  | .otp => .otpRead
  | .data => .slotRead

def count : ZoneDump → ℕ
  | .config => 22
  | .otp | .data => 16

/-- The bytes of a word. -/
def size : ZoneDump → ℕ
  | .config | .otp => 4
  | .data => 32

def title : ZoneDump → String
  | .config => "Config zone (0x00 - 0x15):\n"
  | .otp => "OTP zone (0x00 - 0x0F):\n"
  | .data => "Data zone (slot 0 - 15):\n"

def label : ZoneDump → ℕ → List UInt8
  | .config | .otp => hexLabel
  | .data => decimalLabel

/-- The zone. -/
def bytes (zone : ZoneDump) (chip : Chip) : Block :=
  match zone with
  | .config => chip.config.val
  | .otp => chip.otp.val
  | .data => chip.data.val

def word (zone : ZoneDump) (chip : Chip) (n : ℕ) : Block :=
  ((zone.bytes chip).drop (zone.size * n)).take zone.size

/-- What is shown of the zone. -/
def text (zone : ZoneDump) (chip : Chip) : List UInt8 :=
  textBytes zone.title ++ ((List.range zone.count).flatMap fun n =>
    zone.label n ++ spacedPairs (zone.word chip n) ++ [0x0A]) ++ [0x0A]

/-- The chip gives all of the zone out.
SOURCE: devdoc/Atmel-8740-CryptoAuth-ATSHA204-Datasheet.pdf, 2.1.2, 2.1.3, 8.6.13 -/
def Readable (zone : ZoneDump) (chip : Chip) : Prop :=
  match zone with
  | .config => True
  | .otp => chip.dataLocked = true ∧ chip.otpMode = atsha204ConfigOtpmodeReadonly
  | .data => chip.dataLocked = true ∧ ∀ slot : Fin 16, chip.slotConfig slot &&& 0xC0 = 0

/-- It is known of each word what the chip answers: the OTP zone is not locked or in the read-only
or the legacy mode, and the slots are not locked or none of them is read encrypted.
SOURCE: devdoc/Atmel-8740-CryptoAuth-ATSHA204-Datasheet.pdf, 2.1.2, 2.1.3 -/
def Settled (zone : ZoneDump) (chip : Chip) : Prop :=
  match zone with
  | .config => True
  | .otp => chip.dataLocked = false ∨ chip.otpMode = atsha204ConfigOtpmodeReadonly ∨
    chip.otpMode = 0x00
  | .data => chip.dataLocked = false ∨ ∀ slot : Fin 16, chip.slotConfig slot &&& 0x40 = 0

end ZoneDump

end Atsha204.Interface
