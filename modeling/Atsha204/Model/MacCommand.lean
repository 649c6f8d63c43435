import Atsha204.Model.ChallengeInput
import Atsha204.Model.Dnsmagic

/-!
# `atsha204cmd/main.c`: the list of MAC addresses

The command `mac` takes a number of addresses and prints as many of them, from the one in the
OTP memory on. A command ends with an exit code and with what it wrote to the two standard
streams. The argument is the number as `atoi` returns it; whether `char` is signed is a
parameter (`charSigned`), since the loop counts in one.
-/

set_option autoImplicit false

namespace Atsha204.Model

open Atsha204.Library

variable {σ : Type} (env : Env σ) (charSigned : Bool)

/-! ## Numbers and texts -/

/-- SOURCE: atsha204consts.h:71-72 -/
def atsha204OtpMemoryMapMacPrefix : UInt8 := 0x03
def atsha204OtpMemoryMapMacAddr : UInt8 := 0x04

/-- An integer narrowed to `unsigned char`. -/
def toUnsignedChar (n : Int) : UInt8 := UInt8.ofNat (n % 256).toNat

/-- The conversion is modulo 256. -/
theorem toUnsignedChar_toNat (n : Int) : ((toUnsignedChar n).toNat : Int) = n % 256 := by
  have hlow : 0 ≤ n % 256 := Int.emod_nonneg n (by decide)
  have hhigh : n % 256 < 256 := Int.emod_lt_of_pos n (by decide)
  rw [toUnsignedChar, UInt8.toNat_ofNat']
  omega

/-- SOURCE: error.c:22-54 -/
def atshaErrorName : AtshaErr → String
  | .ok => "OK"
  | .memoryAllocationError => "Memory allocation error. Some memory allocation failed."
  | .invalidInput => "Invalid input parameter."
  | .communication =>
    "Communication error: is not possible to send packet to the device, receive packet " ++
      "from the device, or multiple times was delivered/received malformed packet."
  | .badCommunicationStatus =>
    "Communication crashed due to bad status code from ATSHA204 device. Please, use " ++
      "verbose mode for more information."
  | .notImplemented =>
    "Operation not implemented. Requested function or feature in not implemented in " ++
      "applicable layer (yet)."
  | .configFileBadFormat => "Configuration file has bad formatting."
  | .dnsGetKey => "Information about slot id couldn't be obtained from DNS."
  | .wakeNotConfirmed => "Is not confirmed if device is wake up or not."

/-- A byte as `%02X` writes it. -/
def pairText (b : UInt8) : List UInt8 := [upperDigit (b.toNat / 16), upperDigit (b.toNat % 16)]

/-- Bytes with colons between them, and a newline.
SOURCE: main.c:294 -/
def macText (bytes : Block) : List UInt8 :=
  (List.intersperse [0x3A] (bytes.map pairText)).flatten ++ [0x0A]

/-! ## The loop -/

/-- The number in the OTP word.
SOURCE: main.c:278-280 -/
def macAsNumber (data : Block) : Option UInt32 := do
  let d1 ← peek data 1
  let d2 ← peek data 2
  let d3 ← peek data 3
  let number : UInt32 := 0
  let number := number ||| (d1.toUInt32 <<< 16)
  let number := number ||| (d2.toUInt32 <<< 8)
  return number ||| d3.toUInt32

/-- The last three bytes of an address, filled in from the back.
SOURCE: main.c:290-292 -/
def macTail (macAsNumber : UInt32) : Block :=
  let fifth := (macAsNumber &&& 0xFF).toUInt8
  let macAsNumber := macAsNumber >>> 8
  let fourth := (macAsNumber &&& 0xFF).toUInt8
  let macAsNumber := macAsNumber >>> 8
  let third := (macAsNumber &&& 0xFF).toUInt8
  [third, fourth, fifth]

/-- The rounds from a value of the counter on, and the lines they print.
SOURCE: main.c:286-295 -/
def macLoop (n : UInt8) (tmpMac : Block) : ℕ → UInt8 → UInt32 → Option (List (List UInt8))
  | 0, _, _ => none
  | fuel + 1, i, macAsNumberOrig => do
    if charValue charSigned i < (n.toNat : Int) then
      let lines ← macLoop n tmpMac fuel (i + 1) (macAsNumberOrig + 1)
      return macText (tmpMac ++ macTail macAsNumberOrig) :: lines
    else return []

/-! ## The command -/

/-- What a command leaves behind: its exit code, the lines on the standard output, and the
text on the standard error stream. -/
structure CommandResult where
  exitCode : ℕ
  stdout : List (List UInt8)
  stderr : String
  deriving DecidableEq

/-- The numbers of the caller are uninitialised, so their content is an argument here.
SOURCE: main.c:247-296 -/
def macCommand (fuel : ℕ) (count : Int) (macPrefix addr : AtshaBigInt) :
    Prog σ CommandResult := do
  let n := toUnsignedChar count
  if n ≤ 0 then
    return ⟨1, [], "Bad MAC address count requested.\n"⟩
  let (status, macPrefix) ← atshaRawOtpRead env atsha204OtpMemoryMapMacPrefix macPrefix
  if status ≠ .ok then
    return ⟨3, [], ": Get MAC address prefix failed: " ++ atshaErrorName status ++ "\n"⟩
  let (status, addr) ← atshaRawOtpRead env atsha204OtpMemoryMapMacAddr addr
  if status ≠ .ok then
    return ⟨3, [], "Get MAC address suffix failed: " ++ atshaErrorName status ++ "\n"⟩
  let tmpMac ← access (copyOut (macPrefix.data.val.drop 1) 3)
  let macAsNumberOrig ← access (macAsNumber addr.data.val)
  if macAsNumberOrig > 0xFFFFFF - n.toUInt32 then
    return ⟨4, [], "MAC address count is to big!\n"⟩
  match macLoop charSigned n tmpMac fuel 0 macAsNumberOrig with
  | none => throw .outOfFuel
  | some lines => return ⟨0, lines, ""⟩

end Atsha204.Model
