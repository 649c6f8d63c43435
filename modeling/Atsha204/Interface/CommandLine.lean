import Atsha204.Interface.Authentication
import Atsha204.Interface.HexText
import Atsha204.Interface.MacList

/-!
# What the command line tool prints

The output of a command of `atsha204cmd` is meant to be what the chip holds or answers, as text: a
line of digits for a number, a line for each MAC address. `Ends` says it for the commands whose
output the chip determines, so not for random numbers.
-/

set_option autoImplicit false

namespace Atsha204.Interface

open Atsha204.Library
open Atsha204.Model

/-- A number as a line of upper case digits. -/
def numberLine (bytes : Block) : List UInt8 := bytes.flatMap pairText ++ [0x0A]

/-- The prefix of the addresses in the chip. -/
def Chip.macPrefix (chip : Chip) : Block := (chip.otpWord 3).drop 1

/-- The number behind the prefix of the first one. -/
def Chip.macBase (chip : Chip) : ℕ := bigEndian ((chip.otpWord 4).drop 1)

/-- Some addresses, from the first one on. -/
def Chip.macAddresses (chip : Chip) (count : ℕ) : List (List UInt8) :=
  (List.range count).map fun k => macText (chip.macPrefix ++ numberBytes (chip.macBase + k))

/-- What a command is to end with. For a challenge the record that is found has to announce a slot;
the challenge is given in one of the documented forms, on a line of its own, or as the content that
its hash is taken of. A count of addresses leaves one of them over and is reached by the counter.
SOURCE: main.c:40-61, main.c:131-302 -/
inductive CmdCommand.Ends (openssl : OpenSsl) (charSigned : Bool) (chip : Chip) (dns : Resolution) :
    CmdCommand → CommandResult → Prop where
  | serialNumber : Ends openssl charSigned chip dns .serialNumber
      ⟨0, [numberLine chip.serial], ""⟩
  | hwRev : Ends openssl charSigned chip dns .hwRev ⟨0, [numberLine (chip.otpWord 0)], ""⟩
  | challengeResponse (slot : Fin 16) (announcing : Announcing dns (chip.otpWord 2) slot)
      (form : TextForm) (challenge : List.Vector UInt8 atshaMaxDataSize) (rest : List UInt8)
      (bytes : Block)
      (digest : chip.digest openssl (UInt8.ofNat slot) ⟨.hmac, challenge, true⟩ = some bytes) :
      Ends openssl charSigned chip dns
        (.challengeResponse (form.text challenge.val ++ 0x0A :: rest)) ⟨0, [numberLine bytes], ""⟩
  | noInput : Ends openssl charSigned chip dns (.challengeResponse [])
      ⟨2, [], "Input couldn't be read.\n"⟩
  | fileChallengeResponse (slot : Fin 16) (announcing : Announcing dns (chip.otpWord 2) slot)
      (stdin : List UInt8) (challenge : List.Vector UInt8 32) (bytes : Block)
      (hash : openssl.sha256 stdin = some challenge)
      (digest : chip.digest openssl (UInt8.ofNat slot) ⟨.hmac, challenge, true⟩ = some bytes) :
      Ends openssl charSigned chip dns (.fileChallengeResponse stdin)
        ⟨0, [numberLine bytes], ""⟩
  | mac (count : ℕ) (positive : 1 ≤ count) (small : count ≤ 255)
      (fits : chip.macBase + count < 0x1000000) (reached : charSigned = true → count ≤ 127) :
      Ends openssl charSigned chip dns (.mac count) ⟨0, chip.macAddresses count, ""⟩
  | tooMany (count : ℕ) (positive : 1 ≤ count) (small : count ≤ 255)
      (full : 0x1000000 ≤ chip.macBase + count) :
      Ends openssl charSigned chip dns (.mac count) ⟨4, [], "MAC address count is to big!\n"⟩
  | noCount : Ends openssl charSigned chip dns (.mac 0)
      ⟨1, [], "Bad MAC address count requested.\n"⟩
  | unknown : Ends openssl charSigned chip dns .unknown ⟨1, [], ""⟩

/-- The tool says that the device has failed it, and prints nothing. -/
def DeviceFailed (result : CommandResult) : Prop := result.exitCode = 3 ∧ result.stdout = []

end Atsha204.Interface
