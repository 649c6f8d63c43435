import Atsha204.Interface.ReadingCalls
import Atsha204.Model.Clients

/-!
# A key server and its devices

A key server knows a device by the serial number that it gives out, the number of a slot and the key
in that slot (`Credential`). Challenge by challenge, it works out what the device has to answer. A
device is meant to be accepted with its own credential, and with no other one, unless what the chip
and the server take the HMAC of differs and has the same HMAC (`Credential.Collides`).
-/

set_option autoImplicit false

namespace Atsha204.Interface

open Atsha204.Library
open Atsha204.Model

variable {σ : Type}

/-! ## Credentials -/

/-- What a key server keeps of a device. -/
structure Credential where
  slot : Fin 16
  serial : List.Vector UInt8 8
  key : List.Vector UInt8 32

/-- It is one of the chip. -/
structure Credential.Of (credential : Credential) (chip : Chip) : Prop where
  serial : chip.serial = credential.serial.val
  key : chip.key credential.slot = credential.key.val

/-- The HMAC that the holder of the key in a slot answers a challenge with.
SOURCE: api.c:485-490, configuration.h:52 -/
def digestAnswer (openssl : OpenSsl) (slotNumber : UInt8) (key serial : Block)
    (challenge : List.Vector UInt8 32) : Option Block :=
  ChallengeRequest.digest openssl slotNumber ⟨.hmac, challenge, true⟩ key serial

def Credential.answer (openssl : OpenSsl) (credential : Credential)
    (challenge : List.Vector UInt8 32) : Option Block :=
  digestAnswer openssl (UInt8.ofNat credential.slot) credential.key.val credential.serial.val
    challenge

/-- The message that the answer to a challenge is the HMAC of.
SOURCE: emulation.c:52-157, hmactest/main.c:31-95 -/
def hmacText (slotNumber : UInt8) (serial : Block) (challenge : List.Vector UInt8 32) : Block :=
  List.replicate 32 0 ++ challenge.val ++
    messageTail atsha204OpcodeHmac (digestMode 0x04 true) slotNumber serial

/-- To a challenge, these bytes are the HMAC of the message for one of the slots of the chip under
its key, and that of the message for the credential under its own key, and the two messages or the
two keys differ. -/
def Credential.Collides (openssl : OpenSsl) (credential : Credential) (chip : Chip)
    (challenge : List.Vector UInt8 32) (bytes : Block) : Prop :=
  ∃ slot : Fin 16,
    let own := (chip.key slot, hmacText (UInt8.ofNat slot) chip.serial challenge)
    let kept := (credential.key.val,
      hmacText (UInt8.ofNat credential.slot) credential.serial.val challenge)
    own ≠ kept ∧ openssl.hmac own.1 own.2 = some bytes ∧ openssl.hmac kept.1 kept.2 = some bytes

/-! ## Devices -/

/-- A link that can be relied on, to a device that sleeps and has this chip, with the settings that
`init` makes. -/
structure Attached (env : Env σ) (device : σ → Device) (chip : Chip) (b : σ) : Prop where
  reliable : Reliable env.openssl env.bus device
  provisioned : chip.Provisioned
  chip_eq : (device b).chip = chip
  sleeps : (device b).awake = 0

/-- What the library is compiled for stands for the chip: a device that is attached, or a copy of the
chip in a file. -/
def StandsFor (env : Env σ) (device : σ → Device) (chip : Chip) (b : σ) : UseLayer → Prop
  | .ni2c opened => opened = true ∧ Attached env device chip b
  | .emulation file => ∃ content, file = some content ∧ CopiedIn content chip

/-- What is heard from the resolver is a record that announces the slot. -/
def Announcing (dns : Resolution) (origin : Block) (slot : Fin 16) : Prop :=
  ∃ rdata, dns = .record rdata ∧ rdata.length.toNat ≤ 127 ∧
    Announces rdata origin (UInt8.ofNat slot)

/-! ## Rounds -/

/-- A challenge, what the device hears from the resolver, and the uninitialised numbers of either
side. -/
structure AuthRound where
  challenge : List.Vector UInt8 32
  dns : Resolution
  deviceNumbers : AtshaBigInt × AtshaBigInt
  serverNumbers : AtshaBigInt × AtshaBigInt

/-- Rounds one after the other, with what a party ends each of them with. -/
def answers (answer : AuthRound → Prog σ PyResult) : List AuthRound → Prog σ (List PyResult)
  | [] => return []
  | round :: rounds => do
    let result ← answer round
    let results ← answers answer rounds
    return result :: results

/-- The device is opened anew for every round. -/
def deviceAnswer (env : Env σ) (charSigned : Bool) (layer : UseLayer) (round : AuthRound) :
    Prog σ PyResult :=
  atshaDoHmac env charSigned layer round.dns round.challenge.val round.deviceNumbers.1
    round.deviceNumbers.2

/-- What the server expects from the holder of a credential. -/
def serverAnswer (env : Env σ) (charSigned : Bool) (dns : Resolution) (credential : Credential)
    (round : AuthRound) : Prog σ PyResult :=
  atshaEmulateHmac env charSigned dns (UInt8.ofNat credential.slot) credential.serial.val
    credential.key.val round.challenge.val round.serverNumbers.1 round.serverNumbers.2

/-! ## What the server makes of any arguments -/

/-- What `emulate_hmac` is to end with, for a serial number of eight bytes or more. Of a longer one
only the first eight count. -/
def EmulatedResult (openssl : OpenSsl) (slotId : UInt8) (serial key challenge : Block)
    (result : PyResult) : Prop :=
  if key.length ≠ 32 then result = .error (.valueError "key length should be 32!")
  else match carriedChallenge challenge with
    | none => result = .error (.valueError "challenge length should be 32!")
    | some challenge =>
      if slotId = dnsErrConst then result = .error (.valueError (atshaErrorName .dnsGetKey))
      else if slotId > atsha204MaxSlotNumber then
        result = .error (.valueError (atshaErrorName .invalidInput))
      else match digestAnswer openssl slotId key (serial.take 8) challenge with
        | some bytes => result = .ok bytes
        | none => ∃ status : AtshaErr, status ≠ .ok ∧
          result = .error (.valueError (atshaErrorName status))

end Atsha204.Interface
