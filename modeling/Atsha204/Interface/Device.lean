import Atsha204.Interface.Alarm
import Atsha204.Interface.ApiCall
import Atsha204.Interface.Chip

/-!
# A device that can be relied on

What is known of a chip that is asked: by the locks and the settings in its configuration zone, a
read is answered or refused, and the digest of a challenge is worked out (`Device.reaction`). The
rules are those of the datasheet that comes with the repository, for the packets that the library
sends (`Inquiry`); where it leaves the answer open, so do they.

A link can be relied on (`Reliable`) where every wake, and every inquiry that the device answers,
goes through at the first attempt. It is `Honest` where an answer that is accepted, at whatever
attempt, is the device's own.

The configuration file is meant to be a copy of the chip (`CopiedIn`), so that the emulated
device over the file answers every request as the chip does (`SameAnswers`).
-/

set_option autoImplicit false

namespace Atsha204.Interface

open Atsha204.Library
open Atsha204.Model
open Atsha204.Analysis (answerPacket commandPacket)

variable {σ τ : Type}

/-! ## What the chip holds -/

/-- A word of the OTP zone. -/
def Chip.otpWord (chip : Chip) (address : ℕ) : Block := (chip.otp.val.drop (4 * address)).take 4

/-- The key in a slot. -/
def Chip.key (chip : Chip) (slot : ℕ) : Block := (chip.data.val.drop (32 * slot)).take 32

/-- The serial number that the library gives out: the first two OTP words. -/
def Chip.serial (chip : Chip) : Block := chip.otp.val.take 8

/-- The serial number of the chip itself, around four bytes of the revision.
SOURCE: operations.c:171-185 -/
def Chip.ownSerial (chip : Chip) : Block :=
  chip.config.val.take 4 ++ (chip.config.val.drop 8).take 5

/-- The digest of a request under the key of a slot.
SOURCE: hmactest/main.c:31-95, hmactest/main.c:130-190 -/
def Chip.digest (openssl : OpenSsl) (chip : Chip) (slotNumber : UInt8)
    (request : ChallengeRequest) : Option Block := do
  let serial ← serialPart request.useSnInDigest (some chip.serial)
  if slotNumber ≤ atsha204MaxSlotNumber then
    request.digest openssl slotNumber (chip.key slotNumber.toNat) serial
  else none

/-! ## Its settings -/

def Chip.configByte (chip : Chip) (i : ℕ) : UInt8 := chip.config.val.getD i 0

/-- The mode of the OTP zone.
SOURCE: init.c:72-84 -/
def Chip.otpMode (chip : Chip) : UInt8 := chip.configByte 18

/-- The setting of a slot: bits 7 and 6 say how it is read (clear, it is read as it is; bit 7 alone,
never), bits 5 and 4 limit its use.
SOURCE: init.c:86-103 -/
def Chip.slotConfig (chip : Chip) (slot : ℕ) : UInt8 := chip.configByte (20 + 2 * slot)

/-- The bytes of the serial number that are the same in every chip; the library has them in its
messages.
SOURCE: emulation.c:111, emulation.c:125-126 -/
def Chip.makerBytes (chip : Chip) : Block :=
  [chip.configByte 0, chip.configByte 1, chip.configByte 12]

def atmelBytes : Block := [0x01, 0x23, 0xEE]

/-- The chip works out the library's digests under the key of a slot. -/
def Chip.Computes (chip : Chip) (slot : ℕ) : Prop :=
  chip.dataLocked = true ∧ chip.slotConfig slot &&& 0x30 = 0 ∧ chip.makerBytes = atmelBytes

instance (chip : Chip) (slot : ℕ) : Decidable (chip.Computes slot) := by
  unfold Chip.Computes
  infer_instance

/-- A chip with the settings that `init` makes, and locked: the OTP words can be read, and under
every key digests can be worked out.
SOURCE: init.c:72-103, README:28-33 -/
structure Chip.Provisioned (chip : Chip) : Prop where
  locked : chip.dataLocked = true
  otpMode : chip.otpMode = atsha204ConfigOtpmodeReadonly
  slots : ∀ slot : Fin 16, chip.slotConfig slot &&& 0x30 = 0
  maker : chip.makerBytes = atmelBytes

/-! ## What it is asked -/

/-- What the library asks a device: everything that it sends but writes and locks. -/
inductive Inquiry where
  | devRev
  | random
  | configWord (address : UInt8)
  | configBlock
  | otpWord (address : UInt8)
  | slot (slotNumber : Fin 16)
  | nonce (challenge : List.Vector UInt8 32)
  | hmac (slotNumber : Fin 16) (useSnInDigest : Bool)
  | mac (slotNumber : Fin 16) (challenge : List.Vector UInt8 32) (useSnInDigest : Bool)
  deriving DecidableEq

/-- The packet that carries it.
SOURCE: operations.c:61-185 -/
def Inquiry.packet : Inquiry → Block
  | .devRev => commandPacket atsha204OpcodeDevRev 0 0 []
  | .random => commandPacket atsha204OpcodeRandom 0 0 []
  | .configWord address => commandPacket atsha204OpcodeRead
      (getZoneConfig ioMemConfig ioRwNonEnc ioRw4Bytes) address.toUInt16 []
  | .configBlock => commandPacket atsha204OpcodeRead
      (getZoneConfig ioMemConfig ioRwNonEnc ioRw32Bytes) 0 []
  | .otpWord address => commandPacket atsha204OpcodeRead
      (getZoneConfig ioMemOtp ioRwNonEnc ioRw4Bytes) address.toUInt16 []
  | .slot slotNumber => commandPacket atsha204OpcodeRead
      (getZoneConfig ioMemData ioRwNonEnc ioRw32Bytes) (8 * UInt8.ofNat slotNumber).toUInt16 []
  | .nonce challenge => commandPacket atsha204OpcodeNonce 0x03 0 challenge.val
  | .hmac slotNumber useSnInDigest => commandPacket atsha204OpcodeHmac
      (digestMode 0x04 useSnInDigest) (UInt8.ofNat slotNumber).toUInt16 []
  | .mac slotNumber challenge useSnInDigest => commandPacket atsha204OpcodeMac
      (digestMode 0x00 useSnInDigest) (UInt8.ofNat slotNumber).toUInt16 challenge.val

/-- The nonce that the device has behind it: the one that it is given, and none behind any other
command.
SOURCE: devdoc/Atmel-8740-CryptoAuth-ATSHA204-Datasheet.pdf, 2.2.1 -/
def Inquiry.nonceAfter : Inquiry → Option (List.Vector UInt8 32)
  | .nonce challenge => some challenge
  | _ => none

/-- The 32 bytes that come with a command. -/
def carriedChallenge (data : Block) : Option (List.Vector UInt8 32) :=
  if h : data.length = 32 then some ⟨data, h⟩ else none

/-! ## What it does -/

/-- A chip, the nonce it has been given, and for how many commands it stays awake (it falls asleep
by itself some time behind its wake). -/
structure Device where
  chip : Chip
  nonce : Option (List.Vector UInt8 32)
  awake : ℕ

/-- What is known of the reaction to an inquiry: the answer, that there is none but an error, that
the chip stays as it is, or nothing. -/
inductive Reaction where
  | answers (data : Block)
  | refuses
  | untold
  | unsettled
  deriving DecidableEq

/-- A value that is there is the answer. -/
def Reaction.of : Option Block → Reaction
  | some data => .answers data
  | none => .unsettled

/-- The reaction of the device. Neither the slots nor the OTP zone are read before they are locked;
an HMAC needs the nonce; a digest is worked out by a slot whose use is not limited.
SOURCE: devdoc/Atmel-8740-CryptoAuth-ATSHA204-Datasheet.pdf, 2.1.3, 2.2.1, 8.6.4-8.6.13 -/
def Device.reaction (openssl : OpenSsl) (device : Device) : Inquiry → Reaction
  | .devRev | .random => .untold
  | .configWord address =>
    if address < 22 then .answers (configWord device.chip.config.val address.toNat) else .refuses
  | .configBlock => .answers (device.chip.config.val.take 32)
  | .otpWord address =>
    if address ≥ 16 ∨ device.chip.dataLocked = false then .refuses
    else if device.chip.otpMode = atsha204ConfigOtpmodeReadonly ∨
        device.chip.otpMode = 0x00 ∧ address ≥ 2 then
      .answers (device.chip.otpWord address.toNat)
    else if device.chip.otpMode = 0x00 then .refuses
    else .untold
  | .slot slotNumber =>
    if device.chip.dataLocked = false then .refuses
    else if device.chip.slotConfig slotNumber &&& 0x40 ≠ 0 then .untold
    else if device.chip.slotConfig slotNumber &&& 0x80 ≠ 0 then .refuses
    else .answers (device.chip.key slotNumber)
  | .nonce _ => .answers success
  | .hmac slotNumber useSnInDigest =>
    match device.nonce with
    | none => .refuses
    | some challenge =>
      if device.chip.Computes slotNumber then
        .of (device.chip.digest openssl (UInt8.ofNat slotNumber) ⟨.hmac, challenge, useSnInDigest⟩)
      else .unsettled
  | .mac slotNumber challenge useSnInDigest =>
    if device.chip.Computes slotNumber then
      .of (device.chip.digest openssl (UInt8.ofNat slotNumber) ⟨.mac, challenge, useSnInDigest⟩)
    else .unsettled

/-! ## Links to it -/

/-- Every wake, and every inquiry that a waking device answers, goes through at the first attempt.
A device that sleeps stays awake for two commands, and idles when it is told to. -/
structure Reliable (openssl : OpenSsl) (bus : I2cBus σ) (device : σ → Device) : Prop where
  wakes : ∀ b, (device b).awake = 0 →
    ∃ answer b', AtOnce (wakeExchange bus) judgeWake b answer b' ∧
      (device b').chip = (device b).chip ∧ 2 ≤ (device b').awake
  answers : ∀ b inquiry data, 0 < (device b).awake →
    (device b).reaction openssl inquiry = .answers data →
    ∃ b', AtOnce (commandExchange bus inquiry.packet) judgeCommand b (answerPacket data) b' ∧
      (device b').chip = (device b).chip ∧ (device b').nonce = inquiry.nonceAfter ∧
      (device b).awake ≤ (device b').awake + 1
  idles : ∀ b, (device (bus.write [atsha204I2cWaIdle] b).2).chip = (device b).chip ∧
    (device (bus.write [atsha204I2cWaIdle] b).2).awake = 0

/-- An answer that is accepted, and the device behind it, are as the reaction says. -/
def Reaction.Tells (reaction : Reaction) (inquiry : Inquiry) (before : Device) (answer : Block)
    (behind : Device) : Prop :=
  match reaction with
  | .answers data => answer = answerPacket data ∧ behind.chip = before.chip ∧
    behind.nonce = inquiry.nonceAfter
  | .refuses => False
  | .untold => behind.chip = before.chip
  | .unsettled => True

/-- What goes through is true: an answer that is accepted is the one that the device gives to the
inquiry, however often it was sent, and waking and idling leave the chip as it is. -/
structure Honest (openssl : OpenSsl) (bus : I2cBus σ) (device : σ → Device) : Prop where
  wakes : ∀ b b', Confirms bus b b' → (device b').chip = (device b).chip
  answers : ∀ b b' inquiry answer, Answers bus inquiry.packet b answer b' →
    ((device b).reaction openssl inquiry).Tells inquiry (device b) answer (device b')
  idles : ∀ b, (device (bus.write [atsha204I2cWaIdle] b).2).chip = (device b).chip

/-! ## What users ask of it -/

/-- The requests that a locked device and the file stand for alike. -/
inductive Request where
  | otp (address : Fin 16)
  | serialNumber
  | chipSerialNumber
  | respond (slotNumber : Fin 16) (challenge : ChallengeRequest)

def Request.run (env : Env σ) (number : AtshaBigInt) :
    Request → Prog σ (AtshaErr × AtshaBigInt)
  | .otp address => atshaRawOtpRead env (UInt8.ofNat address) number
  | .serialNumber => atshaSerialNumber env number
  | .chipSerialNumber => atshaChipSerialNumber env number
  | .respond slotNumber challenge => challenge.run env (UInt8.ofNat slotNumber) number

/-- What the chip has to answer. -/
def Request.answer (openssl : OpenSsl) (chip : Chip) : Request → Option Block
  | .otp address => some (chip.otpWord address)
  | .serialNumber => some chip.serial
  | .chipSerialNumber => some chip.ownSerial
  | .respond slotNumber challenge => chip.digest openssl (UInt8.ofNat slotNumber) challenge

/-- The serial number in a file: its first two OTP words. -/
def fileSerial (content : List UInt8) : Option Block := do
  let revision ← lineBytes content 16 4
  let serial ← lineBytes content 17 4
  return revision ++ serial

/-- What a configuration file has to answer, from the lines that are meant for it.
SOURCE: mainpage.dox:28-40 -/
def Request.fileAnswer (openssl : OpenSsl) (content : List UInt8) : Request → Option Block
  | .otp address => lineBytes content (16 + address) 4
  | .serialNumber => fileSerial content
  | .chipSerialNumber => lineBytes content 32 9
  | .respond slotNumber challenge => do
    let key ← lineBytes content slotNumber 32
    let serial ← serialPart challenge.useSnInDigest (fileSerial content)
    challenge.digest openssl (UInt8.ofNat slotNumber) key serial

/-- The lines of a file hold what the chip holds: the keys, the OTP words, and its own serial
number.
SOURCE: mainpage.dox:28-40 -/
structure CopiedIn (content : List UInt8) (chip : Chip) : Prop where
  keys : ∀ slot : Fin 16, lineBytes content slot 32 = some (chip.key slot)
  words : ∀ address : Fin 16, lineBytes content (16 + address) 4 = some (chip.otpWord address)
  serial : lineBytes content 32 9 = some chip.ownSerial

/-- How often the library waits for the device while it serves the request: behind each wake and
behind each command.
SOURCE: layer_ni2c.c:73-76, layer_ni2c.c:106-114 -/
def Request.waits : Request → ℕ
  | .otp _ | .chipSerialNumber => 2
  | .serialNumber => 4
  | .respond _ ⟨.hmac, _, _⟩ => 3
  | .respond _ ⟨.mac, _, _⟩ => 2

/-- How often it waits for all the requests of a list. -/
def Request.allWaits : List (Request × AtshaBigInt × AtshaBigInt) → ℕ
  | [] => 0
  | (request, _) :: requests => request.waits + allWaits requests

/-- The two parties answer the requests, one after the other, with success and with the same
bytes each time, which are those that the chip has, and the first of them is in time with each.
Each request comes with the two numbers that the answers go into. -/
def SameAnswers (openssl : OpenSsl) (chip : Chip) (env : Env σ) (env' : Env τ) :
    List (Request × AtshaBigInt × AtshaBigInt) → St σ → St τ → Prop
  | [], _, _ => True
  | (request, number, number') :: requests, s, t =>
    ∃ bytes r s' r' t', request.answer openssl chip = some bytes ∧
      (request.run env number).run s = .ok (.ok, r) s' ∧ Holds r bytes ∧ InTime 0 s' ∧
      (request.run env' number').run t = .ok (.ok, r') t' ∧ Holds r' bytes ∧
      SameAnswers openssl chip env env' requests s' t'

end Atsha204.Interface
