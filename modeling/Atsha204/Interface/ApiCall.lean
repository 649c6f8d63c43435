import Atsha204.Analysis.Operations
import Atsha204.Interface.Challenge
import Atsha204.Interface.WriteRequest

/-!
# Calls of the public operations

A plain call is one session whose last packet carries the request: its packet, what is
done before it, the number of bytes it asks for, and the answers its decoder takes. The
other operations read a serial number or a revision, or are made of plain calls. For both
there is what a device on the native I2C layer has to answer for the call to go well, in
terms of the link alone, and what an emulated device has to store.
-/

set_option autoImplicit false

namespace Atsha204.Interface

open Atsha204.Library
open Atsha204.Model
open Atsha204.Analysis (payload commandPacket)

variable {σ : Type}

/-! ## Plain calls -/

inductive PlainCall where
  | random
  | slotRead (slotNumber : UInt8)
  | confRead (address : UInt8)
  | otpRead (address : UInt8)
  | respond (kind : DigestKind) (slotNumber : UInt8) (challenge : AtshaBigInt)
      (useSnInDigest : Bool)
  | write (call : WriteCall) (data : AtshaBigInt)
  | lockConfig (crc : UInt8 × UInt8)
  | lockData (crc : UInt8 × UInt8)

/-- An operation that gives no number leaves the one it is called with. -/
def leaving (number : AtshaBigInt) (x : Prog σ (AtshaErr × Unit)) :
    Prog σ (AtshaErr × AtshaBigInt) := do
  let (status, _) ← x
  return (status, number)

def PlainCall.run (env : Env σ) (number : AtshaBigInt) :
    PlainCall → Prog σ (AtshaErr × AtshaBigInt)
  | .random => atshaRandom env number
  | .slotRead slotNumber => atshaRawSlotRead env slotNumber number
  | .confRead address => atshaRawConfRead env address number
  | .otpRead address => atshaRawOtpRead env address number
  | .respond .hmac slotNumber challenge useSnInDigest =>
    atshaLowChallengeResponse env slotNumber challenge number useSnInDigest
  | .respond .mac slotNumber challenge useSnInDigest =>
    atshaLowChallengeResponseMac env slotNumber challenge number useSnInDigest
  | .write call data => leaving number (call.run env data)
  | .lockConfig crc => leaving number (atshaLockConfig env crc)
  | .lockData crc => leaving number (atshaLockData env crc)

/-- The calls that are refused before a session is opened. -/
def PlainCall.Refused : PlainCall → Prop
  | .slotRead slotNumber => atsha204MaxSlotNumber < slotNumber
  | .respond _ slotNumber challenge _ =>
    atsha204MaxSlotNumber < slotNumber ∨ challenge.bytes ≠ 32
  | .write call data => call.Refused data
  | _ => False

/-- The packet that carries the request. -/
def PlainCall.packet : PlainCall → Option Block
  | .random => opRandom
  | .slotRead slotNumber => do
    let address ← getSlotAddress slotNumber
    opRawRead (getZoneConfig ioMemData ioRwNonEnc ioRw32Bytes) address
  | .confRead address => opRawRead (getZoneConfig ioMemConfig ioRwNonEnc ioRw4Bytes) address
  | .otpRead address => opRawRead (getZoneConfig ioMemOtp ioRwNonEnc ioRw4Bytes) address
  | .respond .hmac slotNumber _ useSnInDigest => opHmac slotNumber useSnInDigest
  | .respond .mac slotNumber challenge useSnInDigest =>
    opMac slotNumber challenge.bytes challenge.data.val useSnInDigest
  | .write call data => opRawWrite call.zone call.address data.bytes data.data.val
  | .lockConfig crc => opLock (getLockConfig Model.lockConfig) crc
  | .lockData crc => opLock (getLockConfig Model.lockData) crc

/-- The number of bytes that the request asks for; none where it asks for a status. -/
def PlainCall.asked : PlainCall → Option ℕ
  | .random | .slotRead _ | .respond .. => some 32
  | .confRead _ | .otpRead _ => some 4
  | .write .. | .lockConfig _ | .lockData _ => none

/-- Loading a nonce: the first exchange of an HMAC.
SOURCE: api.c:518-534 -/
def loadNonce (env : Env σ) (challenge : AtshaBigInt) : Prog σ (AtshaErr × Unit) :=
  statusExchange (send env) (opNonce challenge.bytes challenge.data.val) opNonceRecv

/-- What is done before the packet is sent: the device is woken, and for an HMAC it is given
its nonce. -/
def PlainCall.prologue (env : Env σ) : PlainCall → Prog σ AtshaErr
  | .respond .hmac _ challenge _ => do
    let status ← wake env
    if status ≠ .ok then
      return status
    let (status, _) ← loadNonce env challenge
    return status
  | _ => wake env

/-- The answers that the decoder of a request takes: one to thirty-two bytes of data, or the
status of success.
SOURCE: operations.c:40-59 -/
def Takes : Option ℕ → Block → Prop
  | some _, answer => 4 ≤ answer.length ∧ answer.length ≤ 35
  | none, answer => peek answer 1 = some atsha204StatusSucces

/-! ## The other operations -/

inductive ApiCall where
  | plain (call : PlainCall)
  | devRev
  | chipSerialNumber
  | serialNumber
  | changeAddress (address : UInt8)

/-- The status of a call, made with these numbers for its result. -/
def ApiCall.run (env : Env σ) (number : AtshaBigInt) (revision : UInt32) :
    ApiCall → Prog σ AtshaErr
  | .plain call => Prod.fst <$> call.run env number
  | .devRev => Prod.fst <$> atshaDevRev env revision
  | .chipSerialNumber => Prod.fst <$> atshaChipSerialNumber env number
  | .serialNumber => Prod.fst <$> atshaSerialNumber env number
  | .changeAddress address => Prod.fst <$> atshaChangeAddress env address

def ApiCall.Refused : ApiCall → Prop
  | .plain call => call.Refused
  | _ => False

/-! ## What the link has to do -/

/-- A device that is not expected to be awake confirms a wake. -/
def Wakes (bus : I2cBus σ) (wakeIsExpected : Bool) (b b' : σ) : Prop :=
  if wakeIsExpected then b' = b else Confirms bus b b'

/-- The bus is led up to the packet of the call. -/
def PlainCall.Before (bus : I2cBus σ) (wakeIsExpected : Bool) (b b' : σ) : PlainCall → Prop
  | .respond .hmac _ challenge _ => ∃ b₁ packet answer,
    Wakes bus wakeIsExpected b b₁ ∧ opNonce challenge.bytes challenge.data.val = some packet ∧
      Answers bus packet b₁ answer b' ∧ Takes none answer
  | _ => Wakes bus wakeIsExpected b b'

/-- A session of one exchange: a wake is confirmed, the packet gets this answer, and the idle
byte is written. -/
def Exchanges (bus : I2cBus σ) (packet : Block) (b : σ) (answer : Block) (b' : σ) : Prop :=
  ∃ b₁ b₂, Confirms bus b b₁ ∧ Answers bus packet b₁ answer b₂ ∧
    b' = (bus.write [atsha204I2cWaIdle] b₂).2

/-- The packets of a four byte read. -/
def confReadPacket (address : UInt8) : Block :=
  commandPacket atsha204OpcodeRead (getZoneConfig ioMemConfig ioRwNonEnc ioRw4Bytes)
    address.toUInt16 []
def otpReadPacket (address : UInt8) : Block :=
  commandPacket atsha204OpcodeRead (getZoneConfig ioMemOtp ioRwNonEnc ioRw4Bytes)
    address.toUInt16 []

/-- The packet that writes an address into a configuration word that was read. -/
def addressPacket (address : UInt8) (answer : Block) : Block :=
  commandPacket atsha204OpcodeWrite (getZoneConfig ioMemConfig ioRwNonEnc ioRw4Bytes)
    atsha204CnfMemoryMapI2cAddress.toUInt16 ((address <<< 1) :: (payload answer).tail)

/-- Over the link, every wake of the call is confirmed, and every packet of it is answered
within the attempts made with an answer that its decoder takes. -/
def ApiCall.ServedOver (bus : I2cBus σ) (b : σ) : ApiCall → Prop
  | .plain call => ∃ b₁ packet answer b₂, call.Before bus false b b₁ ∧
    call.packet = some packet ∧ Answers bus packet b₁ answer b₂ ∧ Takes call.asked answer
  | .devRev => ∃ packet answer b', opDevRev = some packet ∧
    Exchanges bus packet b answer b' ∧ 5 ≤ answer.length
  | .chipSerialNumber => ∃ packet answer b', opSerialNumber = some packet ∧
    Exchanges bus packet b answer b' ∧ 14 ≤ answer.length
  | .serialNumber => ∃ answer answer' b₁ b₂,
    Exchanges bus (otpReadPacket atsha204OtpMemoryMapRevNumber) b answer b₁ ∧
      Takes (some 4) answer ∧
    Exchanges bus (otpReadPacket atsha204OtpMemoryMapSerialNumber) b₁ answer' b₂ ∧
      Takes (some 4) answer'
  | .changeAddress address => ∃ answer answer' b₁ b₂,
    Exchanges bus (confReadPacket atsha204CnfMemoryMapI2cAddress) b answer b₁ ∧
      Takes (some 4) answer ∧
    Exchanges bus (addressPacket address answer) b₁ answer' b₂ ∧ Takes none answer'

/-! ## What an emulated device has to store -/

/-- The emulated device has what the call is about; it executes no write, no lock, and gives
no revision. -/
def PlainCall.StoredIn (handle : AtshaHandle) : PlainCall → Prop
  | .random => True
  | .slotRead slotNumber => (storedSlot handle slotNumber.toNat).isSome
  | .confRead address => address = 0 ∧ (storedSn handle).isSome
  | .otpRead address => (storedOtp handle address.toNat).isSome
  | .respond _ slotNumber _ useSnInDigest => (storedSlot handle slotNumber.toNat).isSome ∧
    (serialPart useSnInDigest handle.sn).isSome
  | .write .. | .lockConfig _ | .lockData _ => False

def ApiCall.StoredIn (handle : AtshaHandle) : ApiCall → Prop
  | .plain call => call.StoredIn handle
  | .chipSerialNumber => (storedSn handle).isSome
  | .serialNumber => (storedSerial handle).isSome
  | .devRev | .changeAddress _ => False

/-- The device does its part in the call. -/
def ApiCall.Served (env : Env σ) (s : St σ) (call : ApiCall) : Prop :=
  match s.handle.bottomLayer with
  | .ni2c => call.ServedOver env.bus s.bus
  | .emulation => call.StoredIn s.handle

/-! ## What is asked of the calls -/

/-- The call returns, whatever its status, and does not expect the device to be awake any
more. -/
def Closes (env : Env σ) (call : ApiCall) (number : AtshaBigInt) (revision : UInt32)
    (s : St σ) : Prop :=
  ∃ status s', (call.run env number revision).run s = .ok status s' ∧
    s'.handle.wakeIsExpected = false

/-- The answer to the packet has been received, behind the prologue. -/
structure Delivered (env : Env σ) (prologue : Prog σ AtshaErr) (packet : Option Block)
    (s : St σ) (answer : Block) (s₁ s₂ : St σ) : Prop where
  before : prologue.run s = .ok .ok s₁
  received : ∃ bytes, packet = some bytes ∧ (send env bytes).run s₁ = .ok (.ok, some answer) s₂

/-- The answer has the shape that was asked for, and the number is what is in it. -/
def HasShape : Option ℕ → Block → AtshaBigInt → Prop
  | some n, answer, number => answer.length = n + 3 ∧ peek answer 0 = some (UInt8.ofNat (n + 3)) ∧
    number.bytes = n ∧ number.data.val.take n = payload answer
  | none, answer, _ => answer.length = 4 ∧ peek answer 0 = some 4 ∧
    peek answer 1 = some atsha204StatusSucces

/-- A program that sends a packet behind a prologue succeeds only with a number out of an
answer of the shape that was asked for. -/
def OkMeansShape (env : Env σ) (x : Prog σ (AtshaErr × AtshaBigInt)) (prologue : Prog σ AtshaErr)
    (packet : Option Block) (asked : Option ℕ) (s : St σ) : Prop :=
  ∀ number s', x.run s = .ok (.ok, number) s' → ∃ answer s₁ s₂,
    Delivered env prologue packet s answer s₁ s₂ ∧ HasShape asked answer number

/-- From some states of the bus on, no answer to the packet is taken that has another length
than the one asked for. -/
def NoMisfit (bus : I2cBus σ) (before : σ → Prop) (packet : Option Block) (asked : Option ℕ) :
    Prop :=
  ∀ bytes b answer b', packet = some bytes → before b → Answers bus bytes b answer b' →
    Takes asked answer → answer.length = asked.getD 1 + 3

/-- An emulated device answers a read of the first configuration word with the whole 32 bytes
around its serial number.
SOURCE: emulation.c:285-347 -/
def PlainCall.FitsIn (handle : AtshaHandle) : PlainCall → Prop
  | .confRead address => ¬ (address = 0 ∧ (storedSn handle).isSome)
  | _ => True

/-- The device gives no answer that is taken for one of another shape. -/
def PlainCall.Fits (env : Env σ) (s : St σ) (call : PlainCall) : Prop :=
  match s.handle.bottomLayer with
  | .ni2c => NoMisfit env.bus (call.Before env.bus s.handle.wakeIsExpected s.bus) call.packet
    call.asked
  | .emulation => call.FitsIn s.handle

end Atsha204.Interface
