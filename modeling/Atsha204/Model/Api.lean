import Atsha204.Model.Communication

/-!
# `api.c`: the public operations

Every operation wakes the device, sends its packets, decodes the answers and lets the
device idle. `session` is that frame, `dataExchange` and `statusExchange` are the two ways
a packet is sent and its answer decoded, and each operation is written as these applied
to its own packet and decoder. An output parameter is a value that is passed in and
returned; on an early return it keeps what it had.

The emulator reads keys with `atsha_raw_slot_read`. The packet of such a nested read has
the opcode of a read, for which the emulator reads no key, so one level of nesting is all
there is (`nestedSlotRead`).
-/

set_option autoImplicit false

namespace Atsha204.Model

open Atsha204.Library

variable {σ : Type} (env : Env σ)

/-! ## The frame of an operation -/

/-- Wake, do the exchanges, idle. A failure leaves the operation before the device is let
idle; a failure to idle is only logged.
SOURCE: api.c:321-347 and the same frame in every operation below it -/
def session {α : Type} (out : α) (body : Prog σ (AtshaErr × α)) : Prog σ (AtshaErr × α) := do
  let status ← wake env
  if status ≠ .ok then
    return (status, out)
  let (status, out) ← body
  if status ≠ .ok then
    return (status, out)
  let status ← idle env
  if status ≠ .ok then
    logMessage "WARNING: Device is possibly still awake"
  return (.ok, out)

/-- How a packet is sent and its answer received. -/
abbrev Send (σ : Type) := Block → Prog σ Reply

/-- A decoder that fills a buffer and returns how many bytes it filled. -/
abbrev DataRecv (σ : Type) := Block → List.Vector UInt8 atshaMaxDataSize →
  Prog σ (Int × List.Vector UInt8 atshaMaxDataSize)

/-- Build and send a packet and decode the data in its answer.
SOURCE: api.c:358-373 -/
def dataExchange (send : Send σ) (packet : Option Block) (recv : DataRecv σ)
    (number : AtshaBigInt) : Prog σ (AtshaErr × AtshaBigInt) := do
  let packet ← access packet
  let (status, answer) ← send packet
  if status ≠ .ok then
    return (status, number)
  let answer ← access answer
  let (size, data) ← recv answer number.data
  let number : AtshaBigInt := ⟨size.toNat, data⟩
  if number.bytes = 0 then
    return (.memoryAllocationError, number)
  return (.ok, number)

/-- Build and send a packet and decode the status in its answer.
SOURCE: api.c:458-471 -/
def statusExchange (send : Send σ) (packet : Option Block) (recv : Block → Prog σ AtshaErr) :
    Prog σ (AtshaErr × Unit) := do
  let packet ← access packet
  let (status, answer) ← send packet
  if status ≠ .ok then
    return (status, ())
  let answer ← access answer
  return (← recv answer, ())

/-! ## Reading a slot, from above and from inside the emulator -/

/-- SOURCE: api.c:394-435 -/
def atshaRawSlotReadWith (send : Send σ) (slotNumber : UInt8) (number : AtshaBigInt) :
    Prog σ (AtshaErr × AtshaBigInt) := do
  if slotNumber > atsha204MaxSlotNumber then
    logMessage "api: low_slot_read: requested slot number is bigger than max slot number"
    return (.invalidInput, number)
  session env number <|
    dataExchange send
      (do
        let address ← getSlotAddress slotNumber
        opRawRead (getZoneConfig ioMemData ioRwNonEnc ioRw32Bytes) address)
      opRawReadRecv number

/-- `atsha_raw_slot_read` as called from inside an emulated digest command. -/
def nestedSlotRead : SlotRead σ :=
  atshaRawSlotReadWith env fun packet =>
    command env (fun _ _ => throw .outOfFuel) packet none

/-- `command`, as the public operations call it: the answer is NULL at first. -/
def send : Send σ := fun packet => command env (nestedSlotRead env) packet none

def atshaRawSlotRead (slotNumber : UInt8) (number : AtshaBigInt) :
    Prog σ (AtshaErr × AtshaBigInt) := atshaRawSlotReadWith env (send env) slotNumber number

/-! ## Identification and random numbers -/

/-- SOURCE: api.c:316-347 -/
def atshaDevRev (revision : UInt32) : Prog σ (AtshaErr × UInt32) :=
  session env revision do
    let packet ← access opDevRev
    let (status, answer) ← send env packet
    if status ≠ .ok then
      return (status, revision)
    let revision ← access (opDevRevRecv (← access answer))
    return (.ok, revision)

/-- SOURCE: api.c:349-385 -/
def atshaRandom (number : AtshaBigInt) : Prog σ (AtshaErr × AtshaBigInt) :=
  session env number (dataExchange (send env) opRandom opRandomRecv number)

/-- SOURCE: api.c:620-656 -/
def atshaChipSerialNumber (number : AtshaBigInt) : Prog σ (AtshaErr × AtshaBigInt) :=
  session env number (dataExchange (send env) opSerialNumber opSerialNumberRecv number)

/-! ## Reading and writing the zones -/

/-- SOURCE: api.c:444-483 -/
def atshaRawSlotWrite (slotNumber : UInt8) (number : AtshaBigInt) :
    Prog σ (AtshaErr × Unit) := do
  if slotNumber > atsha204MaxSlotNumber then
    logMessage "api: low_slot_write: requested slot number is bigger than max slot number"
    return (.invalidInput, ())
  session env () <|
    statusExchange (send env)
      (do
        let address ← getSlotAddress slotNumber
        opRawWrite (getZoneConfig ioMemData ioRwNonEnc ioRw32Bytes) address number.bytes
          number.data.val)
      opRawWriteRecv

/-- SOURCE: api.c:697-733 -/
def atshaRawConfRead (address : UInt8) (data : AtshaBigInt) : Prog σ (AtshaErr × AtshaBigInt) :=
  session env data <|
    dataExchange (send env)
      (opRawRead (getZoneConfig ioMemConfig ioRwNonEnc ioRw4Bytes) address) opRawReadRecv data

/-- SOURCE: api.c:735-769 -/
def atshaRawConfWrite (address : UInt8) (data : AtshaBigInt) : Prog σ (AtshaErr × Unit) :=
  session env () <|
    statusExchange (send env)
      (opRawWrite (getZoneConfig ioMemConfig ioRwNonEnc ioRw4Bytes) address data.bytes
        data.data.val)
      opRawWriteRecv

/-- SOURCE: api.c:771-807 -/
def atshaRawOtpRead (address : UInt8) (data : AtshaBigInt) : Prog σ (AtshaErr × AtshaBigInt) :=
  session env data <|
    dataExchange (send env)
      (opRawRead (getZoneConfig ioMemOtp ioRwNonEnc ioRw4Bytes) address) opRawReadRecv data

/-- SOURCE: api.c:809-843 -/
def atshaRawOtpWrite (address : UInt8) (data : AtshaBigInt) : Prog σ (AtshaErr × Unit) :=
  session env () <|
    statusExchange (send env)
      (opRawWrite (getZoneConfig ioMemOtp ioRwNonEnc ioRw4Bytes) address data.bytes
        data.data.val)
      opRawWriteRecv

/-- The one write that looks at the length of its data.
SOURCE: api.c:845-883 -/
def atshaRawOtp32Write (address : UInt8) (data : AtshaBigInt) : Prog σ (AtshaErr × Unit) := do
  if data.bytes ≠ 32 then
    return (.invalidInput, ())
  session env () <|
    statusExchange (send env)
      (opRawWrite (getZoneConfig ioMemOtp ioRwNonEnc ioRw32Bytes) address data.bytes
        data.data.val)
      opRawWriteRecv

/-! ## Challenge and response -/

/-- SOURCE: api.c:492-561 -/
def atshaLowChallengeResponse (slotNumber : UInt8) (challenge response : AtshaBigInt)
    (useSnInDigest : Bool) : Prog σ (AtshaErr × AtshaBigInt) := do
  if slotNumber > atsha204MaxSlotNumber then
    logMessage <| "api: low_challenge_response: requested slot number is bigger than max " ++
      "slot number"
    return (.invalidInput, response)
  if challenge.bytes ≠ 32 then
    logMessage "api: low_challenge_response: challnege is bigger than 32 bytes"
    return (.invalidInput, response)
  session env response do
    let (status, _) ← statusExchange (send env) (opNonce challenge.bytes challenge.data.val)
      opNonceRecv
    if status ≠ .ok then
      return (status, response)
    dataExchange (send env) (opHmac slotNumber useSnInDigest) opHmacRecv response

/-- SOURCE: api.c:570-618 -/
def atshaLowChallengeResponseMac (slotNumber : UInt8) (challenge response : AtshaBigInt)
    (useSnInDigest : Bool) : Prog σ (AtshaErr × AtshaBigInt) := do
  if slotNumber > atsha204MaxSlotNumber then
    logMessage <| "api: low_challenge_response_mac: requested slot number is bigger than max " ++
      "slot number"
    return (.invalidInput, response)
  if challenge.bytes ≠ 32 then
    logMessage "api: low_challenge_response_max: challenge is bigger than 32 bytes"
    return (.invalidInput, response)
  session env response <|
    dataExchange (send env)
      (opMac slotNumber challenge.bytes challenge.data.val useSnInDigest) opMacRecv response

/-! ## Operations made of others -/

/-- The two OTP words of the serial number, copied out of a buffer of which only the first
four bytes are looked at.
SOURCE: api.c:658-678 -/
def atshaSerialNumber (number : AtshaBigInt) : Prog σ (AtshaErr × AtshaBigInt) := do
  if useOurSn then
    let (status, part) ← atshaRawOtpRead env atsha204OtpMemoryMapRevNumber
      (env.uninitBigInt .serialNumberPart)
    if status ≠ .ok then
      return (status, number)
    let front := part.data.val.take 4
    let number : AtshaBigInt := { number with data := ← access (overwrite number.data front) }
    let (status, part) ← atshaRawOtpRead env atsha204OtpMemoryMapSerialNumber part
    if status ≠ .ok then
      return (status, number)
    let back := part.data.val.take 4
    let number : AtshaBigInt :=
      { bytes := 8, data := ← access (overwrite number.data (front ++ back)) }
    return (.ok, number)
  else
    atshaChipSerialNumber env number

/-- No `address` is both below 1 and above 0x7E, so none is refused.
SOURCE: api.c:680-695 -/
def atshaChangeAddress (address : UInt8) : Prog σ (AtshaErr × Unit) := do
  if address < 1 ∧ address > 0x7E then
    return (.invalidInput, ())
  let (status, configLine) ← atshaRawConfRead env atsha204CnfMemoryMapI2cAddress
    (env.uninitBigInt .changeAddressLine)
  if status ≠ .ok then
    return (status, ())
  let data ← access (overwrite configLine.data [address <<< 1])
  atshaRawConfWrite env atsha204CnfMemoryMapI2cAddress { configLine with data := data }

/-! ## Locking -/

/-- SOURCE: api.c:885-919 -/
def atshaLockConfig (crc : UInt8 × UInt8) : Prog σ (AtshaErr × Unit) :=
  session env () (statusExchange (send env) (opLock (getLockConfig lockConfig) crc) opLockRecv)

/-- SOURCE: api.c:921-955 -/
def atshaLockData (crc : UInt8 × UInt8) : Prog σ (AtshaErr × Unit) :=
  session env () (statusExchange (send env) (opLock (getLockConfig lockData) crc) opLockRecv)

/-! ## Handles -/

/-- A handle as `calloc` leaves it. -/
def callocHandle : AtshaHandle where
  bottomLayer := .emulation
  isSrvEmulation := false
  file := none
  sn := none
  key := none
  keyOrigin := 0
  keyOriginCached := false
  slotId := 0
  nonce := List.Vector.replicate _ 0
  wakeIsExpected := false

/-- A handle on the native I2C layer; the device node and the lock file are taken to have
been opened.
SOURCE: api.c:158-206 -/
def openNi2cDev : AtshaHandle := { callocHandle with bottomLayer := .ni2c }

/-- The handle becomes the one of the state. The argument is the content of the file, or
`none` where it cannot be opened; the result says whether the handle is not NULL.
SOURCE: api.c:208-257 -/
def atshaOpenEmulation (file : Option (List UInt8)) : Prog σ Bool := do
  match file with
  | none =>
    logMessage "api: open_emulation: Couldn't open configuration file."
    return false
  | some content =>
    modifyHandle fun _ => { callocHandle with file := some ⟨content, content⟩ }
    let (status, number) ← atshaSerialNumber env (env.uninitBigInt .openEmulationNumber)
    if status ≠ .ok then
      logMessage "api: open_emulation: Couldn't read serial number."
      return false
    let sn ← access (copyOut number.data.val number.bytes)
    modifyHandle fun h => { h with sn := some sn }
    let (status, number) ← atshaRawOtpRead env atsha204OtpMemoryMapOriginKeySet number
    if status ≠ .ok then
      logMessage "api: open_emulation: Couldn't read key origin"
      return false
    let keyOrigin ← access (uint32From4Bytes number.data.val)
    modifyHandle fun h => { h with keyOrigin := keyOrigin, keyOriginCached := true }
    return true

/-- SOURCE: api.c:259-291 -/
def atshaOpenServerEmulation (slotId : UInt8) (serialNumber key : Option Block) :
    Prog σ Bool := do
  match serialNumber, key with
  | some serialNumber, some key =>
    let sn ← access (copyOut serialNumber
      (if useOurSn then 2 * atsha204OtpByteLen else atsha204SnByteLen))
    let key ← access (copyOut key atsha204SlotByteLen)
    modifyHandle fun _ => { callocHandle with
      isSrvEmulation := true, slotId := slotId, sn := some sn, key := some key }
    return true
  | _, _ => return false

end Atsha204.Model
