import Atsha204.Model.Operations
import Atsha204.Model.TextFile

/-!
# `emulation.c`: the emulated device

`emulCommand` answers a command packet from the configuration file of the handle, or,
for a server, from the key and the serial number in the handle.

`emulHmac` and `emulMac` read the key with the public `atsha_raw_slot_read` on the same
handle, in the middle of a command. That function comes above this layer, so it is a
parameter here (`rawSlotRead`) and is supplied in `Atsha204.Model.Api`.
-/

set_option autoImplicit false

namespace Atsha204.Model

open Atsha204.Library

variable {σ : Type}

/-- SOURCE: emulation.c:37-39 -/
def positionOpcode : Int := 1
def positionParam1 : Int := 2
def positionAddress : Int := 3

/-- `atsha_raw_slot_read`, as the emulator calls it. -/
abbrev SlotRead (σ : Type) := UInt8 → AtshaBigInt → Prog σ (AtshaErr × AtshaBigInt)

/-- A status and the answer, NULL unless the status is good. -/
abbrev Reply := AtshaErr × Option Block

/-- The answer packet for some data bytes. -/
def answerWith (data : Block) (dataCount : UInt8) : Prog σ Reply := do
  let answer ← access (generateAnswerPacket data dataCount)
  return (.ok, some answer)

/-! ## The configuration file -/

/-- A read of the file of the handle. -/
def withFile {α : Type} (x : FileProg α) : Prog σ α := do
  let file ← access (← getHandle).file
  match x.run file with
  | .ok a file =>
    modifyHandle fun h => { h with file := some file }
    return a
  | .error e file =>
    modifyHandle fun h => { h with file := some file }
    throw e

/-- Read and drop lines; `none` when the file has fewer.
SOURCE: emulation.c:309-314, emulation.c:359-364, emulation.c:403-415 -/
def skipLines (tooFew : String) : ℕ → Line → Prog σ (Option Line)
  | 0, line => return some line
  | n + 1, line => do
    match ← withFile (fgets line) with
    | none =>
      logMessage tooFew
      return none
    | some line => skipLines tooFew n line

/-- Read one line and decode `count` bytes of it into `out`.
SOURCE: emulation.c:316-343, emulation.c:366-389, emulation.c:417-440 -/
def readHexLine (noLine tooShort : String) (nextIndex : ℕ → ℕ) (count : ℕ) (out : Block)
    (line : Line) : Prog σ (Option Block) := do
  match ← withFile (fgets line) with
  | none =>
    logMessage noLine
    return none
  | some line =>
    match ← access (parseHexLoop nextIndex count 0 line.val (strlen line) 0 out) with
    | none =>
      logMessage tooShort
      return none
    | some out => return some out

/-- The rounds of the serial number loop with `4 <= i <= 7` only increment `i`.
SOURCE: emulation.c:325-329 -/
def skipHole (i : ℕ) : ℕ := if 4 ≤ i ∧ i ≤ 7 then 8 else i

/-- A cell of a block that may be NULL. -/
def peekAt (block : Option Block) (i : Int) : Option UInt8 := block.bind (peek · i)

/-- The serial number of a server around the hole of four bytes.
SOURCE: emulation.c:300-306 -/
def serverSerialNumber (sn : Option Block) : Option Block := do
  let front ← ([0, 1, 2, 3] : List Int).mapM (peekAt sn)
  let back ← ([4, 5, 6, 7, 8] : List Int).mapM (peekAt sn)
  return front ++ List.replicate 4 0 ++ back ++ List.replicate 19 0

/-- SOURCE: emulation.c:281-451 -/
def emulRead (env : Env σ) (rawPacket : Block) : Prog σ Reply := do
  let line := env.uninitBuffer .emulReadLine buffsizeLine
  let readFrom := (← access (peek rawPacket positionParam1)) &&& 0x3
  if readFrom = ioMemConfig then
    if (← access (peek rawPacket positionAddress)) ≠ 0x00 then
      logMessage "emulation: emul_read: Reading only 0x00 address from config zone is allowed"
      return (.notImplemented, none)
    let handle ← getHandle
    if handle.isSrvEmulation then
      answerWith (← access (serverSerialNumber handle.sn)) (UInt8.ofNat atsha204SlotByteLen)
    else
      withFile rewind
      match ← skipLines "emulation: emul_read: skip keys (bad file format)" (2 * 16) line with
      | none => return (.configFileBadFormat, none)
      | some line =>
        match ← readHexLine "emulation: emul_read: read SN (bad file format)"
          "emulation: emul_read: read SN (input too short)" skipHole (atsha204SnByteLen + 4)
          (List.replicate atsha204SlotByteLen 0) line with
        | none => return (.configFileBadFormat, none)
        | some sn => answerWith sn (UInt8.ofNat atsha204SlotByteLen)
  else if readFrom = ioMemData then
    let handle ← getHandle
    if handle.isSrvEmulation then
      answerWith (← access handle.key) (UInt8.ofNat atsha204SlotByteLen)
    else
      withFile rewind
      let address ← access (peek rawPacket positionAddress)
      match ← skipLines "emulation: emul_read: skip keys (bad file format)"
        (address.toNat / 8) line with
      | none => return (.configFileBadFormat, none)
      | some line =>
        match ← readHexLine "emulation: emul_read: read requested key (bad file format)"
          "emulation: emul_read: read key (input too short)" id atsha204SlotByteLen
          (env.uninitBuffer .emulReadBytes atsha204SlotByteLen).val line with
        | none => return (.configFileBadFormat, none)
        | some key => answerWith key (UInt8.ofNat atsha204SlotByteLen)
  else if readFrom = ioMemOtp then
    if (← getHandle).isSrvEmulation then
      logMessage "emulation: emul_read: OTP zone not supporten in server emulation mode."
      return (.notImplemented, none)
    else
      withFile rewind
      match ← skipLines "emulation: emul_read: skip keys (bad file format)" 16 line with
      | none => return (.configFileBadFormat, none)
      | some line =>
        let address ← access (peek rawPacket positionAddress)
        match ← skipLines "emulation: emul_read: skip OTP records (bad file format)"
          address.toNat line with
        | none => return (.configFileBadFormat, none)
        | some line =>
          match ← readHexLine
            "emulation: emul_read: read requested OTP record (bad file format)"
            "emulation: emul_read: read requested OTP record (input too short)" id
            atsha204OtpByteLen (env.uninitBuffer .emulReadBytes atsha204OtpByteLen).val
            line with
          | none => return (.configFileBadFormat, none)
          | some data => answerWith data (UInt8.ofNat atsha204OtpByteLen)
  else
    logMessage "emulation: emul_read: Unknown memory type to read."
    return (.notImplemented, none)

/-! ## Digests -/

/-- Whether the mode of a digest command asks for a serial number.
SOURCE: emulation.c:57-70, emulation.c:170-183 -/
def usesSn (mode : UInt8) : Bool :=
  if useOurSn then mode &&& 0x20 ≠ 0 else mode &&& 0x40 ≠ 0

/-- The part of the message that HMAC and MAC have in common, bytes 64 to 87.
SOURCE: emulation.c:81-137, emulation.c:193-249 -/
def digestTail (opcode : UInt8) (rawPacket : Block) (sn : Option Block) : Option Block := do
  let mode ← peek rawPacket positionParam1
  let slotLow ← peek rawPacket (positionParam1 + 1)
  let slotHigh ← peek rawPacket (positionParam1 + 2)
  let otp ← if useOurSn && usesSn mode
    then ([0, 1, 2, 3, 4, 5, 6, 7] : List Int).mapM (peekAt sn)
    else some (List.replicate 8 0)
  let sn4 ← if !useOurSn && usesSn mode
    then ([4, 5, 6, 7] : List Int).mapM (peekAt sn) else some (List.replicate 4 0)
  let sn2 ← if !useOurSn && usesSn mode
    then ([2, 3] : List Int).mapM (peekAt sn) else some (List.replicate 2 0)
  return [opcode, mode, slotLow, slotHigh] ++ otp ++ [0x00, 0x00, 0x00] ++ [0xEE] ++ sn4 ++
    [0x01, 0x23] ++ sn2

/-- The 88 bytes that an emulated HMAC command authenticates.
SOURCE: emulation.c:71-138 -/
def hmacMessage (rawPacket : Block) (nonce : Block) (sn : Option Block) : Option Block := do
  let tail ← digestTail atsha204OpcodeHmac rawPacket sn
  return List.replicate 32 0 ++ nonce ++ tail

/-- The 88 bytes that an emulated MAC command hashes.
SOURCE: emulation.c:184-250 -/
def macMessage (rawPacket : Block) (key : Block) (sn : Option Block) : Option Block := do
  let challenge ← copyOut (rawPacket.drop 5) 32
  let tail ← digestTail atsha204OpcodeMac rawPacket sn
  return key ++ challenge ++ tail

/-- SOURCE: emulation.c:52-157 -/
def emulHmac (env : Env σ) (rawSlotRead : SlotRead σ) (rawPacket : Block) : Prog σ Reply := do
  let handle ← getHandle
  let message ← access (hmacMessage rawPacket handle.nonce.val handle.sn)
  let slot ← access (peek rawPacket (positionParam1 + 1))
  let (status, key) ← rawSlotRead slot (env.uninitBigInt .emulDigestKey)
  if status ≠ .ok then
    logMessage "emulation: emul_hmac: Bad status code: atsha_low_slot_read"
    return (.badCommunicationStatus, none)
  let keyBytes ← access (copyOut key.data.val key.bytes)
  match env.openssl.hmac keyBytes message with
  | none =>
    logMessage "emulation: emul_hmac: Bad status code: HMAC (libopenssl)"
    return (.badCommunicationStatus, none)
  | some output =>
    if output.length ≠ 32 then
      logMessage "emulation: emul_hmac: Bad status code: HMAC (libopenssl)"
      return (.badCommunicationStatus, none)
    answerWith output 32

/-- SOURCE: emulation.c:159-262 -/
def emulMac (env : Env σ) (rawSlotRead : SlotRead σ) (rawPacket : Block) : Prog σ Reply := do
  let slot ← access (peek rawPacket (positionParam1 + 1))
  let (status, key) ← rawSlotRead slot (env.uninitBigInt .emulDigestKey)
  if status ≠ .ok then
    logMessage "emulation: emul_mac: Bad status code: atsha_low_slot_read"
    return (.badCommunicationStatus, none)
  let message ← access (macMessage rawPacket key.data.val (← getHandle).sn)
  match env.openssl.sha256 message with
  | none =>
    logMessage "emulation: emul_mac: Bad status code: SHA256 (libopenssl)"
    return (.badCommunicationStatus, none)
  | some output => answerWith output.val 32

/-! ## Commands -/

/-- SOURCE: emulation.c:41-50 -/
def emulNonce (rawPacket : Block) : Prog σ Reply := do
  let bytes ← access (copyOut (rawPacket.drop 5) atsha204SlotByteLen)
  let nonce ← access (overwrite (← getHandle).nonce bytes)
  modifyHandle fun h => { h with nonce := nonce }
  answerWith [atsha204StatusSucces] 1

/-- SOURCE: emulation.c:264-279 -/
def emulRandom : Prog σ Reply :=
  answerWith
    [0x55, 0xE3, 0xD9, 0x65, 0x6A, 0x82, 0x69, 0x33,
      0xB2, 0xAF, 0x9B, 0xCA, 0x64, 0x5C, 0x49, 0x0D,
      0x09, 0x27, 0xC3, 0x82, 0x0C, 0x32, 0x58, 0xBC,
      0x8D, 0x23, 0xEE, 0xC4, 0x04, 0xF3, 0xC4, 0x14] (UInt8.ofNat atsha204SlotByteLen)

/-- The answer is NULL before the opcode is looked at.
SOURCE: emulation.c:453-485 -/
def emulCommand (env : Env σ) (rawSlotRead : SlotRead σ) (rawPacket : Block) :
    Prog σ Reply := do
  emit (.emulated rawPacket)
  let opcode ← access (peek rawPacket positionOpcode)
  if opcode = atsha204OpcodeHmac then emulHmac env rawSlotRead rawPacket
  else if opcode = atsha204OpcodeMac then emulMac env rawSlotRead rawPacket
  else if opcode = atsha204OpcodeRead then emulRead env rawPacket
  else if opcode = atsha204OpcodeNonce then emulNonce rawPacket
  else if opcode = atsha204OpcodeRandom then emulRandom
  else
    logMessage "emulation: requested opconde not implemented"
    return (.notImplemented, none)

end Atsha204.Model
