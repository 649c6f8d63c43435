import Atsha204.Model.Tools

/-!
# `operations.c`: the middle layer

Each operation of the device is a packet to send (`op...`) and a decoder for its answer
(`op...Recv`).
-/

set_option autoImplicit false

namespace Atsha204.Model

open Atsha204.Library

variable {σ : Type}

/-- Parts of the zone byte.
SOURCE: operations.h:33-41 -/
def ioMemData : UInt8 := 2
def ioMemConfig : UInt8 := 0
def ioMemOtp : UInt8 := 1
def ioRwNonEnc : UInt8 := 0
def ioRw4Bytes : UInt8 := 0
def ioRw32Bytes : UInt8 := 128
def lockConfig : UInt8 := 0
def lockData : UInt8 := 1

/-- SOURCE: operations.c:34-37 -/
def slotAddresses : List UInt8 :=
  [0x00, 0x08, 0x10, 0x18, 0x20, 0x28, 0x30, 0x38,
    0x40, 0x48, 0x50, 0x58, 0x60, 0x68, 0x70, 0x78]

/-! ## Decoders shared by the operations -/

/-- The number of data bytes is taken from the count byte; a negative one becomes a huge
length of the copy.
SOURCE: operations.c:40-50 -/
def readLongData (packet : Block) (data : List.Vector UInt8 atshaMaxDataSize) :
    Prog σ (Int × List.Vector UInt8 atshaMaxDataSize) := do
  let count ← access (peek packet 0)
  let size : Int := (count.toNat : Int) - 3
  if size > atshaMaxDataSize then
    logMessage "operations: read_long_data: size is bigger than max size"
    return (0, data)
  let bytes ← access (if size < 0 then none else copyOut (packet.drop 1) size.toNat)
  let data ← access (overwrite data bytes)
  return (size, data)

/-- SOURCE: operations.c:52-59 -/
def justCheckStatus (packet : Block) : Prog σ AtshaErr := do
  let status ← access (peek packet 1)
  if status = atsha204StatusSucces then
    return .ok
  logMessage "operations: just_check_status: status is not ATSHA204_STATUS_SUCCES"
  return .badCommunicationStatus

/-! ## Parameters -/

/-- SOURCE: operations.c:90-94 -/
def getZoneConfig (ioMem ioEnc ioCnt : UInt8) : UInt8 := ioMem ||| ioEnc ||| ioCnt

/-- SOURCE: operations.c:96-100 -/
def getLockConfig (lockWhat : UInt8) : UInt8 := 0 ||| lockWhat

/-- SOURCE: operations.c:102-106 -/
def getSlotAddress (slotNumber : UInt8) : Option UInt8 := do
  let address ← slotAddresses[slotNumber.toNat]?
  return 0 ||| address

/-- The mode bit that puts a serial number into a digest.
SOURCE: operations.c:134-140, operations.c:151-157 -/
def digestMode (mode : UInt8) (useSnInDigest : Bool) : UInt8 :=
  if useSnInDigest then
    if useOurSn then mode ||| 0x20 else mode ||| 0x40
  else mode

/-! ## Operations -/

/-- SOURCE: operations.c:61-63 -/
def opDevRev : Option Block := generateCommandPacket atsha204OpcodeDevRev 0 0 [] 0

/-- SOURCE: operations.c:65-75 -/
def opDevRevRecv (packet : Block) : Option UInt32 := do
  let b0 ← peek packet 1
  let b1 ← peek packet 2
  let b2 ← peek packet 3
  let b3 ← peek packet 4
  let res : UInt32 := 0
  let res := (res ||| b0.toUInt32) <<< 24
  let res := (res ||| b1.toUInt32) <<< 16
  let res := (res ||| b2.toUInt32) <<< 8
  return res ||| b3.toUInt32

/-- SOURCE: operations.c:77-84 -/
def opRandom : Option Block := generateCommandPacket atsha204OpcodeRandom 0x00 0 [] 0

/-- SOURCE: operations.c:86-88 -/
def opRandomRecv (packet : Block) (data : List.Vector UInt8 atshaMaxDataSize) :
    Prog σ (Int × List.Vector UInt8 atshaMaxDataSize) := readLongData packet data

/-- SOURCE: operations.c:108-110 -/
def opRawRead (zoneConfig address : UInt8) : Option Block :=
  generateCommandPacket atsha204OpcodeRead zoneConfig address.toUInt16 [] 0

/-- SOURCE: operations.c:112-114 -/
def opRawReadRecv (packet : Block) (data : List.Vector UInt8 atshaMaxDataSize) :
    Prog σ (Int × List.Vector UInt8 atshaMaxDataSize) := readLongData packet data

/-- The length, a `size_t`, is narrowed to `unsigned char` in the call.
SOURCE: operations.c:116-118 -/
def opRawWrite (zoneConfig address : UInt8) (cnt : ℕ) (data : Block) : Option Block :=
  generateCommandPacket atsha204OpcodeWrite zoneConfig address.toUInt16 data (UInt8.ofNat cnt)

/-- SOURCE: operations.c:120-122 -/
def opRawWriteRecv (packet : Block) : Prog σ AtshaErr := justCheckStatus packet

/-- SOURCE: operations.c:124-127 -/
def opNonce (cnt : ℕ) (data : Block) : Option Block :=
  generateCommandPacket atsha204OpcodeNonce 0x03 0 data (UInt8.ofNat cnt)

/-- SOURCE: operations.c:129-131 -/
def opNonceRecv (packet : Block) : Prog σ AtshaErr := justCheckStatus packet

/-- SOURCE: operations.c:133-144 -/
def opHmac (address : UInt8) (useSnInDigest : Bool) : Option Block :=
  generateCommandPacket atsha204OpcodeHmac (digestMode 0x04 useSnInDigest) address.toUInt16 [] 0

/-- SOURCE: operations.c:146-148 -/
def opHmacRecv (packet : Block) (data : List.Vector UInt8 atshaMaxDataSize) :
    Prog σ (Int × List.Vector UInt8 atshaMaxDataSize) := readLongData packet data

/-- SOURCE: operations.c:150-161 -/
def opMac (address : UInt8) (cnt : ℕ) (data : Block) (useSnInDigest : Bool) : Option Block :=
  generateCommandPacket atsha204OpcodeMac (digestMode 0x00 useSnInDigest) address.toUInt16 data
    (UInt8.ofNat cnt)

/-- SOURCE: operations.c:163-165 -/
def opMacRecv (packet : Block) (data : List.Vector UInt8 atshaMaxDataSize) :
    Prog σ (Int × List.Vector UInt8 atshaMaxDataSize) := readLongData packet data

/-- SOURCE: operations.c:167-169 -/
def opSerialNumber : Option Block :=
  generateCommandPacket atsha204OpcodeRead (getZoneConfig ioMemConfig ioRwNonEnc ioRw32Bytes)
    0x0000 [] 0

/-- The nine bytes of the number, from around a hole of four bytes.
SOURCE: operations.c:171-185 -/
def opSerialNumberRecv (packet : Block) (data : List.Vector UInt8 atshaMaxDataSize) :
    Prog σ (Int × List.Vector UInt8 atshaMaxDataSize) := do
  let bytes ← access (([1, 2, 3, 4, 9, 10, 11, 12, 13] : List Int).mapM (peek packet))
  let data ← access (overwrite data bytes)
  return (9, data)

/-- SOURCE: operations.c:187-193 -/
def opLock (lockConfig : UInt8) (crc : UInt8 × UInt8) : Option Block :=
  let crcInt : UInt16 := 0
  let crcInt := (crcInt ||| crc.2.toUInt16) <<< 8
  let crcInt := crcInt ||| crc.1.toUInt16
  generateCommandPacket atsha204OpcodeLock lockConfig crcInt [] 0

/-- SOURCE: operations.c:195-197 -/
def opLockRecv (packet : Block) : Prog σ AtshaErr := justCheckStatus packet

end Atsha204.Model
