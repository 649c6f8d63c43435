import Atsha204.Library.Memory
import Atsha204.Model.State

/-!
# `tools.c`: checksums, packets and hexadecimal digits

Arithmetic on `unsigned char` and `uint16_t` wraps, as it does in the source. A packet
is a block of memory; building or checking one fails where the source would leave the
block.
-/

set_option autoImplicit false

namespace Atsha204.Model

open Atsha204.Library

/-! ## The checksum -/

/-- SOURCE: tools.c:28 -/
def polynom : UInt16 := 0x8005

/-- One round of the inner loop: shift one bit of the message into the register.
SOURCE: tools.c:136-140 -/
def crcBit (data shiftRegister : UInt8) (crcRegister : UInt16) : UInt16 :=
  let dataBit : UInt16 := if data &&& shiftRegister ≠ 0 then 1 else 0
  let crcBit := crcRegister >>> 15
  let crcRegister := crcRegister <<< 1
  if dataBit ≠ crcBit then crcRegister ^^^ polynom else crcRegister

/-- The inner loop, which ends when the mask has been shifted out of its byte.
SOURCE: tools.c:135-141 -/
def crcByteLoop (data : UInt8) : ℕ → UInt8 → UInt16 → UInt16
  | 0, _, crcRegister => crcRegister
  | rounds + 1, shiftRegister, crcRegister =>
    if shiftRegister > 0 then
      crcByteLoop data rounds (shiftRegister <<< 1) (crcBit data shiftRegister crcRegister)
    else crcRegister

/-- All bits of one byte, least significant bit first. The mask is zero after eight
rounds, so the ninth leaves the loop. -/
def crcByte (crcRegister : UInt16) (data : UInt8) : UInt16 :=
  crcByteLoop data 9 0x01 crcRegister

/-- The checksum of the first `length` bytes, low byte first.
SOURCE: tools.c:127-145 -/
def calculateCrc (length : UInt16) (data : Block) : Option (UInt8 × UInt8) := do
  let bytes ← copyOut data length.toNat
  let crcRegister := bytes.foldl crcByte 0
  return ((crcRegister &&& 0x00FF).toUInt8, (crcRegister >>> 8).toUInt8)

/-- SOURCE: tools.c:116-125 -/
def checkCrc (length : UInt8) (data : Block) (crc : UInt8 × UInt8) : Option Bool := do
  let rcrc ← calculateCrc length.toUInt16 data
  return !(crc.1 != rcrc.1 || crc.2 != rcrc.2)

/-- SOURCE: tools.c:52-65 -/
def checkPacket (packet : Block) : Option Bool := do
  let packetSize ← peek packet 0
  let crc0 ← peek packet ((packetSize.toNat : Int) - 2)
  let crc1 ← peek packet ((packetSize.toNat : Int) - 1)
  checkCrc (packetSize - 2) packet (crc0, crc1)

/-! ## Packets -/

/-- Write the checksum of a packet behind its data.
SOURCE: tools.c:88-90, tools.c:109-111 -/
def sealPacket (packetSize : UInt8) (packet : Block) (offset : ℕ) : Option Block := do
  -- `packet_size - 2` is an `int` that the call narrows to `uint16_t`
  let crc ← calculateCrc (packetSize.toUInt16 - 2) packet
  let packet ← poke packet offset crc.1
  poke packet (offset + 1) crc.2

/-- The number of data bytes arrives narrowed to `unsigned char`, and the size of the
packet wraps at 256.
SOURCE: tools.c:67-93 -/
def generateCommandPacket (opcode param1 : UInt8) (param2 : UInt16) (data : Block)
    (dataCount : UInt8) : Option Block := do
  let packetSize : UInt8 := 1 + 1 + 1 + 2 + dataCount + 2
  let packet := List.replicate packetSize.toNat 0
  let packet ← pokeAll packet 0
    [packetSize, opcode, param1, (param2 &&& 0x00FF).toUInt8,
      ((param2 &&& 0xFF00) >>> 8).toUInt8]
  let bytes ← copyOut data dataCount.toNat
  let packet ← pokeAll packet 5 bytes
  sealPacket packetSize packet (5 + dataCount.toNat)

/-- SOURCE: tools.c:95-114 -/
def generateAnswerPacket (data : Block) (dataCount : UInt8) : Option Block := do
  let packetSize : UInt8 := 1 + dataCount + 2
  let packet := List.replicate packetSize.toNat 0
  let packet ← poke packet 0 packetSize
  let bytes ← copyOut data dataCount.toNat
  let packet ← pokeAll packet 1 bytes
  sealPacket packetSize packet (1 + dataCount.toNat)

/-! ## Hexadecimal digits -/

/-- `isspace` in the C locale. -/
def isSpace (c : UInt8) : Bool := c == 0x20 || (0x09 ≤ c && c ≤ 0x0D)

/-- The value of a digit of a base 16 numeral. -/
def hexDigitValue (c : UInt8) : Option ℕ :=
  if 0x30 ≤ c ∧ c ≤ 0x39 then some (c.toNat - 0x30)
  else if 0x61 ≤ c ∧ c ≤ 0x66 then some (c.toNat - 0x61 + 10)
  else if 0x41 ≤ c ∧ c ≤ 0x46 then some (c.toNat - 0x41 + 10)
  else none

/-- The numeral in front of a text: its digits up to the first symbol that is none. -/
def hexNumeral : ℕ → List UInt8 → ℕ
  | acc, [] => acc
  | acc, c :: text =>
    match hexDigitValue c with
    | some d => hexNumeral (16 * acc + d) text
    | none => acc

/-- Drop `0x` or `0X` in front of a digit. -/
def dropHexPrefix : List UInt8 → List UInt8
  | 0x30 :: x :: d :: text =>
    if (x = 0x78 ∨ x = 0x58) ∧ (hexDigitValue d).isSome then d :: text
    else 0x30 :: x :: d :: text
  | text => text

/-- `strtol` in base 16 on a text without its terminator: leading white space, a sign, a
prefix, digits, and zero where there are no digits. Two characters cannot overflow a
`long`, so the clamping of large values is left out. -/
def strtolHex (text : List UInt8) : Int :=
  match text.dropWhile isSpace with
  | 0x2D :: text => -(hexNumeral 0 (dropHexPrefix text) : Int)
  | 0x2B :: text => hexNumeral 0 (dropHexPrefix text)
  | text => hexNumeral 0 (dropHexPrefix text)

/-- The string of two characters may be cut short by a terminator among them; the value
is narrowed to `unsigned char`.
SOURCE: tools.c:34-39 -/
def getNumberFromHexChar (high low : UInt8) : UInt8 :=
  UInt8.ofNat ((strtolHex ([high, low].takeWhile (· ≠ 0))) % 256).toNat

/-- The shifts are those of the source.
SOURCE: tools.c:41-50 -/
def uint32From4Bytes (data : Block) : Option UInt32 := do
  let b0 ← peek data 0
  let b1 ← peek data 1
  let b2 ← peek data 2
  let b3 ← peek data 3
  let res : UInt32 := 0
  let res := (res ||| b0.toUInt32) <<< 24
  let res := (res ||| b1.toUInt32) <<< 16
  let res := (res ||| b2.toUInt32) <<< 8
  return res ||| b3.toUInt32

end Atsha204.Model
