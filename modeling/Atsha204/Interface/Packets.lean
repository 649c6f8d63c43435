import Atsha204.Model.Emulation

/-!
# Packets: their bits, their fields, and who reads them

For errors of transmission, the bits of a packet in the order in which the checksum takes
them in, byte by byte, the least significant bit of a byte first, and the places in which
two packets differ. For the encoders, what it is for a packet to carry a command or some
data, at the positions where the emulator and the decoders look. For the decoders, what it
is to stay inside an answer.
-/

set_option autoImplicit false

namespace Atsha204.Interface

open Atsha204.Library
open Atsha204.Model

/-! ## Bits -/

/-- The bits of a byte, least significant bit first. -/
def byteBits (byte : UInt8) : List Bool := (List.range 8).map byte.toNat.testBit

/-- The bits of a packet in processing order.
SOURCE: tools.c:134-141 -/
def packetBits (packet : Block) : List Bool := packet.flatMap byteBits

/-- The number of bits in which two packets of one length differ. -/
def bitDistance (packet packet' : Block) : ℕ :=
  (List.zipWith Bool.xor (packetBits packet) (packetBits packet')).count true

/-- Two packets differ in bit `i`. -/
def DiffersAt (packet packet' : Block) (i : ℕ) : Prop :=
  (packetBits packet)[i]? ≠ (packetBits packet')[i]?

/-- The checksum field of a packet. -/
def crcField (packet : Block) : Block := packet.drop (packet.length - 2)

/-- All bits in which two packets differ are among 16 consecutive ones. -/
def BurstOf16 (packet packet' : Block) : Prop :=
  ∃ start, ∀ i, DiffersAt packet packet' i → start ≤ i ∧ i < start + 16

/-! ## Fields -/

/-- A packet that is accepted, has the length of its fields, and holds them where the
emulator reads them.
SOURCE: emulation.c:37-50 -/
structure CarriesCommand (opcode param1 : UInt8) (param2 : UInt16) (data : Block)
    (packet : Block) : Prop where
  length : packet.length = data.length + 7
  count : (peek packet 0).map UInt8.toNat = some (data.length + 7)
  accepted : checkPacket packet = some true
  opcode : peek packet positionOpcode = some opcode
  param1 : peek packet positionParam1 = some param1
  param2 : ∃ low high, peek packet positionAddress = some low ∧
    peek packet (positionAddress + 1) = some high ∧ low.toNat + 256 * high.toNat = param2.toNat
  data : copyOut (packet.drop 5) data.length = some data

/-- An answer that is accepted, has the length of its data, and gives them to
`read_long_data` where there are 1 to 32 of them; where there are more, nothing is written.
SOURCE: operations.c:40-50 -/
structure CarriesData (data : Block) (packet : Block) : Prop where
  length : packet.length = data.length + 3
  accepted : checkPacket packet = some true
  decoded : 1 ≤ data.length → data.length ≤ 32 →
    ∀ (σ : Type) (buffer : List.Vector UInt8 atshaMaxDataSize) (s : St σ), ∃ buffer' s',
      (readLongData packet buffer).run s = .ok ((data.length : ℕ), buffer') s' ∧
        buffer'.val = data ++ buffer.val.drop data.length
  dropped : 33 ≤ data.length →
    ∀ (σ : Type) (buffer : List.Vector UInt8 atshaMaxDataSize) (s : St σ), ∃ s',
      (readLongData packet buffer).run s = .ok (0, buffer) s'

/-! ## Decoders -/

/-- The decoders of `operations.c`. -/
inductive Decoder where
  | devRev
  | random
  | rawRead
  | rawWrite
  | nonce
  | hmac
  | mac
  | serialNumber
  | lock
  deriving DecidableEq, Repr

variable {σ : Type}

/-- A decoder run on an answer and a buffer; the number of bytes it writes to the buffer. -/
def Decoder.recv (answer : Block) (buffer : List.Vector UInt8 atshaMaxDataSize) :
    Decoder → Prog σ Int
  | .devRev => do
    let _ ← access (opDevRevRecv answer)
    return 0
  | .random => return (← opRandomRecv answer buffer).1
  | .rawRead => return (← opRawReadRecv answer buffer).1
  | .rawWrite => do
    let _ ← opRawWriteRecv answer
    return 0
  | .nonce => do
    let _ ← opNonceRecv answer
    return 0
  | .hmac => return (← opHmacRecv answer buffer).1
  | .mac => return (← opMacRecv answer buffer).1
  | .serialNumber => return (← opSerialNumberRecv answer buffer).1
  | .lock => do
    let _ ← opLockRecv answer
    return 0

/-- Whatever the buffer, the decoder reads nothing behind the answer and writes no more than
the buffer holds: it returns, and the number of bytes written is at most its size. -/
def Decoder.Inside (decoder : Decoder) (answer : Block) : Prop :=
  ∀ (σ : Type) (buffer : List.Vector UInt8 atshaMaxDataSize) (s : St σ),
    wp (decoder.recv answer buffer) (fun n _ => n ≤ atshaMaxDataSize) (fun _ => False) s

/-- The length of the answers that the decoder takes for granted. -/
def Decoder.assumes : Decoder → ℕ
  | .devRev => 5
  | .serialNumber => 14
  | _ => 0

end Atsha204.Interface
