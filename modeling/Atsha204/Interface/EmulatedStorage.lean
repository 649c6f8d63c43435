import Atsha204.Library.Pairs
import Atsha204.Model.Api

/-!
# What the emulated device stores

The configuration file as a store: line `k` stands for the bytes that its pairs of
digits stand for (`lineBytes`), the first 16 lines are the slots, the next 16 the OTP
words, the last one the serial number of the chip. A server has the key and the serial
number in its handle instead. `ConfigLayout` is a file in the documented layout, with the
numbers it is meant to hold.
-/

set_option autoImplicit false

namespace Atsha204.Interface

open Atsha204.Library
open Atsha204.Model

variable {σ : Type}

/-! ## Any file -/

/-- The text of a chunk, which ends at the first zero byte. -/
def chunkText (chunk : List UInt8) : List UInt8 := chunk.takeWhile (· ≠ 0)

/-- The first `count` bytes that line `k` of a file stands for. A line is what one `fgets`
reads. -/
def lineBytes (content : List UInt8) (k count : ℕ) : Option Block :=
  (nthChunk isNewline (buffsizeLine - 1) k content).bind fun chunk =>
    readPairs isDelimiter getNumberFromHexChar count (chunkText chunk)

/-! ## A handle -/

/-- A line of the file of a handle. -/
def storedLine (handle : AtshaHandle) (k count : ℕ) : Option Block :=
  handle.file.bind fun file => lineBytes file.content k count

/-- The content of a slot; a server has the one key. -/
def storedSlot (handle : AtshaHandle) (slot : ℕ) : Option Block :=
  if handle.isSrvEmulation then handle.key.bind (copyOut · atsha204SlotByteLen)
  else storedLine handle slot atsha204SlotByteLen

/-- An OTP word; a server has none. -/
def storedOtp (handle : AtshaHandle) (address : ℕ) : Option Block :=
  if handle.isSrvEmulation then none
  else storedLine handle (16 + address) atsha204OtpByteLen

/-- The serial number of the chip. -/
def storedSn (handle : AtshaHandle) : Option Block :=
  if handle.isSrvEmulation then handle.sn.bind (copyOut · atsha204SnByteLen)
  else storedLine handle 32 atsha204SnByteLen

/-- The serial number that the library gives out: the first two OTP words. -/
def storedSerial (handle : AtshaHandle) : Option Block := do
  let revision ← storedOtp handle 0
  let serial ← storedOtp handle 1
  return revision ++ serial

/-- The serial number as it lies in the configuration zone, around a hole of four bytes and
with zeros behind it. -/
def withHole (sn : Block) : Block :=
  sn.take 4 ++ List.replicate 4 0 ++ sn.drop 4 ++ List.replicate 19 0

/-- The data that the emulated device has for a read. -/
def storedData (handle : AtshaHandle) (zone address : UInt8) : Option Block :=
  if zone &&& 0x3 = ioMemConfig then
    if address = 0 then (storedSn handle).map withHole else none
  else if zone &&& 0x3 = ioMemData then storedSlot handle (address.toNat / 8)
  else if zone &&& 0x3 = ioMemOtp then storedOtp handle address.toNat
  else none

/-- The numbers a call returns are the data. -/
structure Holds (number : AtshaBigInt) (data : Block) : Prop where
  bytes_eq : number.bytes = data.length
  take_eq : number.data.val.take data.length = data

/-! ## The documented layout -/

/-- A line of `n` pairs of digits, upper or lower case, with delimiters in front of any of
them and a newline at the end.
SOURCE: mainpage.dox:28-40 -/
structure LayoutLine (n : ℕ) where
  items : List (PairItem UInt8)
  length_eq : items.length = n
  delims : ∀ item ∈ items, ∀ c ∈ item.delims, isDelimiter c = true
  digits : ∀ item ∈ items,
    (hexDigitValue item.first).isSome = true ∧ (hexDigitValue item.second).isSome = true
  fits : (renderPairs items ++ [0x0A]).length ≤ 127

def LayoutLine.text {n : ℕ} (line : LayoutLine n) : List UInt8 := renderPairs line.items ++ [0x0A]

/-- The number that two hexadecimal digits stand for. -/
def pairValue (high low : UInt8) : UInt8 :=
  UInt8.ofNat (16 * (hexDigitValue high).getD 0 + (hexDigitValue low).getD 0)

/-- The bytes that a line is meant to hold. -/
def LayoutLine.bytes {n : ℕ} (line : LayoutLine n) : Block :=
  line.items.map fun item => pairValue item.first item.second

/-- A configuration file: 16 keys, 16 OTP words, the serial number.
SOURCE: mainpage.dox:28-40 -/
structure ConfigLayout where
  keys : Fin 16 → LayoutLine 32
  otp : Fin 16 → LayoutLine 4
  sn : LayoutLine 9

/-- The lines of the file. -/
def ConfigLayout.lines (layout : ConfigLayout) : List (List UInt8) :=
  List.ofFn (fun i => (layout.keys i).text) ++ List.ofFn (fun i => (layout.otp i).text) ++
    [layout.sn.text]

/-- The content of the file. -/
def ConfigLayout.text (layout : ConfigLayout) : List UInt8 := layout.lines.flatten

/-- The reads that the file is to be seen through. -/
inductive StorageRead where
  | slot (slotNumber : Fin 16)
  | otp (address : Fin 16)
  | serialNumber
  | chipSerialNumber
  deriving DecidableEq, Repr

def StorageRead.run (env : Env σ) (number : AtshaBigInt) :
    StorageRead → Prog σ (AtshaErr × AtshaBigInt)
  | .slot slotNumber => atshaRawSlotRead env (UInt8.ofNat slotNumber) number
  | .otp address => atshaRawOtpRead env (UInt8.ofNat address) number
  | .serialNumber => atshaSerialNumber env number
  | .chipSerialNumber => atshaChipSerialNumber env number

/-- The bytes that the device has for a read. -/
def StorageRead.stored (handle : AtshaHandle) : StorageRead → Option Block
  | .slot slotNumber => storedSlot handle slotNumber
  | .otp address => storedOtp handle address
  | .serialNumber => storedSerial handle
  | .chipSerialNumber => storedSn handle

/-- The bytes that a file in the documented layout has for a read. -/
def StorageRead.bytes (layout : ConfigLayout) : StorageRead → Block
  | .slot slotNumber => (layout.keys slotNumber).bytes
  | .otp address => (layout.otp address).bytes
  | .serialNumber => (layout.otp 0).bytes ++ (layout.otp 1).bytes
  | .chipSerialNumber => layout.sn.bytes

/-- The reads succeed one after the other, each into a number of its own, and give the bytes
of the file. -/
def ReadsBack (env : Env σ) (layout : ConfigLayout) :
    List (StorageRead × AtshaBigInt) → St σ → Prop
  | [], _ => True
  | (read, number) :: reads, s =>
    ∃ r s', (read.run env number).run s = .ok (.ok, r) s' ∧ Holds r (read.bytes layout) ∧
      ReadsBack env layout reads s'

end Atsha204.Interface
