import Atsha204.Library.CrcPolynomial
import Atsha204.Interface.Packets

/-!
# The checksum as a division

The loops of `calculate_crc` with the number of rounds the inner one takes for each byte,
and what the checksum is meant to be: a remainder of polynomials over the field with two
elements. The message gives its bits in processing order, the highest power first; the two
bytes of the checksum are one word, `crc[1]` above `crc[0]`.
-/

set_option autoImplicit false

namespace Atsha204.Interface

open Atsha204.Library
open Atsha204.Model
open Polynomial

/-! ## The loops, round by round -/

/-- The inner loop with the number of its rounds; `none` where the fuel does not reach its end.
SOURCE: tools.c:135-141 -/
def crcByteRounds (data : UInt8) : ℕ → UInt8 → UInt16 → Option (ℕ × UInt16)
  | 0, _, _ => none
  | fuel + 1, shiftRegister, crcRegister => do
    if shiftRegister > 0 then
      let (rounds, crcRegister) ←
        crcByteRounds data fuel (shiftRegister <<< 1) (crcBit data shiftRegister crcRegister)
      return (rounds + 1, crcRegister)
    else return (0, crcRegister)

/-- Both loops, with the rounds of the inner one for each byte and the register they leave.
SOURCE: tools.c:134-142 -/
def crcLoops (length : UInt16) (data : Block) : ℕ → UInt16 → UInt16 → Option (List ℕ × UInt16)
  | 0, _, _ => none
  | fuel + 1, counter, crcRegister => do
    if counter < length then
      let byte ← peek data counter.toNat
      let (rounds, crcRegister) ← crcByteRounds byte fuel 0x01 crcRegister
      let (more, crcRegister) ← crcLoops length data fuel (counter + 1) crcRegister
      return (rounds :: more, crcRegister)
    else return ([], crcRegister)

/-! ## Polynomials -/

/-- SOURCE: tools.c:28 -/
noncomputable def crcGenerator : (ZMod 2)[X] := X ^ 16 + X ^ 15 + X ^ 2 + 1

/-- The message, its first bit the coefficient of the highest power. -/
noncomputable def messagePolynomial (message : Block) : (ZMod 2)[X] :=
  bitsPolynomial (packetBits message)

/-- The checksum, `crc[1]` the high byte and `crc[0]` the low one.
SOURCE: tools.c:143-144 -/
noncomputable def crcPolynomial (crc : UInt8 × UInt8) : (ZMod 2)[X] :=
  wordPolynomial (crc.2.toBitVec ++ crc.1.toBitVec)

end Atsha204.Interface
