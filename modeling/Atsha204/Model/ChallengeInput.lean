import Atsha204.Model.TextFile

/-!
# `atsha204cmd/main.c`: numbers on the standard streams

A challenge is read from the standard input as a line of text and decoded; a number is
printed as pairs of upper case digits. The buffer and the challenge of the caller are
uninitialised, so their content is an argument here.
-/

set_option autoImplicit false

namespace Atsha204.Model

open Atsha204.Library

/-- SOURCE: main.c:28 -/
def buffsize : ℕ := 512

/-- The buffer of the caller. -/
abbrev InputBuffer := List.Vector UInt8 buffsize

/-- A digit as `%X` writes it. -/
def upperDigit (n : ℕ) : UInt8 := UInt8.ofNat (if n < 10 then 0x30 + n else 0x41 + (n - 10))

/-- What is printed; `none` where `data` is shorter than `len`.
SOURCE: main.c:34-39 -/
def printNumber (len : ℕ) (data : Block) : Option (List UInt8) := do
  let bytes ← copyOut data len
  let pairs := bytes.flatMap fun b => [upperDigit (b.toNat / 16), upperDigit (b.toNat % 16)]
  return pairs ++ [0x0A]

/-- One `fgets` of the standard input; the inner `none` is `false`.
SOURCE: main.c:63-69 -/
def readChallenge (stdin : List UInt8) (buff : InputBuffer) : Option (Option InputBuffer) := do
  match nextChunk isNewline (buffsize - 1) stdin with
  | none => return none
  | some (chunk, _) => return some (← overwrite buff (chunk ++ [0]))

/-- The same loop as in the library, over a longer buffer. What a refused text leaves in the
challenge is not looked at.
SOURCE: main.c:71-89 -/
def getChallengeFromInput (buff : InputBuffer) (challenge : AtshaBigInt) :
    Option (Option AtshaBigInt) := do
  let length := (buff.val.takeWhile (· ≠ 0)).length
  match ← parseHexLoop id atshaMaxDataSize 0 buff.val length 0 challenge.data.val with
  | none => return none
  | some data => return some ⟨atshaMaxDataSize, ← overwrite challenge.data data⟩

/-- The challenge of the `challenge-response` command, or the message it stops with.
SOURCE: main.c:206-216 -/
def challengeOfInput (stdin : List UInt8) (buff : InputBuffer) (challenge : AtshaBigInt) :
    Option (Except String AtshaBigInt) := do
  match ← readChallenge stdin buff with
  | none => return .error "Input couldn't be read."
  | some buff =>
    match ← getChallengeFromInput buff challenge with
    | none => return .error "Input couldn't be converted."
    | some challenge => return .ok challenge

end Atsha204.Model
