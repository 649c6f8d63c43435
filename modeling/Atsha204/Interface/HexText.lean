import Atsha204.Interface.EmulatedStorage
import Atsha204.Model.ChallengeInput

/-!
# Texts of hexadecimal pairs

The loops that decode such a text, and what it is for one of them to accept nothing else;
the forms in which a number may be written, and what it is for a text to be accepted.
-/

set_option autoImplicit false

namespace Atsha204.Interface

open Atsha204.Library
open Atsha204.Model

/-! ## The loops -/

/-- The parse loops: for the key, the OTP word and the serial number of the emulator, for one
line of a file that a chip is provisioned from, and for a challenge on the standard input.
SOURCE: emulation.c:321-343, emulation.c:372-389, emulation.c:423-440, init.c:50-66,
main.c:71-89 -/
inductive ParseLoop where
  | key
  | otp
  | serialNumber
  | config (lineCnt item : ℕ)
  | challenge
  deriving DecidableEq, Repr

namespace ParseLoop

/-- The number of rounds. -/
def count : ParseLoop → ℕ
  | .key => atsha204SlotByteLen
  | .otp => atsha204OtpByteLen
  | .serialNumber => atsha204SnByteLen + 4
  | .config lineCnt _ => lineCnt
  | .challenge => atshaMaxDataSize

/-- Where the rounds lead that write nothing. -/
def nextIndex : ParseLoop → ℕ → ℕ
  | .serialNumber => skipHole
  | _ => id

/-- Where the first byte is written. -/
def base : ParseLoop → ℕ
  | .config lineCnt item => lineCnt * item
  | _ => 0

/-- The rounds that write a byte. -/
def indices : ParseLoop → List ℕ
  | .serialNumber => List.range' 0 4 ++ List.range' 8 5
  | loop => List.range' 0 loop.count

/-- The loop on a buffer with a line in it. -/
def run (loop : ParseLoop) (line : List UInt8) (out : Block) : Option (Option Block) :=
  parseHexLoop loop.nextIndex loop.count loop.base line (chunkText line).length 0 out

end ParseLoop

/-- A text begins with delimiters and pairs of adjacent hexadecimal digits, as many as there
are values, and ends the last of the pairs; the values are those of the pairs. -/
def BeginsWithPairs (text : List UInt8) (values : Block) : Prop :=
  ∃ (items : List (PairItem UInt8)) (rest : List UInt8), text = renderPairs items ++ rest ∧
    (∀ item ∈ items, (∀ c ∈ item.delims, isDelimiter c = true) ∧
      (hexDigitValue item.first).isSome = true ∧ (hexDigitValue item.second).isSome = true) ∧
    values = items.map fun item => pairValue item.first item.second

/-- The loop succeeds only on a text that begins with as many pairs as it writes bytes, and
the bytes it has written then are their values. Every other line, with another character in
front of the last pair, a lone digit, a sign or a `0x`, is refused. -/
def SoundOn (loop : ParseLoop) (line : List UInt8) : Prop :=
  ∀ out out', loop.run line out = some (some out') →
    ∃ values, BeginsWithPairs (chunkText line) values ∧ values.length = loop.indices.length ∧
      pokeEach loop.base loop.indices values out = some out'

/-- Taken two by two behind delimiters, as many as the loop asks for and with more text behind
each of them, the characters of the line are hexadecimal digits. -/
def DigitsOnly (loop : ParseLoop) (line : List UInt8) : Prop :=
  ∀ pairs, readPairs isDelimiter Prod.mk loop.indices.length (chunkText line) = some pairs →
    ∀ p ∈ pairs, (hexDigitValue p.1).isSome = true ∧ (hexDigitValue p.2).isSome = true

/-! ## The written forms of a number -/

/-- How the digits above nine are written. -/
inductive DigitCase where
  | upper
  | lower
  deriving DecidableEq, Repr

def DigitCase.digit (n : ℕ) : DigitCase → UInt8
  | .upper => UInt8.ofNat (if n < 10 then 0x30 + n else 0x41 + (n - 10))
  | .lower => UInt8.ofNat (if n < 10 then 0x30 + n else 0x61 + (n - 10))

/-- What stands between two pairs.
SOURCE: main.c:52-57 -/
inductive Joiner where
  | nothing
  | space
  | colon
  | semicolon
  | comma
  deriving DecidableEq, Repr

def Joiner.text : Joiner → List UInt8
  | .nothing => []
  | .space => [0x20]
  | .colon => [0x3A]
  | .semicolon => [0x3B]
  | .comma => [0x2C]

/-- A documented form; every pair has a case of its own. -/
structure TextForm where
  joiner : Joiner
  digitCase : ℕ → DigitCase

/-- The pairs of a number, with what stands in front of them. -/
def TextForm.items (form : TextForm) (value : Block) : List (PairItem UInt8) :=
  value.mapIdx fun i byte =>
    { delims := if i = 0 then [] else form.joiner.text
      first := (form.digitCase i).digit (byte.toNat / 16)
      second := (form.digitCase i).digit (byte.toNat % 16) }

/-- A number in this form. -/
def TextForm.text (form : TextForm) (value : Block) : List UInt8 := renderPairs (form.items value)

/-- What follows a text: a newline and more input, or nothing. -/
inductive Ending where
  | newline (rest : List UInt8)
  | endOfInput

def Ending.text : Ending → List UInt8
  | .newline rest => 0x0A :: rest
  | .endOfInput => []

def Ending.IsNewline (ending : Ending) : Prop := ∃ rest, ending = .newline rest

/-- Whatever the buffer and the challenge held before, the text is taken for the value. -/
def ChallengeAccepted (form : TextForm) (value : List.Vector UInt8 atshaMaxDataSize)
    (ending : Ending) : Prop :=
  ∀ (buff : InputBuffer) (challenge : AtshaBigInt),
    challengeOfInput (form.text value.val ++ ending.text) buff challenge =
      some (.ok ⟨atshaMaxDataSize, value⟩)

/-- The documented file, up to the last digit of its serial number. -/
def ConfigLayout.front (layout : ConfigLayout) : List UInt8 :=
  (List.ofFn (fun i => (layout.keys i).text) ++ List.ofFn (fun i => (layout.otp i).text)).flatten ++
    renderPairs layout.sn.items

/-- An emulated device over the file gives the serial number of the chip. -/
def SnAccepted (layout : ConfigLayout) (ending : Ending) : Prop :=
  ∀ (σ : Type) (env : Env σ) (s : St σ) (number : AtshaBigInt),
    s.handle.bottomLayer = .emulation → s.handle.isSrvEmulation = false →
      s.handle.file.map File.content = some (layout.front ++ ending.text) →
        ∃ r s', (atshaChipSerialNumber env number).run s = .ok (.ok, r) s' ∧
          Holds r layout.sn.bytes

end Atsha204.Interface
