import Atsha204.Model.ChipTools
import Atsha204.Model.MacCommand

/-!
# `chiptools/test.c`: comparing a chip with its file

`test` opens the configuration file as a second handle, on the emulation layer, asks both handles
the same and compares what they answer. The second handle is a local variable of the run; an
operation on it is one on the state with that handle in the place of the first (`onHandle`). At the
end the configuration zone is printed, without a look at the status of the reads.
-/

set_option autoImplicit false

namespace Atsha204.Model

open Atsha204.Library

variable {σ : Type}

/-! ## Two handles -/

/-- An operation on another handle; what it makes of this handle is returned with its result. -/
def onHandle {α : Type} (other : AtshaHandle) (x : Prog σ α) : Prog σ (α × AtshaHandle) := do
  let own ← getHandle
  modifyHandle fun _ => other
  let a ← x
  let other ← getHandle
  modifyHandle fun _ => own
  return (a, other)

/-! ## Texts -/

/-- Bytes as `%02X ` writes them, one after the other. -/
def spacedPairs (bytes : Block) : List UInt8 := bytes.flatMap fun b => pairText b ++ [0x20]

/-- The characters as a text. -/
def asText (characters : List UInt8) : String :=
  String.ofList (characters.map fun c => Char.ofNat c.toNat)

/-- A number smaller than 100 as `%02u` writes it. -/
def twoDigits (n : ℕ) : String := asText [upperDigit (n / 10), upperDigit (n % 10)]

/-- A title between two rows of signs of equality.
SOURCE: test.c:74, test.c:140, test.c:161 -/
def titleLine (title : String) (behind : ℕ) : String :=
  String.ofList (List.replicate 50 '=') ++ title ++ String.ofList (List.replicate behind '=')

/-- The bytes of a number behind a label. -/
def printNumberLine (label : String) (number : AtshaBigInt) : Prog σ Unit := do
  let bytes ← access (copyOut number.data.val number.bytes)
  emit (.printed (label ++ asText (spacedPairs bytes)))

/-- Two OTP words in one line.
SOURCE: test.c:146-157 -/
def printOtpLine (addr : UInt8) (responseI2c responseEmul : AtshaBigInt) : Prog σ Unit := do
  let hardware ← access (copyOut responseI2c.data.val 4)
  let software ← access (copyOut responseEmul.data.val 4)
  let label := "0x" ++ asText (pairText addr) ++ ": "
  emit (.printed (label ++ asText (spacedPairs hardware) ++ "\t\t\t " ++ label ++
    asText (spacedPairs software).dropLast))

/-! ## Comparing -/

/-- The bytes from `i` on, with so many of them left. -/
def cmpBytes (r1 r2 : AtshaBigInt) : ℕ → ℕ → Option Bool
  | 0, _ => some true
  | left + 1, i => do
    if (← peek r1.data.val i) ≠ (← peek r2.data.val i) then
      return false
    cmpBytes r1 r2 left (i + 1)

/-- SOURCE: test.c:26-34 -/
def cmpResponses (r1 r2 : AtshaBigInt) : Option Bool :=
  if r1.bytes ≠ r2.bytes then some false else cmpBytes r1 r2 r1.bytes 0

/-- The local variables of `test`. -/
structure TestLocals where
  handleEmul : AtshaHandle
  responseI2c : AtshaBigInt
  responseEmul : AtshaBigInt

/-- Both handles are asked the same, the answers are printed, and compared.
SOURCE: test.c:57-71, test.c:75-89, test.c:143-158 -/
def compareAnswers (ask : AtshaBigInt → Prog σ (AtshaErr × AtshaBigInt))
    (print : AtshaBigInt → AtshaBigInt → Prog σ Unit) (locals : TestLocals) :
    Prog σ (Option TestLocals) := do
  let (status, responseI2c) ← ask locals.responseI2c
  if status ≠ .ok then
    return none
  let ((status, responseEmul), handleEmul) ← onHandle locals.handleEmul (ask locals.responseEmul)
  if status ≠ .ok then
    return none
  print responseI2c responseEmul
  if !(← access (cmpResponses responseI2c responseEmul)) then
    return none
  return some ⟨handleEmul, responseI2c, responseEmul⟩

/-- A line for each of the two answers. -/
def printBoth (label : String) (responseI2c responseEmul : AtshaBigInt) : Prog σ Unit := do
  printNumberLine (label ++ "HW: ") responseI2c
  printNumberLine (label ++ "SW: ") responseEmul

/-! ## The command -/

variable (env : Env σ)

/-- SOURCE: test.c:44-52 -/
def testChallenge : AtshaBigInt where
  bytes := 32
  data := ⟨[0x79, 0x55, 0x98, 0x14, 0x78, 0x0F, 0xCC, 0xAA,
    0x09, 0x2C, 0xFA, 0xFA, 0xF8, 0x03, 0xF5, 0x18,
    0xA1, 0x3E, 0xC7, 0x50, 0x44, 0x44, 0x88, 0xF6,
    0x4D, 0xAC, 0xC2, 0x0B, 0x2A, 0xA3, 0x24, 0x5B], rfl⟩

/-- SOURCE: test.c:57-71 -/
def testSerialNumber (locals : TestLocals) : Prog σ (Option TestLocals) :=
  compareAnswers (atshaSerialNumber env) (printBoth "SN ") locals

/-- The four digests under the key of a slot.
SOURCE: test.c:74-137 -/
def testSlot (slot : UInt8) (locals : TestLocals) : Prog σ (Option TestLocals) := do
  emit (.printed (titleLine (" " ++ twoDigits slot.toNat ++ " ") 50))
  match ← compareAnswers
      (fun number => atshaLowChallengeResponse env slot testChallenge number true)
      (printBoth "HMAC ") locals with
  | none => return none
  | some locals =>
    match ← compareAnswers
        (fun number => atshaLowChallengeResponse env slot testChallenge number false)
        (printBoth "HMAC ") locals with
    | none => return none
    | some locals =>
      match ← compareAnswers
          (fun number => atshaLowChallengeResponseMac env slot testChallenge number true)
          (printBoth "MAC  ") locals with
      | none => return none
      | some locals =>
        compareAnswers
          (fun number => atshaLowChallengeResponseMac env slot testChallenge number false)
          (printBoth "MAC  ") locals

/-- SOURCE: test.c:143-158 -/
def testOtp (addr : UInt8) (locals : TestLocals) : Prog σ (Option TestLocals) :=
  compareAnswers (atshaRawOtpRead env addr) (printOtpLine addr) locals

/-- A word of the configuration zone, or what is in the variable where it cannot be read.
SOURCE: test.c:165-170 -/
def printConfigWord (addr : UInt8) (data : AtshaBigInt) : Prog σ AtshaBigInt := do
  let (_, data) ← atshaRawConfRead env addr data
  printNumberLine ("0x" ++ asText (pairText addr) ++ ": ") data
  return data

/-- The file is its content, or `none` where it cannot be opened; the numbers are the content of
the uninitialised variables `response_i2c`, `response_emul` and `data`.
SOURCE: test.c:36-178 -/
def test (file : Option (List UInt8)) (responseI2c responseEmul data : AtshaBigInt) :
    Prog σ Bool := do
  let (opened, handleEmul) ← onHandle callocHandle (atshaOpenEmulation env file)
  if !opened then
    emit (.printed "Couldn't open emulation handler.")
    return false
  match ← testSerialNumber env ⟨handleEmul, responseI2c, responseEmul⟩ with
  | none => return false
  | some locals =>
    match ← foldWhile (fun slot locals => testSlot env (UInt8.ofNat slot) locals)
        (List.range 16) locals with
    | none => return false
    | some locals =>
      emit (.printed (titleLine " OTP " 49))
      match ← foldWhile (fun addr locals => testOtp env (UInt8.ofNat addr) locals)
          (List.range 16) locals with
      | none => return false
      | some _ =>
        emit (.printed (titleLine " CNF " 49))
        let _ ← (List.range 22).foldlM
          (fun data addr => printConfigWord env (UInt8.ofNat addr) data) data
        return true

end Atsha204.Model
