import Atsha204.Model.ChipTest
import Atsha204.Model.SetAddress

/-!
# `chiptools/commands.c` and `chiptools/main.c`: the commands of `chiptools`

A dump prints a zone word by word, and stops behind the label of a word that cannot be read. The
main program opens the device, runs one command and turns its outcome into an exit code; what `init`
and `test` print is in the trace. The help that follows some of its messages is left out.
-/

set_option autoImplicit false

namespace Atsha204.Model

open Atsha204.Library

variable {σ : Type} (env : Env σ)

/-- The bytes of a text. -/
def textBytes (text : String) : List UInt8 := text.toUTF8.toList

/-! ## Dumps -/

/-- The labels `0x%02X: ` and `%2u: `.
SOURCE: commands.c:31, commands.c:53 -/
def hexLabel (n : ℕ) : List UInt8 := textBytes "0x" ++ pairText (UInt8.ofNat n) ++ textBytes ": "
def decimalLabel (n : ℕ) : List UInt8 :=
  [if n < 10 then 0x20 else upperDigit (n / 10), upperDigit (n % 10)] ++ textBytes ": "

/-- Some words, and whether all of them could be read. -/
def dumpWords (label : ℕ → List UInt8)
    (read : UInt8 → AtshaBigInt → Prog σ (AtshaErr × AtshaBigInt)) :
    List ℕ → AtshaBigInt → Prog σ (Bool × List UInt8)
  | [], _ => pure (true, [])
  | addr :: addrs, data => do
    let (status, data) ← read (UInt8.ofNat addr) data
    if status ≠ .ok then
      return (false, label addr)
    let bytes ← access (copyOut data.data.val data.bytes)
    let (done, text) ← dumpWords label read addrs data
    return (done, label addr ++ spacedPairs bytes ++ [0x0A] ++ text)

/-- A zone with its title. -/
def dumpZone (title : String) (label : ℕ → List UInt8)
    (read : UInt8 → AtshaBigInt → Prog σ (AtshaErr × AtshaBigInt)) (count : ℕ)
    (data : AtshaBigInt) : Prog σ (Bool × List UInt8) := do
  let (done, text) ← dumpWords label read (List.range count) data
  return (done, textBytes title ++ text ++ if done then [0x0A] else [])

/-- The number is the content of the uninitialised variable `data`.
SOURCE: commands.c:25-44 -/
def dumpConfig (data : AtshaBigInt) : Prog σ (Bool × List UInt8) :=
  dumpZone "Config zone (0x00 - 0x15):\n" hexLabel (atshaRawConfRead env) 22 data

/-- SOURCE: commands.c:46-65 -/
def dumpData (data : AtshaBigInt) : Prog σ (Bool × List UInt8) :=
  dumpZone "Data zone (slot 0 - 15):\n" decimalLabel (atshaRawSlotRead env) 16 data

/-- SOURCE: commands.c:67-86 -/
def dumpOtp (data : AtshaBigInt) : Prog σ (Bool × List UInt8) :=
  dumpZone "OTP zone (0x00 - 0x0F):\n" hexLabel (atshaRawOtpRead env) 16 data

/-! ## The main program -/

/-- SOURCE: main.c:165-170 -/
def printAbi (abi : AtshaBigInt) : Option (List UInt8) := do
  return spacedPairs (← copyOut abi.data.val abi.bytes) ++ [0x0A]

/-- What a command ends with whose outcome is bad.
SOURCE: main.c:337-340 -/
def commandFailed (stdout : List (List UInt8)) : CommandResult := ⟨2, stdout, "Command failed\n"⟩

/-- SOURCE: main.c:238-252 -/
def dumpCommand (dump : Prog σ (Bool × List UInt8)) : Prog σ CommandResult := do
  let (done, text) ← dump
  return if done then ⟨0, [text], ""⟩ else commandFailed [text]

/-- SOURCE: main.c:253-267 -/
def numberCommand (operation : Prog σ (AtshaErr × AtshaBigInt)) : Prog σ CommandResult := do
  let (errcode, abi) ← operation
  if errcode ≠ .ok then
    return commandFailed []
  return ⟨0, [← access (printAbi abi)], ""⟩

/-- A command that prints into the trace.
SOURCE: main.c:277-280, main.c:287-290 -/
def traceCommand (command : Prog σ Bool) : Prog σ CommandResult := do
  return if ← command then ⟨0, [], ""⟩ else commandFailed []

/-- SOURCE: main.c:308-316 -/
def devRevCommand (rev : UInt32) : Prog σ CommandResult := do
  let (errcode, rev) ← atshaDevRev env rev
  if errcode ≠ .ok then
    return commandFailed []
  return ⟨0, [textBytes (toString rev.toNat ++ "\n")], ""⟩

/-- A command that needs an argument.
SOURCE: main.c:272-276 and the same lines in three other commands -/
def withArgument {α : Type} (name : String) (argument : Option α)
    (command : α → Prog σ CommandResult) : Prog σ CommandResult :=
  match argument with
  | none => return ⟨2, [], "Bad argument count for command " ++ name ++ "\n\n"⟩
  | some argument => command argument

/-- The commands, with their argument where one is given: the file as its content or `none` where
it cannot be opened, the number as `strtol` returns it.
SOURCE: main.c:44-58 -/
inductive Command where
  | undefined
  | dumpConfig
  | dumpOtp
  | dumpData
  | sn
  | chipsn
  | random
  | getSlot
  | init (file : Option (Option (List UInt8)))
  | test (file : Option (Option (List UInt8)))
  | setAddress (number : Option Int)
  | devRev
  | sleep (seconds : Option Int)

/-- The uninitialised variables of the main program and of its commands. -/
structure CommandLocals where
  abi : AtshaBigInt
  data : AtshaBigInt
  responseI2c : AtshaBigInt
  responseEmul : AtshaBigInt
  rev : UInt32

/-- SOURCE: main.c:236-335 -/
def Command.run (charSigned : Bool) (dns : Resolution) (locals : CommandLocals) :
    Command → Prog σ CommandResult
  | .undefined => return ⟨2, [], "Undefined command\n\n"⟩
  | .dumpConfig => dumpCommand (Model.dumpConfig env locals.data)
  | .dumpOtp => dumpCommand (Model.dumpOtp env locals.data)
  | .dumpData => dumpCommand (Model.dumpData env locals.data)
  | .sn => numberCommand (atshaSerialNumber env locals.abi)
  | .chipsn => numberCommand (atshaChipSerialNumber env locals.abi)
  | .random => numberCommand (atshaRandom env locals.abi)
  | .getSlot => do
    let slot ← atshaFindSlotNumber env charSigned dns
    return ⟨0, [textBytes (toString slot.toNat ++ "\n")], ""⟩
  | .init argument => withArgument "init" argument fun file => traceCommand (Model.init env file)
  | .test argument => withArgument "test" argument fun file => traceCommand
      (Model.test env file locals.responseI2c locals.responseEmul locals.data)
  | .setAddress argument => withArgument "set-address" argument fun newAddr =>
      Model.setAddress env newAddr
  | .devRev => devRevCommand env locals.rev
  | .sleep argument => withArgument "sleep" argument fun seconds => return if seconds < 1 then
      ⟨1, [], "Sleep time should be a positive integer\n"⟩ else ⟨0, [], ""⟩

/-- A process of its own: it opens the device, where that can be done, and runs the command.
SOURCE: main.c:192-346 -/
def chiptools (charSigned : Bool) (dns : Resolution) (locals : CommandLocals) (opened : Bool)
    (command : Command) : Prog σ CommandResult := do
  if !opened then
    return ⟨1, [], "Couldn't open I2C devidce.\n"⟩
  modifyHandle fun _ => openNi2cDev
  command.run env charSigned dns locals

end Atsha204.Model
