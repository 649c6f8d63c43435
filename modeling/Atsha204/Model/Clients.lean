import Atsha204.Model.ChipCommands

/-!
# `python/atsha204.c` and `atsha204cmd/main.c`: programs over the library

The Python module answers challenges, with a device or, on a key server, from a key and a serial
number. A byte string is the block of its bytes; nothing is said of what lies behind them. The
command line tool opens the device and runs one command. The handle is closed in the end, if only
with the process; that is left out, and so is the help that the tool prints for a command that it
does not know.
-/

set_option autoImplicit false

namespace Atsha204.Model

open Atsha204.Library

variable {σ : Type} (env : Env σ) (charSigned : Bool)

/-- The layer that the library is compiled for, with what it finds: whether the device can be
opened, or the content of the file if there is one.
SOURCE: configuration.h:58-62 -/
inductive UseLayer where
  | ni2c (opened : Bool)
  | emulation (file : Option (List UInt8))

/-- The handle becomes the one of the state; the result says whether it is not NULL.
SOURCE: api.c:143-156 -/
def atshaOpen : UseLayer → Prog σ Bool
  | .ni2c opened => do
    if opened then
      modifyHandle fun _ => openNi2cDev
    return opened
  | .emulation file => atshaOpenEmulation env file

/-! ## The Python module -/

/-- What a function raises. -/
inductive PyException where
  | valueError (text : String)
  | runtimeError (text : String)
  deriving DecidableEq, Repr

/-- What a function ends with. -/
abbrev PyResult := Except PyException Block

/-- The exception of a handle that is NULL.
SOURCE: atsha204.c:49-52, atsha204.c:80-83, atsha204.c:105-108 -/
def notInitialized : PyException := .runtimeError "failed to initialize crypto library"

/-- The numbers are uninitialised, so their content is an argument here.
SOURCE: atsha204.c:53-63, atsha204.c:84-94 -/
def answerChallenge (dns : Resolution) (challenge : Block) (challengeS responseS : AtshaBigInt) :
    Prog σ PyResult := do
  let bytes ← access (copyOut challenge 32)
  let challengeS : AtshaBigInt := ⟨32, ← access (overwrite challengeS.data bytes)⟩
  let (result, responseS) ← atshaChallengeResponse env charSigned dns challengeS responseS
  if result ≠ .ok then
    return .error (.valueError (atshaErrorName result))
  return .ok (← access (copyOut responseS.data.val responseS.bytes))

/-- SOURCE: atsha204.c:30-64 -/
def atshaEmulateHmac (dns : Resolution) (slotId : UInt8) (serial key challenge : Block)
    (challengeS responseS : AtshaBigInt) : Prog σ PyResult := do
  if key.length ≠ 32 then
    return .error (.valueError "key length should be 32!")
  if challenge.length ≠ 32 then
    return .error (.valueError "challenge length should be 32!")
  if !(← atshaOpenServerEmulation slotId (some serial) (some key)) then
    return .error notInitialized
  answerChallenge env charSigned dns challenge challengeS responseS

/-- SOURCE: atsha204.c:66-95 -/
def atshaDoHmac (layer : UseLayer) (dns : Resolution) (challenge : Block)
    (challengeS responseS : AtshaBigInt) : Prog σ PyResult := do
  if challenge.length ≠ 32 then
    return .error (.valueError "challenge length should be 32!")
  if !(← atshaOpen env layer) then
    return .error notInitialized
  answerChallenge env charSigned dns challenge challengeS responseS

/-- SOURCE: atsha204.c:97-123 -/
def getSerial (layer : UseLayer) (abiSerial : AtshaBigInt) : Prog σ PyResult := do
  if !(← atshaOpen env layer) then
    return .error notInitialized
  let (result, abiSerial) ← atshaSerialNumber env abiSerial
  if result ≠ .ok then
    return .error (.runtimeError ("failed to get serial number - " ++ atshaErrorName result))
  return .ok (← access (copyOut abiSerial.data.val abiSerial.bytes))

/-! ## The hash of the standard input -/

/-- What is left of a stream behind a buffer is shorter, so reading buffer by buffer ends. -/
theorem drop_buffer_lt {stream : List UInt8} (h : ¬ (stream.take buffsize).length = 0) :
    (stream.drop buffsize).length < stream.length := by
  have hpos : 0 < buffsize := by decide
  rw [List.length_take] at h
  rw [List.length_drop]
  omega

/-- The text that a context has been given when the stream ends, buffer by buffer.
SOURCE: main.c:97-107 -/
def sha256Updates (context stream : List UInt8) : List UInt8 :=
  let buff := stream.take buffsize
  if buff.length = 0 then context ++ buff
  else sha256Updates (context ++ buff) (stream.drop buffsize)
termination_by stream.length
decreasing_by exact drop_buffer_lt ‹_›

/-- The status of the hash is not looked at, so the number keeps its bytes where there is none.
SOURCE: main.c:91-112 -/
def getFileSha256 (abi : AtshaBigInt) (stream : List UInt8) : AtshaBigInt :=
  ⟨32, (env.openssl.sha256 (sha256Updates [] stream)).getD abi.data⟩

/-! ## The command line tool -/

/-- What becomes of the random bytes that are fed to the kernel, with the text of the error. -/
inductive RandomDevice where
  | notOpened (strerror : String)
  | refused (strerror : String)
  | taken

/-- The commands, with what they find: the random device, the standard input, the count of
addresses as `atoi` returns it.
SOURCE: main.c:20-26 -/
inductive CmdCommand where
  | serialNumber
  | hwRev
  | random
  | feedEntropy (device : RandomDevice)
  | challengeResponse (stdin : List UInt8)
  | fileChallengeResponse (stdin : List UInt8)
  | mac (count : Int)
  | unknown

/-- The uninitialised variables of the main program. -/
structure CmdLocals where
  buff : InputBuffer
  sn : AtshaBigInt
  challenge : AtshaBigInt
  response : AtshaBigInt
  macPrefix : AtshaBigInt
  addr : AtshaBigInt

/-- An operation, the message that it fails with, and what is written of its number.
SOURCE: main.c:131-140 and the same lines in the other commands -/
def writeNumber (message : String) (operation : Prog σ (AtshaErr × AtshaBigInt))
    (write : AtshaBigInt → Option (List UInt8)) : Prog σ CommandResult := do
  let (status, number) ← operation
  if status ≠ .ok then
    return ⟨3, [], message ++ atshaErrorName status ++ "\n"⟩
  return ⟨0, [← access (write number)], ""⟩

/-- SOURCE: main.c:168-199 -/
def feedEntropy (device : RandomDevice) (sn : AtshaBigInt) : Prog σ CommandResult := do
  let (status, sn) ← atshaRandom env sn
  if status ≠ .ok then
    return ⟨3, [], "Random numer generation error: " ++ atshaErrorName status ++ "\n"⟩
  match device with
  | .notOpened strerror => return ⟨3, [], "Can't open random device " ++ strerror ++ "\n"⟩
  | .refused strerror =>
    let _ ← access (copyOut sn.data.val sn.bytes)
    return ⟨3, [], "RNDADDENTROPY ioctl() failed: " ++ strerror ++ "\n"⟩
  | .taken =>
    let _ ← access (copyOut sn.data.val sn.bytes)
    return ⟨0, [], ""⟩

/-- The same lines in two commands.
SOURCE: main.c:218-225, main.c:237-244 -/
def respond (dns : Resolution) (challenge response : AtshaBigInt) : Prog σ CommandResult :=
  writeNumber "Challenge response error: "
    (atshaChallengeResponse env charSigned dns challenge response)
    fun response => printNumber response.bytes response.data.val

/-- SOURCE: main.c:131-302 -/
def CmdCommand.run (dns : Resolution) (locals : CmdLocals) (fuel : ℕ) :
    CmdCommand → Prog σ CommandResult
  | .serialNumber => writeNumber "Serial number error: " (atshaSerialNumber env locals.sn)
      fun sn => printNumber sn.bytes sn.data.val
  | .hwRev => writeNumber "HW revision number error: " (atshaSerialNumber env locals.sn)
      fun sn => printNumber 4 sn.data.val
  | .random => writeNumber "Random numer generation error: " (atshaRandom env locals.sn)
      fun sn => copyOut sn.data.val sn.bytes
  | .feedEntropy device => Model.feedEntropy env device locals.sn
  | .challengeResponse stdin => do
    match ← access (challengeOfInput stdin locals.buff locals.challenge) with
    | .error text => return ⟨2, [], text ++ "\n"⟩
    | .ok challenge => respond env charSigned dns challenge locals.response
  | .fileChallengeResponse stdin =>
    respond env charSigned dns (getFileSha256 env locals.challenge stdin) locals.response
  | .mac count => macCommand env charSigned fuel count locals.macPrefix locals.addr
  | .unknown => return ⟨1, [], ""⟩

/-- The command is `none` where the tool is called without arguments.
SOURCE: main.c:114-307 -/
def atsha204cmd (layer : UseLayer) (dns : Resolution) (locals : CmdLocals) (fuel : ℕ)
    (command : Option CmdCommand) : Prog σ CommandResult := do
  match command with
  | none => return ⟨1, [], ""⟩
  | some command =>
    if !(← atshaOpen env layer) then
      return ⟨3, [], "Device couldn't be opened.\n"⟩
    command.run env charSigned dns locals fuel

end Atsha204.Model
