import Mathlib.Data.Vector.Basic
import Atsha204.Library.Memory
import Atsha204.Library.Program

/-!
# Handles, the bus and the state of a run

The state a library call runs on: the handle, the state `σ` of the bus with the device
behind it, and the trace of what the call exchanged with the outside. The trace is a
ghost: it is only ever extended, and no function of the library reads it.

What the library leaves to the system is a parameter. `I2cBus σ` is the native I2C
driver (`open`, `ioctl`, `write`, `read` on the device node), any device and any failure
of the link included; `OpenSsl` is the digest library; `Uninit` is the content of
uninitialised local variables. Allocation is taken to succeed, a zero sized request
included; an access outside a block of memory is the fault `outOfBounds`, and nothing is
said about what a run does after it.
-/

set_option autoImplicit false

namespace Atsha204.Model

open Atsha204.Library

/-! ## Constants -/

/-- Status bytes of the device.
SOURCE: atsha204consts.h:39-44 -/
def atsha204StatusSucces : UInt8 := 0x00
def atsha204StatusCheckMacMiscompare : UInt8 := 0x01
def atsha204StatusParseError : UInt8 := 0x03
def atsha204StatusExecError : UInt8 := 0x0F
def atsha204StatusWakeOk : UInt8 := 0x11
def atsha204StatusCommunicationError : UInt8 := 0xFF

/-- Opcodes of the device.
SOURCE: atsha204consts.h:47-54 -/
def atsha204OpcodeDevRev : UInt8 := 0x30
def atsha204OpcodeRandom : UInt8 := 0x1B
def atsha204OpcodeRead : UInt8 := 0x02
def atsha204OpcodeWrite : UInt8 := 0x12
def atsha204OpcodeNonce : UInt8 := 0x16
def atsha204OpcodeHmac : UInt8 := 0x11
def atsha204OpcodeMac : UInt8 := 0x08
def atsha204OpcodeLock : UInt8 := 0x17

/-- Word addresses of the I2C protocol.
SOURCE: atsha204consts.h:33-34 -/
def atsha204I2cWaIdle : UInt8 := 0x02
def atsha204I2cWaCommand : UInt8 := 0x03

/-- How long the library waits for the device, in microseconds.
SOURCE: atsha204consts.h:30 -/
def atsha204I2cCmdTout : ℕ := 100000

/-- Seconds after which a process that has a native handle open is ended.
SOURCE: configuration.h:27-28 -/
def killUnreleasedLockAfter : ℕ := 10

/-- Sizes and limits.
SOURCE: atsha204consts.h:57-61, atsha204.h:42, configuration.h:25-32 -/
def atsha204SnByteLen : ℕ := 9
def atsha204SlotByteLen : ℕ := 32
def atsha204OtpByteLen : ℕ := 4
def atsha204MaxSlotNumber : UInt8 := 15
def atshaMaxDataSize : ℕ := 32
def buffsizeNi2c : ℕ := 84
def buffsizeLine : ℕ := 128
def trySendRecvOnCommError : ℕ := 5

/-- OTP and configuration words with a fixed meaning.
SOURCE: atsha204consts.h:64-73 -/
def atsha204ConfigOtpmodeReadonly : UInt8 := 0xAA
def atsha204OtpMemoryMapRevNumber : UInt8 := 0x00
def atsha204OtpMemoryMapSerialNumber : UInt8 := 0x01
def atsha204OtpMemoryMapOriginKeySet : UInt8 := 0x02
def atsha204CnfMemoryMapI2cAddress : UInt8 := 0x04

/-- The serial number is the one of the OTP memory, not the one of the manufacturer.
SOURCE: configuration.h:35 -/
def useOurSn : Bool := true

/-- The status codes of the library.
SOURCE: atsha204.h:256-264 -/
inductive AtshaErr where
  | ok
  | memoryAllocationError
  | invalidInput
  | communication
  | badCommunicationStatus
  | wakeNotConfirmed
  | notImplemented
  | configFileBadFormat
  | dnsGetKey
  deriving DecidableEq, Repr

/-! ## Data -/

/-- A block of memory. -/
abbrev Block := List UInt8

/-- The buffer one `read` of the bus fills.
SOURCE: layer_ni2c.c:46, configuration.h:30 -/
abbrev Frame := List.Vector UInt8 buffsizeNi2c

/-- A number of at most 32 bytes; nothing ties the length to the buffer.
SOURCE: atsha204.h:47-50 -/
structure AtshaBigInt where
  bytes : ℕ
  data : List.Vector UInt8 atshaMaxDataSize
  deriving DecidableEq

/-- A text file open for reading: its content and what of it has not been read yet. -/
structure File where
  content : List UInt8
  rest : List UInt8
  deriving DecidableEq

/-- SOURCE: api.h:65-66 -/
inductive BottomLayer where
  | emulation
  | ni2c
  deriving DecidableEq, Repr

/-- An instance of the library. `none` is a NULL pointer.
SOURCE: api.h:45-63 -/
structure AtshaHandle where
  bottomLayer : BottomLayer
  isSrvEmulation : Bool
  file : Option File
  sn : Option Block
  key : Option Block
  keyOrigin : UInt32
  keyOriginCached : Bool
  slotId : UInt8
  nonce : List.Vector UInt8 atsha204SlotByteLen
  wakeIsExpected : Bool

/-! ## The outside -/

/-- The native I2C driver, as the calls that `layer_ni2c.c` makes on it. The write of
the wake token has a result that the library does not look at. -/
structure I2cBus (σ : Type) where
  openPath : σ → Bool × σ
  bindGeneralCall : σ → Bool × σ
  writeWake : σ → σ
  write : List UInt8 → σ → Bool × σ
  read : σ → Option Frame × σ

/-- OpenSSL's HMAC-SHA256 (of a key and a message) and SHA256; `none` is a NULL result. -/
structure OpenSsl where
  hmac : List UInt8 → List UInt8 → Option (List UInt8)
  sha256 : List UInt8 → Option (List.Vector UInt8 32)

/-- The local variables that are read, in part or in some runs, without having been
written. -/
inductive Local where
  | emulReadLine
  | emulReadBytes
  | emulDigestKey
  | serialNumberPart
  | changeAddressLine
  | openEmulationNumber
  | findSlotNumber
  | readConfigLine
  | initData
  | initOtp
  | configImage
  | configRecord
  | setOtpModeRecord
  | setSlotConfigRecord
  | writeDataNumber
  deriving DecidableEq, Repr

/-- The content of uninitialised variables. -/
structure Uninit where
  bytes : Local → ℕ → UInt8
  size : Local → ℕ

/-- Everything a call takes from its surroundings. -/
structure Env (σ : Type) where
  bus : I2cBus σ
  openssl : OpenSsl
  uninit : Uninit

/-- What a call exchanged with the outside: the calls on the bus, the packets handed to
the emulator, the lines given to the log callback and the lines the tools print. A write
carries the state of the bus it was made in. -/
inductive Event (σ : Type) where
  | opened (ok : Bool)
  | bound (ok : Bool)
  | wakeToken
  | written (bytes : List UInt8) (ok : Bool) (before : σ)
  | received (data : Option Frame)
  | emulated (packet : Block)
  | message (text : String)
  | printed (text : String)

/-- The state of a run. -/
structure St (σ : Type) where
  handle : AtshaHandle
  bus : σ
  trace : List (Event σ)

/-- The state after an exchange with the outside: a new state of the bus and one more event
in the trace. -/
def St.exchanged {σ : Type} (s : St σ) (bus : σ) (e : Event σ) : St σ :=
  { s with bus := bus, trace := s.trace ++ [e] }

/-- An exchange on the bus leaves the handle alone. -/
@[simp] theorem St.exchanged_handle {σ : Type} (s : St σ) (bus : σ) (e : Event σ) :
    (s.exchanged bus e).handle = s.handle := rfl

/-- It leaves the bus in the state that it is given. -/
@[simp] theorem St.exchanged_bus {σ : Type} (s : St σ) (bus : σ) (e : Event σ) :
    (s.exchanged bus e).bus = bus := rfl

/-- It adds one event to the trace. -/
@[simp] theorem St.exchanged_trace {σ : Type} (s : St σ) (bus : σ) (e : Event σ) :
    (s.exchanged bus e).trace = s.trace ++ [e] := rfl

/-- The state after some exchanges and then some lines given to the log. -/
def St.after {σ : Type} (s : St σ) (bus : σ) (events : List (Event σ))
    (messages : List String) : St σ :=
  { s with bus := bus, trace := s.trace ++ events ++ messages.map .message }

/-- Several exchanges leave the handle alone. -/
@[simp] theorem St.after_handle {σ : Type} (s : St σ) (bus : σ) (events : List (Event σ))
    (messages : List String) : (s.after bus events messages).handle = s.handle := rfl

/-- They leave the bus in the last state. -/
@[simp] theorem St.after_bus {σ : Type} (s : St σ) (bus : σ) (events : List (Event σ))
    (messages : List String) : (s.after bus events messages).bus = bus := rfl

/-- They add their events to the trace, and then the lines of the log. -/
@[simp] theorem St.after_trace {σ : Type} (s : St σ) (bus : σ) (events : List (Event σ))
    (messages : List String) : (s.after bus events messages).trace =
      s.trace ++ events ++ messages.map .message := rfl

/-- Why a run does not return: an access outside a block of memory, or a loop (or a
call of a function from within itself) that the fuel of the model does not reach the end
of. -/
inductive Fault where
  | outOfBounds
  | outOfFuel
  deriving DecidableEq, Repr

/-- A call of the library. -/
abbrev Prog (σ α : Type) := EStateM Fault (St σ) α

variable {σ α : Type}

/-! ## Elementary steps -/

/-- The value of a memory access. -/
def access (o : Option α) : Prog σ α := orFault .outOfBounds o

def emit (e : Event σ) : Prog σ Unit := modify fun s => s.exchanged s.bus e

/-- SOURCE: api.c:55-64 -/
def logMessage (text : String) : Prog σ Unit := emit (.message text)

def getHandle : Prog σ AtshaHandle := do return (← get).handle

def modifyHandle (f : AtshaHandle → AtshaHandle) : Prog σ Unit :=
  modify fun s => { s with handle := f s.handle }

def setWakeIsExpected (expected : Bool) : Prog σ Unit :=
  modifyHandle fun h => { h with wakeIsExpected := expected }

/-- The content of an uninitialised buffer. -/
def Env.uninitBuffer (env : Env σ) (l : Local) (n : ℕ) : List.Vector UInt8 n :=
  List.Vector.ofFn fun i => env.uninit.bytes l i

/-- The content of an uninitialised big number. -/
def Env.uninitBigInt (env : Env σ) (l : Local) : AtshaBigInt :=
  ⟨env.uninit.size l, env.uninitBuffer l atshaMaxDataSize⟩

/-! ## Their weakest preconditions -/

section WeakestPreconditions

variable {β : Type} (Q : α → St σ → Prop) (E : St σ → Prop) (s : St σ)

/-- A partial access ends in its value, or faults. -/
@[simp] theorem wp_access (o : Option α) :
    wp (access o) Q E s ↔ match o with
      | some a => Q a s
      | none => E s := wp_orFault _ o Q E s

/-- An event is added to the trace. -/
@[simp] theorem wp_emit (e : Event σ) (Q : Unit → St σ → Prop) :
    wp (emit e) Q E s ↔ Q () (s.exchanged s.bus e) := Iff.rfl

/-- A line is added to the log. -/
@[simp] theorem wp_logMessage (text : String) (Q : Unit → St σ → Prop) :
    wp (logMessage text) Q E s ↔ Q () (s.exchanged s.bus (.message text)) := Iff.rfl

/-- The handle is given and stays as it is. -/
@[simp] theorem wp_getHandle (Q : AtshaHandle → St σ → Prop) :
    wp getHandle Q E s ↔ Q s.handle s := Iff.rfl

/-- Only the handle is changed. -/
@[simp] theorem wp_modifyHandle (f : AtshaHandle → AtshaHandle) (Q : Unit → St σ → Prop) :
    wp (modifyHandle f) Q E s ↔ Q () { s with handle := f s.handle } := Iff.rfl

/-- Only the flag is changed. -/
@[simp] theorem wp_setWakeIsExpected (expected : Bool) (Q : Unit → St σ → Prop) :
    wp (setWakeIsExpected expected) Q E s ↔
      Q () { s with handle := { s.handle with wakeIsExpected := expected } } := Iff.rfl

end WeakestPreconditions

end Atsha204.Model
