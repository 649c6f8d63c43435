import Atsha204.Interface.BusCalls

/-!
# Every operation meets the bus in its calls only

`Interactive` passes through sequencing, through retry loops and through every function of
the library, layer by layer, so that every sequence of public operations is a program on the
bus (`callAll_interactive`).
-/

set_option autoImplicit false

namespace Atsha204.Analysis

open Atsha204.Library
open Atsha204.Model
open Atsha204.Interface

variable {α β γ : Type}

/-! ## Closure -/

/-- Returning a value needs no bus. -/
theorem interactive_pure (a : α) : Interactive fun _ _ => (pure a : Prog _ α) :=
  ⟨fun h => .done (.ok a, h), fun _ _ _ => rfl⟩

/-- A fault needs none. -/
theorem interactive_throw (e : Fault) : Interactive fun _ _ => (throw e : Prog _ α) :=
  ⟨fun h => .done (.error e, h), fun _ _ _ => rfl⟩

/-- The trees of a sequence are put together. -/
theorem interactive_bind {x : OnEveryBus α} {f : α → OnEveryBus β} (hx : Interactive x)
    (hf : ∀ a, Interactive (f a)) :
    Interactive fun σ bus => x σ bus >>= fun a => f a σ bus := by
  obtain ⟨tree, hx⟩ := hx
  choose rest hf using hf
  refine ⟨fun h => (tree h).bind fun r => match r with
    | (.ok a, h) => rest a h
    | (.error e, h) => .done (.error e, h), ?_⟩
  intro σ bus s
  have hrun := hx σ bus s
  rw [Interaction.run_bind, ← hrun, EStateM.run_bind]
  cases (x σ bus).run s with
  | ok a s' => exact hf a σ bus s'
  | error e s' => rfl

/-- Either branch of a decision may be taken. -/
theorem interactive_ite {c : Prop} [Decidable c] {x y : OnEveryBus α} (hx : Interactive x)
    (hy : Interactive y) : Interactive fun σ bus => if c then x σ bus else y σ bus := by
  split
  · exact hx
  · exact hy

/-- A partial access needs no bus. -/
theorem interactive_access (o : Option α) : Interactive fun _ _ => (access o : Prog _ α) := by
  cases o with
  | none => exact interactive_throw .outOfBounds
  | some a => exact interactive_pure a

/-- Nor does a line of the log. -/
theorem interactive_logMessage (text : String) :
    Interactive fun _ _ => (logMessage text : Prog _ Unit) :=
  ⟨fun h => .done (.ok (), h), fun _ _ _ => rfl⟩

/-- A line for the log, and then a value. -/
theorem interactive_logged (text : String) (a : α) :
    Interactive fun _ _ => (logMessage text >>= fun _ => pure a : Prog _ α) :=
  interactive_bind (interactive_logMessage text) fun _ => interactive_pure a

/-- Nor does a command to the emulated device. -/
theorem interactive_emulated (packet : Block) :
    Interactive fun _ _ => (emit (.emulated packet) : Prog _ Unit) :=
  ⟨fun h => .done (.ok (), h), fun _ _ _ => rfl⟩

/-- The handle can be looked at without the bus. -/
theorem interactive_getHandle : Interactive fun _ _ => (getHandle : Prog _ AtshaHandle) :=
  ⟨fun h => .done (.ok h, h), fun _ _ _ => rfl⟩

/-- It can be changed without the bus. -/
theorem interactive_modifyHandle (f : AtshaHandle → AtshaHandle) :
    Interactive fun _ _ => (modifyHandle f : Prog _ Unit) :=
  ⟨fun h => .done (.ok (), f h), fun _ _ _ => rfl⟩

/-- So can its flag. -/
theorem interactive_setWakeIsExpected (expected : Bool) :
    Interactive fun _ _ => (setWakeIsExpected expected : Prog _ Unit) :=
  interactive_modifyHandle _

/-- A loop over attempts. -/
theorem interactive_retry {attempt : β → OnEveryBus (Verdict β α)}
    (h : ∀ b, Interactive (attempt b)) (n : ℕ) (b : β) :
    Interactive fun σ bus => retry (fun b => attempt b σ bus) n b := by
  induction n generalizing b with
  | zero => exact interactive_pure _
  | succ n ih =>
    refine interactive_bind (h b) fun verdict => ?_
    cases verdict with
    | accept a => exact interactive_pure _
    | again b => exact ih b
    | abort b => exact interactive_pure _

/-! ## The calls -/

section Layers

variable (openssl : OpenSsl) (uninit : Uninit)

/-- Opening the node is a call on the bus. -/
theorem interactive_sysOpen : Interactive fun _ bus => sysOpen (envOn openssl uninit bus) :=
  ⟨fun h => .call .openPath fun r => .done (.ok r, h), fun _ _ _ => rfl⟩

/-- Binding the general call address is one. -/
theorem interactive_sysBindGeneralCall :
    Interactive fun _ bus => sysBindGeneralCall (envOn openssl uninit bus) :=
  ⟨fun h => .call .bindGeneralCall fun r => .done (.ok r, h), fun _ _ _ => rfl⟩

/-- The wake token is one. -/
theorem interactive_sysWriteWake :
    Interactive fun _ bus => sysWriteWake (envOn openssl uninit bus) :=
  ⟨fun h => .call .writeWake fun r => .done (.ok r, h), fun _ _ _ => rfl⟩

/-- A write is one. -/
theorem interactive_sysWrite (bytes : List UInt8) :
    Interactive fun _ bus => sysWrite (envOn openssl uninit bus) bytes :=
  ⟨fun h => .call (.write bytes) fun r => .done (.ok r, h), fun _ _ _ => rfl⟩

/-- A read is one. -/
theorem interactive_sysRead : Interactive fun _ bus => sysRead (envOn openssl uninit bus) :=
  ⟨fun h => .call .read fun r => .done (.ok r, h), fun _ _ _ => rfl⟩

/-! ## The native I2C layer -/

/-- A read from the device, as a call.
SOURCE: layer_ni2c.c:45-58 -/
theorem interactive_ni2cRead (answer : Option Block) :
    Interactive fun _ bus => ni2cRead (envOn openssl uninit bus) answer := by
  unfold ni2cRead
  refine interactive_bind (interactive_sysRead openssl uninit) fun r => ?_
  cases r with
  | none => exact interactive_logged _ _
  | some data =>
    refine interactive_bind (interactive_access _) fun count => ?_
    exact interactive_bind (interactive_access _) fun copy => interactive_pure _

/-- A wake of the native layer opens the node, binds the address, writes and reads.
SOURCE: layer_ni2c.c:60-87 -/
theorem interactive_ni2cWake (answer : Option Block) :
    Interactive fun _ bus => ni2cWake (envOn openssl uninit bus) answer := by
  unfold ni2cWake
  refine interactive_bind (interactive_sysOpen openssl uninit) fun opened => ?_
  refine interactive_ite (interactive_logged _ _) ?_
  refine interactive_bind (interactive_sysBindGeneralCall openssl uninit) fun bound => ?_
  refine interactive_ite (interactive_logged _ _) ?_
  refine interactive_bind (interactive_sysWriteWake openssl uninit) fun _ => ?_
  exact interactive_ni2cRead openssl uninit answer

/-- Letting the device idle is a write.
SOURCE: layer_ni2c.c:89-95 -/
theorem interactive_ni2cIdle : Interactive fun _ bus => ni2cIdle (envOn openssl uninit bus) := by
  unfold ni2cIdle
  exact interactive_bind (interactive_sysWrite openssl uninit _) fun _ => interactive_pure _

/-- A command of the native layer is a write and a read.
SOURCE: layer_ni2c.c:97-123 -/
theorem interactive_ni2cCommand (packet : Block) (answer : Option Block) :
    Interactive fun _ bus => ni2cCommand (envOn openssl uninit bus) packet answer := by
  unfold ni2cCommand
  refine interactive_bind (interactive_access _) fun count => ?_
  refine interactive_bind (interactive_access _) fun bytes => ?_
  refine interactive_bind (interactive_sysWrite openssl uninit _) fun written => ?_
  exact interactive_ite (interactive_logged _ _) (interactive_ni2cRead openssl uninit answer)

end Layers

/-! ## The emulator -/

/-- The emulated device answers without a bus. -/
theorem interactive_answerWith (data : Block) (dataCount : UInt8) :
    Interactive fun _ _ => (answerWith data dataCount : Prog _ Reply) := by
  unfold answerWith
  exact interactive_bind (interactive_access _) fun answer => interactive_pure _

/-- The file of the handle is read without a bus. -/
theorem interactive_withFile (x : FileProg α) :
    Interactive fun _ _ => (withFile x : Prog _ α) := by
  unfold withFile
  refine interactive_bind interactive_getHandle fun handle => ?_
  refine interactive_bind (interactive_access _) fun file => ?_
  cases x.run file with
  | ok a file =>
    exact interactive_bind (interactive_modifyHandle _) fun _ => interactive_pure _
  | error e file =>
    exact interactive_bind (interactive_modifyHandle _) fun _ => interactive_throw e

/-- So are the lines that are skipped.
SOURCE: emulation.c:309-314 -/
theorem interactive_skipLines (tooFew : String) (n : ℕ) (line : Line) :
    Interactive fun _ _ => (skipLines tooFew n line : Prog _ (Option Line)) := by
  induction n generalizing line with
  | zero => exact interactive_pure _
  | succ n ih =>
    refine interactive_bind (interactive_withFile _) fun r => ?_
    cases r with
    | none => exact interactive_logged _ _
    | some line => exact ih line

/-- So is a line of digits.
SOURCE: emulation.c:316-343 -/
theorem interactive_readHexLine (noLine tooShort : String) (nextIndex : ℕ → ℕ) (count : ℕ)
    (out : Block) (line : Line) : Interactive fun _ _ =>
      (readHexLine noLine tooShort nextIndex count out line : Prog _ (Option Block)) := by
  unfold readHexLine
  refine interactive_bind (interactive_withFile _) fun r => ?_
  cases r with
  | none => exact interactive_logged _ _
  | some line =>
    refine interactive_bind (interactive_access _) fun parsed => ?_
    cases parsed with
    | none => exact interactive_logged _ _
    | some out => exact interactive_pure _

section Emulator

variable (openssl : OpenSsl) (uninit : Uninit)

/-- An emulated read.
SOURCE: emulation.c:281-451 -/
theorem interactive_emulRead (packet : Block) :
    Interactive fun _ bus => emulRead (envOn openssl uninit bus) packet := by
  unfold emulRead
  simp only [Env.uninitBuffer, envOn_uninit]
  refine interactive_bind (interactive_access _) fun param1 => ?_
  refine interactive_ite ?_ (interactive_ite ?_ (interactive_ite ?_ (interactive_logged _ _)))
  · refine interactive_bind (interactive_access _) fun address => ?_
    refine interactive_ite (interactive_logged _ _) ?_
    refine interactive_bind interactive_getHandle fun handle => ?_
    refine interactive_ite ?_ ?_
    · exact interactive_bind (interactive_access _) fun sn => interactive_answerWith _ _
    refine interactive_bind (interactive_withFile _) fun _ => ?_
    refine interactive_bind (interactive_skipLines _ _ _) fun r => ?_
    cases r with
    | none => exact interactive_pure _
    | some line =>
      refine interactive_bind (interactive_readHexLine _ _ _ _ _ _) fun r => ?_
      cases r with
      | none => exact interactive_pure _
      | some sn => exact interactive_answerWith _ _
  · refine interactive_bind interactive_getHandle fun handle => ?_
    refine interactive_ite ?_ ?_
    · exact interactive_bind (interactive_access _) fun key => interactive_answerWith _ _
    refine interactive_bind (interactive_withFile _) fun _ => ?_
    refine interactive_bind (interactive_access _) fun address => ?_
    refine interactive_bind (interactive_skipLines _ _ _) fun r => ?_
    cases r with
    | none => exact interactive_pure _
    | some line =>
      refine interactive_bind (interactive_readHexLine _ _ _ _ _ _) fun r => ?_
      cases r with
      | none => exact interactive_pure _
      | some key => exact interactive_answerWith _ _
  · refine interactive_bind interactive_getHandle fun handle => ?_
    refine interactive_ite (interactive_logged _ _) ?_
    refine interactive_bind (interactive_withFile _) fun _ => ?_
    refine interactive_bind (interactive_skipLines _ _ _) fun r => ?_
    cases r with
    | none => exact interactive_pure _
    | some line =>
      refine interactive_bind (interactive_access _) fun address => ?_
      refine interactive_bind (interactive_skipLines _ _ _) fun r => ?_
      cases r with
      | none => exact interactive_pure _
      | some line =>
        refine interactive_bind (interactive_readHexLine _ _ _ _ _ _) fun r => ?_
        cases r with
        | none => exact interactive_pure _
        | some data => exact interactive_answerWith _ _

/-- A way to read a slot, on every bus. -/
abbrev SlotReadOnEveryBus := (σ : Type) → I2cBus σ → SlotRead σ

variable {rawSlotRead : SlotReadOnEveryBus}
  (hslot : ∀ slot number, Interactive fun σ bus => rawSlotRead σ bus slot number)
include hslot

/-- An emulated HMAC, with the slot read that it makes.
SOURCE: emulation.c:52-157 -/
theorem interactive_emulHmac (packet : Block) : Interactive fun σ bus =>
    emulHmac (envOn openssl uninit bus) (rawSlotRead σ bus) packet := by
  unfold emulHmac
  simp only [Env.uninitBigInt, Env.uninitBuffer, envOn_uninit, envOn_openssl]
  refine interactive_bind interactive_getHandle fun handle => ?_
  refine interactive_bind (interactive_access _) fun message => ?_
  refine interactive_bind (interactive_access _) fun slot => ?_
  refine interactive_bind (hslot slot _) fun r => ?_
  refine interactive_ite (interactive_logged _ _) ?_
  refine interactive_bind (interactive_access _) fun key => ?_
  cases openssl.hmac key message with
  | none => exact interactive_logged _ _
  | some output =>
    exact interactive_ite (interactive_logged _ _) (interactive_answerWith _ _)

/-- An emulated MAC, with its slot read.
SOURCE: emulation.c:159-262 -/
theorem interactive_emulMac (packet : Block) : Interactive fun σ bus =>
    emulMac (envOn openssl uninit bus) (rawSlotRead σ bus) packet := by
  unfold emulMac
  simp only [Env.uninitBigInt, Env.uninitBuffer, envOn_uninit, envOn_openssl]
  refine interactive_bind (interactive_access _) fun slot => ?_
  refine interactive_bind (hslot slot _) fun r => ?_
  refine interactive_ite (interactive_logged _ _) ?_
  refine interactive_bind interactive_getHandle fun handle => ?_
  refine interactive_bind (interactive_access _) fun message => ?_
  cases openssl.sha256 message with
  | none => exact interactive_logged _ _
  | some output => exact interactive_answerWith _ _

omit hslot in
/-- An emulated nonce.
SOURCE: emulation.c:41-50 -/
theorem interactive_emulNonce (packet : Block) :
    Interactive fun _ _ => (emulNonce packet : Prog _ Reply) := by
  unfold emulNonce
  refine interactive_bind (interactive_access _) fun bytes => ?_
  refine interactive_bind interactive_getHandle fun handle => ?_
  refine interactive_bind (interactive_access _) fun nonce => ?_
  exact interactive_bind (interactive_modifyHandle _) fun _ => interactive_answerWith _ _

/-- A command to the emulated device.
SOURCE: emulation.c:453-485 -/
theorem interactive_emulCommand (packet : Block) : Interactive fun σ bus =>
    emulCommand (envOn openssl uninit bus) (rawSlotRead σ bus) packet := by
  unfold emulCommand
  refine interactive_bind (interactive_emulated packet) fun _ => ?_
  refine interactive_bind (interactive_access _) fun opcode => ?_
  refine interactive_ite (interactive_emulHmac openssl uninit hslot packet) ?_
  refine interactive_ite (interactive_emulMac openssl uninit hslot packet) ?_
  refine interactive_ite (interactive_emulRead openssl uninit packet) ?_
  refine interactive_ite (interactive_emulNonce packet) ?_
  exact interactive_ite (interactive_answerWith _ _) (interactive_logged _ _)

end Emulator

/-! ## Waking, idling and the retry loop -/

section Communication

variable (openssl : OpenSsl) (uninit : Uninit)

/-- One attempt to wake the device.
SOURCE: communication.c:49-79 -/
theorem interactive_wakeAttempt (loop : Reply) :
    Interactive fun _ bus => wakeAttempt (envOn openssl uninit bus) loop := by
  unfold wakeAttempt
  refine interactive_bind interactive_getHandle fun handle => ?_
  cases handle.bottomLayer with
  | emulation => exact interactive_pure _
  | ni2c =>
    refine interactive_bind (interactive_ni2cWake openssl uninit _) fun r => ?_
    refine interactive_ite ?_ (interactive_pure _)
    refine interactive_bind (interactive_access _) fun answer => ?_
    refine interactive_bind (interactive_access _) fun checked => ?_
    refine interactive_ite (interactive_logged _ _) ?_
    refine interactive_bind (interactive_access _) fun status => ?_
    exact interactive_ite (interactive_pure _) (interactive_pure _)

/-- A wake on either layer.
SOURCE: communication.c:41-85 -/
theorem interactive_wake : Interactive fun _ bus => wake (envOn openssl uninit bus) := by
  unfold wake
  refine interactive_bind interactive_getHandle fun handle => ?_
  refine interactive_ite (interactive_pure _) ?_
  refine interactive_bind (interactive_retry (interactive_wakeAttempt openssl uninit) _ _)
    fun result => ?_
  refine interactive_bind (interactive_setWakeIsExpected true) fun _ => ?_
  cases result with
  | ok reply => exact interactive_pure _
  | error reply => exact interactive_pure _

/-- Letting the device idle on either layer.
SOURCE: communication.c:87-109 -/
theorem interactive_idle : Interactive fun _ bus => idle (envOn openssl uninit bus) := by
  unfold idle idleLoop
  refine interactive_bind interactive_getHandle fun handle => ?_
  cases handle.bottomLayer with
  | emulation =>
    exact interactive_bind (interactive_setWakeIsExpected false) fun _ => interactive_pure _
  | ni2c =>
    refine interactive_bind (interactive_ni2cIdle openssl uninit) fun status => ?_
    refine interactive_ite ?_ (interactive_ite (interactive_pure _) (interactive_throw _))
    exact interactive_bind (interactive_setWakeIsExpected false) fun _ => interactive_pure _

variable {rawSlotRead : SlotReadOnEveryBus}
  (hslot : ∀ slot number, Interactive fun σ bus => rawSlotRead σ bus slot number)
include hslot

/-- One attempt to send a command.
SOURCE: communication.c:115-168 -/
theorem interactive_commandAttempt (packet : Block) (loop : Reply) : Interactive fun σ bus =>
    commandAttempt (envOn openssl uninit bus) (rawSlotRead σ bus) packet loop := by
  unfold commandAttempt
  refine interactive_bind interactive_getHandle fun handle => ?_
  cases handle.bottomLayer with
  | emulation =>
    exact interactive_bind (interactive_emulCommand openssl uninit hslot packet)
      fun reply => interactive_pure _
  | ni2c =>
    refine interactive_bind (interactive_ni2cCommand openssl uninit packet _) fun r => ?_
    refine interactive_ite ?_ (interactive_pure _)
    refine interactive_bind (interactive_access _) fun answer => ?_
    refine interactive_bind (interactive_access _) fun checked => ?_
    refine interactive_ite (interactive_logged _ _) ?_
    refine interactive_bind (interactive_access _) fun count => ?_
    refine interactive_ite ?_ (interactive_pure _)
    refine interactive_bind (interactive_access _) fun status => ?_
    cases refusedStatus status with
    | none => exact interactive_pure _
    | some text =>
      refine interactive_bind (interactive_logMessage text) fun _ => ?_
      exact interactive_ite (interactive_pure _) (interactive_pure _)

/-- A command on either layer.
SOURCE: communication.c:111-172 -/
theorem interactive_command (packet : Block) (answer : Option Block) : Interactive fun σ bus =>
    command (envOn openssl uninit bus) (rawSlotRead σ bus) packet answer := by
  unfold command
  refine interactive_bind
    (interactive_retry (interactive_commandAttempt openssl uninit hslot packet) _ _)
    fun result => ?_
  cases result with
  | ok reply => exact interactive_pure _
  | error reply => exact interactive_pure _

end Communication

/-! ## The public operations -/

/-- Data are decoded without a bus.
SOURCE: operations.c:40-50 -/
theorem interactive_readLongData (packet : Block) (data : List.Vector UInt8 atshaMaxDataSize) :
    Interactive fun _ _ =>
      (readLongData packet data : Prog _ (Int × List.Vector UInt8 atshaMaxDataSize)) := by
  unfold readLongData
  refine interactive_bind (interactive_access _) fun count => ?_
  refine interactive_ite (interactive_logged _ _) ?_
  refine interactive_bind (interactive_access _) fun bytes => ?_
  exact interactive_bind (interactive_access _) fun data => interactive_pure _

/-- So is a status.
SOURCE: operations.c:52-59 -/
theorem interactive_justCheckStatus (packet : Block) :
    Interactive fun _ _ => (justCheckStatus packet : Prog _ AtshaErr) := by
  unfold justCheckStatus
  refine interactive_bind (interactive_access _) fun status => ?_
  exact interactive_ite (interactive_pure _) (interactive_logged _ _)

/-- So is a serial number.
SOURCE: operations.c:171-185 -/
theorem interactive_opSerialNumberRecv (packet : Block)
    (data : List.Vector UInt8 atshaMaxDataSize) : Interactive fun _ _ =>
      (opSerialNumberRecv packet data : Prog _ (Int × List.Vector UInt8 atshaMaxDataSize)) := by
  unfold opSerialNumberRecv
  refine interactive_bind (interactive_access _) fun bytes => ?_
  exact interactive_bind (interactive_access _) fun data => interactive_pure _

section Operations

variable (openssl : OpenSsl) (uninit : Uninit)

/-- The frame of an operation. -/
theorem interactive_session (out : α) {body : OnEveryBus (AtshaErr × α)}
    (hbody : Interactive body) :
    Interactive fun σ bus => session (envOn openssl uninit bus) out (body σ bus) := by
  unfold session
  refine interactive_bind (interactive_wake openssl uninit) fun status => ?_
  refine interactive_ite (interactive_pure _) ?_
  refine interactive_bind hbody fun r => ?_
  refine interactive_ite (interactive_pure _) ?_
  refine interactive_bind (interactive_idle openssl uninit) fun status => ?_
  refine interactive_ite ?_ (interactive_pure _)
  exact interactive_bind (interactive_logMessage _) fun _ => interactive_pure _

/-- A way to send packets, on every bus. -/
abbrev SendOnEveryBus := (σ : Type) → I2cBus σ → Send σ

/-- An exchange of data, over whatever sends it. -/
theorem interactive_dataExchange {send : SendOnEveryBus}
    (hsend : ∀ packet, Interactive fun σ bus => send σ bus packet) (packet : Option Block)
    {recv : (σ : Type) → DataRecv σ}
    (hrecv : ∀ answer data, Interactive fun σ _ => recv σ answer data) (number : AtshaBigInt) :
    Interactive fun σ bus => dataExchange (send σ bus) packet (recv σ) number := by
  unfold dataExchange
  refine interactive_bind (interactive_access _) fun packet => ?_
  refine interactive_bind (hsend packet) fun r => ?_
  refine interactive_ite (interactive_pure _) ?_
  refine interactive_bind (interactive_access _) fun answer => ?_
  refine interactive_bind (hrecv answer _) fun r => ?_
  exact interactive_ite (interactive_pure _) (interactive_pure _)

/-- An exchange for a status. -/
theorem interactive_statusExchange {send : SendOnEveryBus}
    (hsend : ∀ packet, Interactive fun σ bus => send σ bus packet) (packet : Option Block) :
    Interactive fun σ bus => statusExchange (send σ bus) packet justCheckStatus := by
  unfold statusExchange
  refine interactive_bind (interactive_access _) fun packet => ?_
  refine interactive_bind (hsend packet) fun r => ?_
  refine interactive_ite (interactive_pure _) ?_
  refine interactive_bind (interactive_access _) fun answer => ?_
  exact interactive_bind (interactive_justCheckStatus answer) fun status => interactive_pure _

/-- A slot read, over whatever sends it.
SOURCE: api.c:394-435 -/
theorem interactive_slotReadWith {send : SendOnEveryBus}
    (hsend : ∀ packet, Interactive fun σ bus => send σ bus packet) (slotNumber : UInt8)
    (number : AtshaBigInt) : Interactive fun σ bus =>
      atshaRawSlotReadWith (envOn openssl uninit bus) (send σ bus) slotNumber number := by
  unfold atshaRawSlotReadWith
  refine interactive_ite (interactive_logged _ _) ?_
  apply interactive_session
  exact interactive_dataExchange hsend _ interactive_readLongData number

/-- The slot read inside of a digest. -/
theorem interactive_nestedSlotRead (slotNumber : UInt8) (number : AtshaBigInt) :
    Interactive fun _ bus => nestedSlotRead (envOn openssl uninit bus) slotNumber number := by
  unfold nestedSlotRead
  refine interactive_slotReadWith openssl uninit (fun packet => ?_) slotNumber number
  exact interactive_command openssl uninit (fun _ _ => interactive_throw .outOfFuel) packet none

/-- Sending a packet. -/
theorem interactive_send (packet : Block) :
    Interactive fun _ bus => send (envOn openssl uninit bus) packet := by
  unfold send
  exact interactive_command openssl uninit (interactive_nestedSlotRead openssl uninit) packet none

/-- An operation that asks for data. -/
theorem interactive_dataSession (packet : Option Block) {recv : (σ : Type) → DataRecv σ}
    (hrecv : ∀ answer data, Interactive fun σ _ => recv σ answer data) (number : AtshaBigInt) :
    Interactive fun σ bus => session (envOn openssl uninit bus) number
      (dataExchange (send (envOn openssl uninit bus)) packet (recv σ) number) := by
  apply interactive_session
  exact interactive_dataExchange (interactive_send openssl uninit) packet hrecv number

/-- An operation that asks for a status. -/
theorem interactive_statusSession (packet : Option Block) :
    Interactive fun _ bus => session (envOn openssl uninit bus) ()
      (statusExchange (send (envOn openssl uninit bus)) packet justCheckStatus) := by
  apply interactive_session
  exact interactive_statusExchange (interactive_send openssl uninit) packet

/-- A slot read.
SOURCE: api.c:394-435 -/
theorem interactive_slotRead (slotNumber : UInt8) (number : AtshaBigInt) :
    Interactive fun _ bus => atshaRawSlotRead (envOn openssl uninit bus) slotNumber number :=
  interactive_slotReadWith openssl uninit (interactive_send openssl uninit) slotNumber number

/-- An OTP read.
SOURCE: api.c:771-807 -/
theorem interactive_otpRead (address : UInt8) (number : AtshaBigInt) :
    Interactive fun _ bus => atshaRawOtpRead (envOn openssl uninit bus) address number :=
  interactive_dataSession openssl uninit _ interactive_readLongData number

/-- A read of the configuration zone.
SOURCE: api.c:697-733 -/
theorem interactive_confRead (address : UInt8) (number : AtshaBigInt) :
    Interactive fun _ bus => atshaRawConfRead (envOn openssl uninit bus) address number :=
  interactive_dataSession openssl uninit _ interactive_readLongData number

/-- The writes.
SOURCE: api.c:444-483, api.c:735-769, api.c:809-883 -/
theorem interactive_writeCall (call : WriteCall) (number : AtshaBigInt) :
    Interactive fun _ bus => call.run (envOn openssl uninit bus) number := by
  cases call with
  | slot slotNumber =>
    exact interactive_ite (interactive_logged _ _) (interactive_statusSession openssl uninit _)
  | conf address => exact interactive_statusSession openssl uninit _
  | otp address => exact interactive_statusSession openssl uninit _
  | otp32 address =>
    exact interactive_ite (interactive_pure _) (interactive_statusSession openssl uninit _)

/-- An HMAC.
SOURCE: api.c:492-561 -/
theorem interactive_challengeResponse (slotNumber : UInt8) (challenge response : AtshaBigInt)
    (useSnInDigest : Bool) : Interactive fun _ bus => atshaLowChallengeResponse
      (envOn openssl uninit bus) slotNumber challenge response useSnInDigest := by
  unfold atshaLowChallengeResponse
  refine interactive_ite (interactive_logged _ _) (interactive_ite (interactive_logged _ _) ?_)
  apply interactive_session
  refine interactive_bind
    (interactive_statusExchange (interactive_send openssl uninit) _) fun r => ?_
  refine interactive_ite (interactive_pure _) ?_
  exact interactive_dataExchange (interactive_send openssl uninit) _ interactive_readLongData _

/-- A MAC.
SOURCE: api.c:570-618 -/
theorem interactive_challengeResponseMac (slotNumber : UInt8) (challenge response : AtshaBigInt)
    (useSnInDigest : Bool) : Interactive fun _ bus => atshaLowChallengeResponseMac
      (envOn openssl uninit bus) slotNumber challenge response useSnInDigest := by
  unfold atshaLowChallengeResponseMac
  refine interactive_ite (interactive_logged _ _) (interactive_ite (interactive_logged _ _) ?_)
  exact interactive_dataSession openssl uninit _ interactive_readLongData _

/-- Leaving a number as it is needs no bus. -/
theorem interactive_leaving (number : AtshaBigInt) {x : OnEveryBus (AtshaErr × Unit)}
    (hx : Interactive x) : Interactive fun σ bus => leaving number (x σ bus) :=
  interactive_bind hx fun _ => interactive_pure _

/-- Every plain call makes the same calls on every bus. -/
theorem interactive_plainCall (call : PlainCall) (number : AtshaBigInt) :
    Interactive fun _ bus => call.run (envOn openssl uninit bus) number := by
  cases call with
  | random => exact interactive_dataSession openssl uninit _ interactive_readLongData number
  | slotRead slotNumber => exact interactive_slotRead openssl uninit slotNumber number
  | confRead address => exact interactive_confRead openssl uninit address number
  | otpRead address => exact interactive_otpRead openssl uninit address number
  | respond kind slotNumber challenge useSnInDigest =>
    cases kind with
    | hmac => exact interactive_challengeResponse openssl uninit slotNumber challenge number _
    | mac => exact interactive_challengeResponseMac openssl uninit slotNumber challenge number _
  | write call data =>
    exact interactive_leaving number (interactive_writeCall openssl uninit call data)
  | lockConfig crc =>
    exact interactive_leaving number (interactive_statusSession openssl uninit _)
  | lockData crc =>
    exact interactive_leaving number (interactive_statusSession openssl uninit _)

/-- The revision of the device.
SOURCE: api.c:316-347 -/
theorem interactive_devRev (revision : UInt32) :
    Interactive fun _ bus => atshaDevRev (envOn openssl uninit bus) revision := by
  unfold atshaDevRev
  apply interactive_session
  refine interactive_bind (interactive_access _) fun packet => ?_
  refine interactive_bind (interactive_send openssl uninit packet) fun r => ?_
  refine interactive_ite (interactive_pure _) ?_
  refine interactive_bind (interactive_access _) fun answer => ?_
  exact interactive_bind (interactive_access _) fun revision => interactive_pure _

/-- The serial number in the OTP zone.
SOURCE: api.c:658-678 -/
theorem interactive_serialNumber (number : AtshaBigInt) :
    Interactive fun _ bus => atshaSerialNumber (envOn openssl uninit bus) number := by
  unfold atshaSerialNumber
  simp only [Env.uninitBigInt, Env.uninitBuffer, envOn_uninit]
  refine interactive_ite ?_ ?_
  · refine interactive_bind (interactive_otpRead openssl uninit _ _) fun r => ?_
    refine interactive_ite (interactive_pure _) ?_
    refine interactive_bind (interactive_access _) fun data => ?_
    refine interactive_bind (interactive_otpRead openssl uninit _ _) fun r => ?_
    refine interactive_ite (interactive_pure _) ?_
    exact interactive_bind (interactive_access _) fun data => interactive_pure _
  · exact interactive_dataSession openssl uninit _ interactive_opSerialNumberRecv number

/-- The change of the address.
SOURCE: api.c:680-695 -/
theorem interactive_changeAddress (address : UInt8) :
    Interactive fun _ bus => atshaChangeAddress (envOn openssl uninit bus) address := by
  unfold atshaChangeAddress
  simp only [Env.uninitBigInt, Env.uninitBuffer, envOn_uninit]
  refine interactive_ite (interactive_pure _) ?_
  refine interactive_bind (interactive_confRead openssl uninit _ _) fun r => ?_
  refine interactive_ite (interactive_pure _) ?_
  refine interactive_bind (interactive_access _) fun data => ?_
  exact interactive_writeCall openssl uninit (.conf _) _

variable (charSigned : Bool) (dns : Resolution)

/-- The search for the slot.
SOURCE: dnsmagic.c:114-137 -/
theorem interactive_findSlotNumber : Interactive fun _ bus =>
    atshaFindSlotNumber (envOn openssl uninit bus) charSigned dns := by
  have hkey : Interactive fun _ _ => (resolveKey charSigned dns : Prog _ (Option UInt32)) := by
    unfold resolveKey
    cases dns with
    | noContext => exact interactive_logged _ _
    | badConfiguration text =>
      exact interactive_bind (interactive_logMessage _) fun _ => interactive_logged _ _
    | failed text =>
      exact interactive_bind (interactive_logMessage _) fun _ => interactive_logged _ _
    | noData => exact interactive_logged _ _
    | record rdata => exact interactive_bind (interactive_access _) fun n => interactive_pure _
  unfold atshaFindSlotNumber
  simp only [Env.uninitBigInt, Env.uninitBuffer, envOn_uninit]
  refine interactive_bind interactive_getHandle fun handle => ?_
  refine interactive_ite (interactive_pure _) ?_
  refine interactive_bind hkey fun key => ?_
  cases key with
  | none => exact interactive_pure _
  | some offset =>
    refine interactive_ite (interactive_pure _) ?_
    refine interactive_bind (interactive_otpRead openssl uninit _ _) fun r => ?_
    refine interactive_ite (interactive_logged _ _) ?_
    refine interactive_bind (interactive_access _) fun origin => ?_
    exact interactive_bind (interactive_modifyHandle _) fun _ => interactive_pure _

/-- An operation on the slot that is found. -/
theorem interactive_withSlotNumber (out : α) {operation : UInt8 → OnEveryBus (AtshaErr × α)}
    (h : ∀ slotNumber, Interactive (operation slotNumber)) : Interactive fun σ bus =>
      withSlotNumber (envOn openssl uninit bus) charSigned dns out
        fun slotNumber => operation slotNumber σ bus := by
  unfold withSlotNumber
  refine interactive_bind (interactive_findSlotNumber openssl uninit charSigned dns)
    fun slotNumber => ?_
  exact interactive_ite (interactive_pure _) (h slotNumber)

/-- The output of an operation in another form. -/
theorem interactive_giving (output : α → Output) {x : OnEveryBus (AtshaErr × α)}
    (hx : Interactive x) : Interactive fun σ bus => giving output (x σ bus) :=
  interactive_bind hx fun _ => interactive_pure _

/-- The operations on the slot that is found. -/
theorem interactive_automaticOp (op : AutomaticOp) : Interactive fun _ bus =>
    op.result (envOn openssl uninit bus) charSigned dns := by
  cases op with
  | slotRead number =>
    refine interactive_giving Output.number (interactive_withSlotNumber _ _ _ _ _ fun slot => ?_)
    exact interactive_slotRead openssl uninit slot number
  | slotWrite number =>
    refine interactive_giving (fun _ => Output.nothing)
      (interactive_withSlotNumber _ _ _ _ _ fun slot => ?_)
    exact interactive_writeCall openssl uninit (.slot slot) number
  | challengeResponse challenge response =>
    refine interactive_giving Output.number (interactive_withSlotNumber _ _ _ _ _ fun slot => ?_)
    exact interactive_challengeResponse openssl uninit slot challenge response _
  | challengeResponseMac challenge response =>
    refine interactive_giving Output.number (interactive_withSlotNumber _ _ _ _ _ fun slot => ?_)
    exact interactive_challengeResponseMac openssl uninit slot challenge response _

/-- Every public operation makes the same calls on every bus. -/
theorem interactive_publicCall (call : PublicCall) :
    Interactive fun _ bus => call.run (envOn openssl uninit bus) charSigned := by
  cases call with
  | plain call number => exact interactive_giving _ (interactive_plainCall openssl uninit call _)
  | devRev revision => exact interactive_giving _ (interactive_devRev openssl uninit revision)
  | chipSerialNumber number =>
    exact interactive_giving _
      (interactive_dataSession openssl uninit _ interactive_opSerialNumberRecv number)
  | serialNumber number =>
    exact interactive_giving _ (interactive_serialNumber openssl uninit number)
  | changeAddress address =>
    exact interactive_giving (fun _ => Output.nothing)
      (interactive_changeAddress openssl uninit address)
  | findSlotNumber dns =>
    exact interactive_bind (interactive_findSlotNumber openssl uninit charSigned dns)
      fun slotNumber => interactive_pure _
  | automatic op dns => exact interactive_automaticOp openssl uninit charSigned dns op

/-- Every sequence of public operations is a program on the bus. -/
theorem callAll_interactive (calls : List PublicCall) :
    Interactive fun _ bus => callAll (envOn openssl uninit bus) charSigned calls := by
  induction calls with
  | nil => exact interactive_pure _
  | cons call calls ih =>
    refine interactive_bind (interactive_publicCall openssl uninit charSigned call)
      fun result => ?_
    exact interactive_bind ih fun results => interactive_pure _

end Operations

end Atsha204.Analysis
