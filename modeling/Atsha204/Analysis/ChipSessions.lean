import Atsha204.Analysis.ClosedSessions
import Atsha204.Analysis.LockOutcome
import Atsha204.Analysis.Trails
import Atsha204.Interface.LockedContent

/-!
# Sessions with the chip

What one read, write or lock does to the chip and leaves in the trace, whatever the link
does. The argument is the same each time (`wp_session_chip`): a property of the chip that
every attempt to send the packet keeps holds at every send and behind the session, and a
session that goes well ends with an answer that the chip gave by executing the command.
-/

set_option autoImplicit false

namespace Atsha204.Analysis

open Atsha204.Library
open Atsha204.Model
open Atsha204.Interface

variable {σ α : Type}

/-! ## The configuration zone -/

/-- The configuration zone has 88 bytes. -/
theorem length_config (chip : Chip) : chip.config.val.length = 88 := chip.config.property

/-- A word of it has four. -/
theorem length_configWord {config : Block} (h : config.length = 88) {address : ℕ}
    (haddress : address < 22) : (configWord config address).length = 4 := by
  rw [configWord, List.length_take, List.length_drop]
  omega

/-! ## The trace of a session -/

/-- What a session leaves in the trace: every command is this packet, sent to a chip of this
kind, or the idle byte. -/
def OfSession (packet : Block) (I : Chip → Prop) : Event ChipLink → Prop
  | .written bytes _ link =>
    (bytes = atsha204I2cWaCommand :: packet ∧ I link.chip) ∨ bytes = [atsha204I2cWaIdle]
  | _ => True

/-- What a wake leaves behind belongs to a session. -/
theorem OfWake.ofSession {packet : Block} {I : Chip → Prop} {e : Event ChipLink} (h : OfWake e) :
    OfSession packet I e := by
  cases e with
  | written bytes ok link => exact h.elim
  | _ => trivial

/-- An event that sends nothing. -/
def Silent : Event σ → Prop
  | .message _ => True
  | _ => False

/-- So does what sends nothing. -/
theorem Silent.ofSession {packet : Block} {I : Chip → Prop} {e : Event ChipLink} (h : Silent e) :
    OfSession packet I e := by
  cases e with
  | written bytes ok link => exact h.elim
  | _ => trivial

/-! ## One exchange -/

/-- What an attempt to send a command leaves in the trace. -/
theorem trail_after {P : Event ChipLink → Prop} {s : St ChipLink} {packet : Block}
    (messages : List String)
    (hwritten : P (.written (atsha204I2cWaCommand :: packet)
      (chipBus.write (atsha204I2cWaCommand :: packet) s.bus).1 s.bus))
    (hreceived : ∀ frame, P (.received frame)) (hmessage : ∀ text, P (.message text)) :
    Trail P s (s.after (commandExchange chipBus packet s.bus).2
      (commandEvents chipBus packet s.bus) messages) := by
  refine ⟨commandEvents chipBus packet s.bus ++ messages.map .message, ?_, ?_⟩
  · rw [← List.append_assoc]
    rfl
  · intro e he
    rcases List.mem_append.mp he with he | he
    · rcases List.mem_cons.mp he with rfl | he
      · exact hwritten
      · split at he
        · obtain rfl := List.mem_singleton.mp he
          exact hreceived _
        · cases he
    · obtain ⟨text, -, rfl⟩ := List.mem_map.mp he
      exact hmessage text

variable {openssl : OpenSsl} {uninit : Uninit}

/-- Sending a command to the chip: what every attempt keeps holds at every send and behind
them, and an answer that comes back is one that the chip gave by executing the command. -/
theorem wp_send_chip {packet : Block} (hframed : Framed packet) {I : Chip → Prop}
    (hkeep : ∀ chip, I chip → I (chip.execute packet).1) {s : St ChipLink}
    (hlayer : s.handle.bottomLayer = .ni2c) (hI : I s.bus.chip) :
    wp (send (chipEnv openssl uninit) packet)
      (fun reply s' => s'.handle = s.handle ∧ I s'.bus.chip ∧ Trail (OfSession packet I) s s' ∧
        (reply.1 = .ok → ∃ chip, I chip ∧ s'.bus.chip = (chip.execute packet).1 ∧
          reply.2 = some (answerPacket (chip.execute packet).2) ∧
          ∀ refusal : Refusal, (chip.execute packet).2 ≠ refusal.data))
      (Trail (OfSession packet I) s) s := by
  have hreceive : ∀ chip refused, I chip → I (Chip.receive chip packet refused).1 := by
    intro chip refused h
    cases refused with
    | none => exact hkeep chip h
    | some refusal => exact h
  rw [send, wp_command]
  refine wp_retry_link judgeCommand_givesUpBadly
    (commandAttempt_spec hlayer (sentBytes_of_framed hframed))
    (fun _ s' => I s'.bus.chip ∧ Trail (OfSession packet I) s s') ?_ ?_ rfl ⟨hI, Trail.refl s⟩
  · rintro n s₁ messages hs ⟨hI₁, htrail⟩
    obtain ⟨refused, hchip, hframes⟩ := commandExchange_chip packet s₁.bus
    have hbehind : I (commandExchange chipBus packet s₁.bus).2.chip := by
      rw [hchip]
      exact hreceive _ _ hI₁
    have hnext : Trail (OfSession packet I) s (s₁.after (commandExchange chipBus packet s₁.bus).2
        (commandEvents chipBus packet s₁.bus) messages) :=
      htrail.trans (trail_after messages (.inl ⟨rfl, hI₁⟩) (fun _ => trivial) fun _ => trivial)
    change AfterAttempt judgeCommand (commandExchange chipBus packet s₁.bus).1 _ _ _
    cases hframe : (commandExchange chipBus packet s₁.bus).1 with
    | none => exact ⟨hbehind, hnext⟩
    | some frame =>
      rcases hframes frame hframe with ⟨status, hjudge⟩ | ⟨hjudge, hno⟩
      · exact AfterAttempt.of_again (fun f hf => ⟨status, by rw [← Option.some.inj hf, hjudge]⟩)
          fun _ => ⟨hbehind, hnext⟩
      · refine AfterAttempt.of_accept rfl hjudge ⟨hs, hbehind, hnext, fun _ => ?_⟩
        cases refused with
        | none => exact ⟨s₁.bus.chip, hI₁, hchip, rfl, hno⟩
        | some refusal => exact absurd rfl (hno refusal)
  · rintro status s₁ hstatus hs ⟨hI₁, htrail⟩
    exact ⟨hs, hI₁, htrail, fun hok => absurd hok hstatus.ne_ok⟩

/-- What a decoder does with an answer of the chip. -/
def Decodes (decode : Block → Prog ChipLink (AtshaErr × α)) (D : Block → α → Prop) : Prop :=
  ∀ data, Answerable data → ∀ s : St ChipLink, wp (decode (answerPacket data))
    (fun r s' => s'.handle = s.handle ∧ s'.bus = s.bus ∧ Trail Silent s s' ∧
      (r.1 = .ok → D data r.2)) (Trail Silent s) s

/-- A session with the chip. -/
theorem wp_session_chip {packet : Block} (hframed : Framed packet) {I : Chip → Prop}
    (hkeep : ∀ chip, I chip → I (chip.execute packet).1) (out : α)
    {decode : Block → Prog ChipLink (AtshaErr × α)} {D : Block → α → Prop}
    (hdecode : Decodes decode D) {s : St ChipLink} (hlayer : s.handle.bottomLayer = .ni2c)
    (hI : I s.bus.chip) :
    wp (session (chipEnv openssl uninit) out
        (exchange (send (chipEnv openssl uninit)) (some packet) out decode))
      (fun r s' => s'.handle.bottomLayer = .ni2c ∧ Trail (OfSession packet I) s s' ∧
        (r.1 = .ok → ∃ chip, I chip ∧ s'.bus.chip = (chip.execute packet).1 ∧
          (∀ refusal : Refusal, (chip.execute packet).2 ≠ refusal.data) ∧
          D (chip.execute packet).2 r.2))
      (Trail (OfSession packet I) s) s := by
  rw [wp_session]
  refine wp_mono (wp_and (wp_wake_trace hlayer) (wp_wake_script hlayer)) ?_
    fun _ hF => hF.2.elim
  rintro status s₁ ⟨⟨-, hwake⟩, hlayer₁, hchip₁, -⟩
  have htrail₁ : Trail (OfSession packet I) s s₁ := Trail.mono hwake fun _ => OfWake.ofSession
  have hI₁ : I s₁.bus.chip := hchip₁ ▸ hI
  by_cases hstatus : status = .ok
  swap
  · rw [if_neg hstatus]
    exact ⟨hlayer₁, htrail₁, fun hok => absurd hok hstatus⟩
  rw [if_pos hstatus, exchange, wp_bind, wp_access]
  simp only [wp_bind]
  refine wp_mono (wp_send_chip hframed hkeep hlayer₁ hI₁) ?_ fun _ h => htrail₁.trans h
  rintro reply s₂ ⟨hhandle₂, hI₂, htrail₂, hreply⟩
  have hlayer₂ : s₂.handle.bottomLayer = .ni2c := by rw [hhandle₂]; exact hlayer₁
  by_cases hok : reply.1 = .ok
  swap
  · simp only [hok, ne_eq, not_false_eq_true, if_true, if_false, wp_pure]
    exact ⟨hlayer₂, htrail₁.trans htrail₂, False.elim⟩
  obtain ⟨chip, hIchip, hchip₂, hanswer, hno⟩ := hreply hok
  simp only [hok, hanswer, ne_eq, not_true_eq_false, if_false, wp_bind, wp_access]
  refine wp_mono (hdecode _ (execute_answerable chip packet) s₂) ?_
    fun _ h => (htrail₁.trans htrail₂).trans (h.mono fun _ => Silent.ofSession)
  rintro r s₃ ⟨hhandle₃, hbus₃, htrail₃, hD⟩
  have hlayer₃ : s₃.handle.bottomLayer = .ni2c := by rw [hhandle₃]; exact hlayer₂
  have htrail := (htrail₁.trans htrail₂).trans (htrail₃.mono fun _ => Silent.ofSession)
  by_cases hr : r.1 = .ok
  · rw [if_pos hr]
    have hidle : Trail (OfSession packet I) s₃ (idled (chipEnv openssl uninit) s₃) := by
      rw [idled_ni2c hlayer₃]
      exact ⟨[_], rfl, fun _ he => List.mem_singleton.mp he ▸ .inr rfl⟩
    refine ⟨hlayer₃, htrail.trans hidle, fun _ => ⟨chip, hIchip, ?_, hno, hD hr⟩⟩
    rw [idled_chip, hbus₃, hchip₂]
  · rw [if_neg hr]
    exact ⟨hlayer₃, htrail, fun h => absurd h hr⟩

/-! ## Decoding answers of the chip -/

/-- The decoder of a status leaves nothing but a line of the log. -/
theorem decodes_status : Decodes decodeStatus fun _ (_ : Unit) => True := by
  intro data _ s
  rw [decodeStatus, wp_bind, wp_justCheckStatus]
  cases peek (answerPacket data) 1 with
  | none => exact Trail.refl s
  | some status =>
    simp only
    by_cases hstatus : status = atsha204StatusSucces
    · rw [if_pos hstatus]
      exact ⟨rfl, rfl, Trail.refl s, fun _ => trivial⟩
    · rw [if_neg hstatus]
      exact ⟨rfl, rfl, Trail.exchanged s s.bus trivial, fun _ => trivial⟩

/-- What the chip answers is no longer than 32 bytes. -/
theorem answerable_le {data : Block} (h : Answerable data) : data.length ≤ 32 := by
  rcases h with ⟨refusal, rfl⟩ | rfl | hlen | hlen
  · change 1 ≤ 32
    decide
  · decide
  · omega
  · omega

/-- The decoder of data gives the bytes of the answer. -/
theorem decodes_data (number : AtshaBigInt) :
    Decodes (decode (some 4) number) fun data r => Holds r data := by
  intro data hdata s
  have hlen := answerable_le hdata
  have hanswer := answerPacket_length data
  rw [decode, decodeData, wp_bind, wp_readLongData (framed_answerPacket (by omega)) (by omega),
    if_pos (by omega), payload_answerPacket]
  simp only [Int.toNat_natCast]
  by_cases hzero : data.length = 0
  · rw [if_pos hzero]
    exact ⟨rfl, rfl, Trail.refl s, fun h => by cases h⟩
  · rw [if_neg hzero]
    exact ⟨rfl, rfl, Trail.refl s, fun _ => holds_filled number.data hlen⟩

/-! ## What the chip makes of a command -/

/-- A command with an address of one byte, as the chip reads it. -/
theorem execute_commandPacket (chip : Chip) (opcode param1 address : UInt8) (data : Block) :
    chip.execute (commandPacket opcode param1 address.toUInt16 data) =
      if opcode = atsha204OpcodeRead then
        (chip, (chip.load param1 address.toNat).getD Refusal.parseError.data)
      else if opcode = atsha204OpcodeWrite then
        ((chip.store param1 address.toNat data).map fun chip => (chip, success)).getD
          (chip, Refusal.parseError.data)
      else if opcode = atsha204OpcodeLock then
        if chip.locked param1 then (chip, Refusal.execError.data) else (chip.lock param1, success)
      else (chip, Refusal.parseError.data) := by
  have hlow : (address.toUInt16 &&& 0x00FF).toUInt8 = address :=
    Option.some.inj (peek_address opcode param1 address data)
  have hrest : ∀ (a b : UInt8), (data ++ [a, b]).dropLast.dropLast = data := by
    intro a b
    rw [show data ++ [a, b] = (data ++ [a]) ++ [b] by simp, List.dropLast_concat,
      List.dropLast_concat]
  simp only [commandPacket, sealed, commandBody, List.cons_append, List.nil_append, Chip.execute,
    hlow, hrest]
  cases chip.store param1 address.toNat data <;> rfl

/-- A read of a configuration word that there is.
SOURCE: api.c:697-733 -/
theorem execute_confReadPacket (chip : Chip) {address : UInt8} (haddress : address.toNat < 22) :
    chip.execute (confReadPacket address) =
      (chip, configWord chip.config.val address.toNat) := by
  have hload : chip.load (getZoneConfig ioMemConfig ioRwNonEnc ioRw4Bytes) address.toNat =
      some (configWord chip.config.val address.toNat) := by
    have hsize : (if getZoneConfig ioMemConfig ioRwNonEnc ioRw4Bytes &&& 0x80 = 0 then 4
      else 32) = 4 := by decide
    have hconfig := length_config chip
    rw [Chip.load, Chip.zone, if_pos (by decide), hsize, copyOut_of_le (by
      rw [List.length_drop]; omega)]
    rfl
  rw [confReadPacket, execute_commandPacket, if_pos rfl, hload]
  rfl

/-- A write of what the chip can store. -/
theorem execute_write {chip chip' : Chip} {zone address : UInt8} {payload : Block}
    (h : chip.store zone address.toNat payload = some chip') :
    chip.execute (commandPacket atsha204OpcodeWrite zone address.toUInt16 payload) =
      (chip', success) := by
  rw [execute_commandPacket, if_neg (by decide), if_pos rfl, h]
  rfl

/-- What a write of a payload that fits leaves in its zone. -/
theorem store_config (chip : Chip) {address : ℕ} {payload : Block}
    (h : 4 * address + payload.length ≤ 88) : ∃ chip',
      chip.store (getZoneConfig ioMemConfig ioRwNonEnc ioRw4Bytes) address payload = some chip' ∧
      chip'.store (getZoneConfig ioMemConfig ioRwNonEnc ioRw4Bytes) address payload = some chip' ∧
      chip'.config.val = splice chip.config.val (4 * address) payload := by
  obtain ⟨config, hfirst, hagain, hval⟩ := overwriteAt_twice chip.config h
  refine ⟨{ chip with config := config }, ?_, ?_, hval⟩
  · rw [Chip.store, if_pos (by decide), hfirst]
    rfl
  · rw [Chip.store, if_pos (by decide), hagain]
    rfl

/-- What fits the slots is stored there, once or twice. -/
theorem store_data (chip : Chip) {address : ℕ} {payload : Block}
    (h : 4 * address + payload.length ≤ 512) : ∃ chip',
      chip.store (getZoneConfig ioMemData ioRwNonEnc ioRw32Bytes) address payload = some chip' ∧
      chip'.store (getZoneConfig ioMemData ioRwNonEnc ioRw32Bytes) address payload = some chip' ∧
      chip'.data.val = splice chip.data.val (4 * address) payload := by
  obtain ⟨data, hfirst, hagain, hval⟩ := overwriteAt_twice chip.data h
  refine ⟨{ chip with data := data }, ?_, ?_, hval⟩
  · rw [Chip.store, if_neg (by decide), if_neg (by decide), if_pos (by decide), hfirst]
    rfl
  · rw [Chip.store, if_neg (by decide), if_neg (by decide), if_pos (by decide), hagain]
    rfl

/-- What fits the OTP zone is stored there, and the slots stay as they are. -/
theorem store_otp (chip : Chip) {address : ℕ} {payload : Block}
    (h : 4 * address + payload.length ≤ 64) : ∃ chip',
      chip.store (getZoneConfig ioMemOtp ioRwNonEnc ioRw32Bytes) address payload = some chip' ∧
      chip'.store (getZoneConfig ioMemOtp ioRwNonEnc ioRw32Bytes) address payload = some chip' ∧
      chip'.otp.val = splice chip.otp.val (4 * address) payload ∧ chip'.data = chip.data := by
  obtain ⟨otp, hfirst, hagain, hval⟩ := overwriteAt_twice chip.otp h
  refine ⟨{ chip with otp := otp }, ?_, ?_, hval, rfl⟩
  · rw [Chip.store, if_neg (by decide), if_pos (by decide), hfirst]
    rfl
  · rw [Chip.store, if_neg (by decide), if_pos (by decide), hagain]
    rfl

/-! ## Reads, writes and locks -/

/-- An event that is no lock command. -/
def NoLock : Event ChipLink → Prop
  | .written (0x03 :: packet) _ _ => lockedZone packet = none
  | _ => True

/-- A session for a packet that is no lock leaves no lock behind. -/
theorem OfSession.noLock {packet : Block} {I : Chip → Prop} (h : lockedZone packet = none)
    {e : Event ChipLink} (he : OfSession packet I e) : NoLock e := by
  cases e with
  | written bytes ok link =>
    rcases he with ⟨rfl, -⟩ | rfl
    · exact h
    · trivial
  | _ => trivial

/-- A command with another opcode locks nothing. -/
theorem lockedZone_of_ne {opcode param1 : UInt8} {param2 : UInt16} {data : Block}
    (h : opcode ≠ atsha204OpcodeLock) :
    lockedZone (commandPacket opcode param1 param2 data) = none := by
  rw [lockedZone, peek_opcode, if_neg fun heq => h (Option.some.inj heq)]

/-- The zones hold the same. -/
def SameMemory (chip chip' : Chip) : Prop :=
  chip'.config = chip.config ∧ chip'.data = chip.data ∧ chip'.otp = chip.otp

section Operations

variable {s : St ChipLink} (hlayer : s.handle.bottomLayer = .ni2c)
include hlayer

/-- Reading a configuration word gives what the chip holds.
SOURCE: api.c:697-733 -/
theorem wp_confRead_chip {address : UInt8} (haddress : address.toNat < 22) (number : AtshaBigInt) :
    wp (atshaRawConfRead (chipEnv openssl uninit) address number)
      (fun r s' => s'.handle.bottomLayer = .ni2c ∧ Trail NoLock s s' ∧
        (r.1 = .ok → s'.bus.chip = s.bus.chip ∧
          Holds r.2 (configWord s.bus.chip.config.val address.toNat)))
      (Trail NoLock s) s := by
  have hexecute := fun chip => execute_confReadPacket chip haddress
  have hnoLock : lockedZone (confReadPacket address) = none := lockedZone_of_ne (by decide)
  rw [confRead_eq]
  refine wp_mono (wp_session_chip (framed_confReadPacket address) (I := (· = s.bus.chip))
    (fun chip h => by rw [hexecute]; exact h) number (decodes_data number) hlayer rfl) ?_
    fun _ h => h.mono fun _ => OfSession.noLock hnoLock
  rintro r s' ⟨hlayer', htrail, hok⟩
  refine ⟨hlayer', htrail.mono fun _ => OfSession.noLock hnoLock, fun h => ?_⟩
  obtain ⟨_, rfl, hchip, -, hholds⟩ := hok h
  rw [hexecute] at hchip hholds
  exact ⟨hchip, hholds⟩

/-- A write that goes well has stored its number.
SOURCE: api.c:444-483, api.c:735-769, api.c:845-883 -/
theorem wp_write_chip {call : WriteCall} {number : AtshaBigInt} (href : ¬ call.Refused number)
    (hbytes : number.bytes ≤ 32) {chip : Chip}
    (hstore : s.bus.chip.store call.zone call.address.toNat
      (number.data.val.take number.bytes) = some chip)
    (hagain : chip.store call.zone call.address.toNat
      (number.data.val.take number.bytes) = some chip) :
    wp (call.run (chipEnv openssl uninit) number)
      (fun r s' => s'.handle.bottomLayer = .ni2c ∧ Trail NoLock s s' ∧
        (r.1 = .ok → s'.bus.chip = chip))
      (Trail NoLock s) s := by
  have hnarrow : number.bytes % 256 = number.bytes := Nat.mod_eq_of_lt (by omega)
  have hpacket := opRawWrite_eq call.zone call.address number.data.property
    (show number.bytes % 256 ≤ 32 by omega)
  rw [hnarrow] at hpacket
  have hexecute : ∀ chip' : Chip, chip' = s.bus.chip ∨ chip' = chip →
      chip'.execute (commandPacket atsha204OpcodeWrite call.zone call.address.toUInt16
        (number.data.val.take number.bytes)) = (chip, success) := by
    intro chip' h
    have hstored : chip'.store call.zone call.address.toNat
        (number.data.val.take number.bytes) = some chip := by
      rcases h with rfl | rfl
      · exact hstore
      · exact hagain
    exact execute_write hstored
  have hnoLock : lockedZone (commandPacket atsha204OpcodeWrite call.zone call.address.toUInt16
      (number.data.val.take number.bytes)) = none := lockedZone_of_ne (by decide)
  have hframed : Framed (commandPacket atsha204OpcodeWrite call.zone call.address.toUInt16
      (number.data.val.take number.bytes)) := by
    refine framed_commandPacket _ _ _ ?_
    rw [List.length_take]
    omega
  rw [writeCall_run href, writePacket, hpacket]
  refine wp_mono (wp_session_chip hframed (I := fun chip' => chip' = s.bus.chip ∨ chip' = chip)
    (fun chip' h => .inr (by rw [hexecute chip' h])) () decodes_status hlayer (.inl rfl)) ?_
    fun _ h => h.mono fun _ => OfSession.noLock hnoLock
  rintro r s' ⟨hlayer', htrail, hok⟩
  refine ⟨hlayer', htrail.mono fun _ => OfSession.noLock hnoLock, fun h => ?_⟩
  obtain ⟨chip', hchip', hbehind, -⟩ := hok h
  rw [hbehind, hexecute chip' hchip']

/-- A write to the configuration zone.
SOURCE: api.c:735-769 -/
theorem wp_confWrite_chip {address : UInt8} (haddress : address.toNat < 22) {number : AtshaBigInt}
    (hbytes : number.bytes = 4) :
    wp (atshaRawConfWrite (chipEnv openssl uninit) address number)
      (fun r s' => s'.handle.bottomLayer = .ni2c ∧ Trail NoLock s s' ∧
        (r.1 = .ok → s'.bus.chip.config.val =
          splice s.bus.chip.config.val (4 * address.toNat) (number.data.val.take 4)))
      (Trail NoLock s) s := by
  have hpayload : (number.data.val.take number.bytes).length = 4 := by
    rw [List.length_take, number.data.property, hbytes]
    rfl
  obtain ⟨chip, hstore, hagain, hconfig⟩ := store_config s.bus.chip
    (show 4 * address.toNat + (number.data.val.take number.bytes).length ≤ 88 by omega)
  refine wp_mono (@wp_write_chip _ _ _ hlayer (.conf address) number id (by omega) chip hstore
    hagain) ?_ fun _ h => h
  rintro r s' ⟨hlayer', htrail, hok⟩
  exact ⟨hlayer', htrail, fun h => by rw [hok h, hconfig, hbytes]⟩

/-- A write to a slot.
SOURCE: api.c:444-483, tools.c:87-94 -/
theorem wp_slotWrite_chip {slot : UInt8} (hslot : slot.toNat < 16) {number : AtshaBigInt}
    (hbytes : number.bytes = 32) :
    wp (atshaRawSlotWrite (chipEnv openssl uninit) slot number)
      (fun r s' => s'.handle.bottomLayer = .ni2c ∧ Trail NoLock s s' ∧
        (r.1 = .ok → s'.bus.chip.data.val =
          splice s.bus.chip.data.val (32 * slot.toNat) (number.data.val.take 32)))
      (Trail NoLock s) s := by
  have hpayload : (number.data.val.take number.bytes).length = 32 := by
    rw [List.length_take, number.data.property, hbytes]
    rfl
  have haddress : (WriteCall.slot slot).address.toNat = 8 * slot.toNat := by
    change (8 * slot).toNat = _
    rw [UInt8.toNat_mul]
    exact Nat.mod_eq_of_lt (by change 8 * slot.toNat < 256; omega)
  have href : ¬ (WriteCall.slot slot).Refused number := by
    refine UInt8.not_lt.mpr (UInt8.le_iff_toNat_le.mpr ?_)
    change slot.toNat ≤ 15
    omega
  obtain ⟨chip, hstore, hagain, hdata⟩ := store_data s.bus.chip (show 4 *
    (WriteCall.slot slot).address.toNat + (number.data.val.take number.bytes).length ≤ 512 by omega)
  refine wp_mono (wp_write_chip hlayer href (by omega) hstore hagain) ?_ fun _ h => h
  rintro r s' ⟨hlayer', htrail, hok⟩
  refine ⟨hlayer', htrail, fun h => ?_⟩
  rw [hok h, hdata, hbytes, haddress, ← Nat.mul_assoc]

/-- A write to half of the OTP zone.
SOURCE: api.c:845-883 -/
theorem wp_otp32Write_chip {address : UInt8} (haddress : 4 * address.toNat + 32 ≤ 64)
    {number : AtshaBigInt} (hbytes : number.bytes = 32) :
    wp (atshaRawOtp32Write (chipEnv openssl uninit) address number)
      (fun r s' => s'.handle.bottomLayer = .ni2c ∧ Trail NoLock s s' ∧
        (r.1 = .ok → s'.bus.chip.data = s.bus.chip.data ∧ s'.bus.chip.otp.val =
          splice s.bus.chip.otp.val (4 * address.toNat) (number.data.val.take 32)))
      (Trail NoLock s) s := by
  have hpayload : (number.data.val.take number.bytes).length = 32 := by
    rw [List.length_take, number.data.property, hbytes]
    rfl
  obtain ⟨chip, hstore, hagain, hotp, hdata⟩ := store_otp s.bus.chip
    (show 4 * address.toNat + (number.data.val.take number.bytes).length ≤ 64 by omega)
  refine wp_mono (@wp_write_chip _ _ _ hlayer (.otp32 address) number (not_not_intro hbytes)
    (by omega) chip hstore hagain) ?_ fun _ h => h
  rintro r s' ⟨hlayer', htrail, hok⟩
  exact ⟨hlayer', htrail, fun h => by rw [hok h, hotp, hbytes]; exact ⟨hdata, rfl⟩⟩

/-- A lock leaves the memory of the chip as it is, and is sent to a chip with this memory only.
SOURCE: api.c:885-955 -/
theorem wp_lock_chip (call : LockCall) (crc : UInt8 × UInt8) :
    wp (call.run (chipEnv openssl uninit) crc)
      (fun _ s' => s'.handle.bottomLayer = .ni2c ∧ Trail (OfSession
        (lockPacket call.zone (crc.2.toUInt16 <<< 8 ||| crc.1.toUInt16)) (SameMemory s.bus.chip)) s s')
      (Trail (OfSession (lockPacket call.zone (crc.2.toUInt16 <<< 8 ||| crc.1.toUInt16))
        (SameMemory s.bus.chip)) s) s := by
  have hkeep : ∀ zone (crc : UInt16) chip, SameMemory s.bus.chip chip →
      SameMemory s.bus.chip (chip.execute (lockPacket zone crc)).1 := by
    intro zone crc chip h
    rw [execute_lockPacket]
    split
    · exact h
    · unfold Chip.lock
      split <;> exact h
  rw [lockCall_run, show opLockRecv (σ := ChipLink) = justCheckStatus from rfl, statusExchange_eq]
  refine wp_mono (wp_session_chip (@framed_commandPacket _ _ _ [] (by decide)) (hkeep _ _) ()
    decodes_status hlayer ⟨rfl, rfl, rfl⟩) ?_ fun _ h => h
  rintro r s' ⟨hlayer', htrail, -⟩
  exact ⟨hlayer', htrail⟩

end Operations

end Atsha204.Analysis
