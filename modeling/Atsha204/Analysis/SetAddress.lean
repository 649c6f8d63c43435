import Atsha204.Analysis.ChipSessions
import Atsha204.Interface.SetAddress

/-!
# A new address is never refused

`atsha_change_address`, and the tool in front of it, ask for an address below 1 and above
0x7E at once, so every number goes through, narrowed to a byte and doubled. A change of
address is one read and one write; it is as asked exactly when the number is in range, or the
link lets no write out (`set_address_iff`). With the number 0 the device gets the address 0,
and the tool says that all went well (`set_address_fails`).
-/

set_option autoImplicit false

namespace Atsha204.Analysis

open Atsha204.Library
open Atsha204.Model
open Atsha204.Interface

variable {openssl : OpenSsl} {uninit : Uninit}

/-! ## What goes out on the bus -/

/-- An event that sends no write command. -/
def Writeless (e : Event ChipLink) : Prop := sendsWrite e = false

/-- The trace goes on, and a write command goes out. -/
def WriteSentSince (s s' : St ChipLink) : Prop :=
  ∃ events, s'.trace = s.trace ++ events ∧ ∃ e ∈ events, sendsWrite e = true

section Sent

variable {P : Event ChipLink → Prop} {s s₁ s' : St ChipLink}

/-- Where no event is a write no write has been sent. -/
theorem Trail.noWriteSent (h : Trail Writeless s s') : NoWriteSent s s' :=
  fun _ he => h.mem_drop he

/-- Where one has been sent, it has been. -/
theorem WriteSentSince.not_noWriteSent (h : WriteSentSince s s') : ¬ NoWriteSent s s' := by
  obtain ⟨events, htrace, e, he, hsent⟩ := h
  intro hno
  have hfalse := hno e (by rw [htrace, List.drop_left' rfl]; exact he)
  rw [hsent] at hfalse
  cases hfalse

/-- A write that is sent later is sent. -/
theorem WriteSentSince.of_trail (h : Trail P s s₁) (h' : WriteSentSince s₁ s') :
    WriteSentSince s s' := by
  obtain ⟨events, htrace, -⟩ := h
  obtain ⟨events', htrace', e, he, hsent⟩ := h'
  refine ⟨events ++ events', by rw [htrace', htrace, List.append_assoc], e, ?_, hsent⟩
  exact List.mem_append_right _ he

/-- A write that was sent stays sent. -/
theorem WriteSentSince.then_trail (h : WriteSentSince s s₁) (h' : Trail P s₁ s') :
    WriteSentSince s s' := by
  obtain ⟨events, htrace, e, he, hsent⟩ := h
  obtain ⟨events', htrace', -⟩ := h'
  refine ⟨events ++ events', by rw [htrace', htrace, List.append_assoc], e, ?_, hsent⟩
  exact List.mem_append_left _ he

end Sent

/-- A wake writes nothing. -/
theorem OfWake.writeless {e : Event ChipLink} (h : OfWake e) : Writeless e := by
  cases e with
  | written bytes ok link => exact h.elim
  | _ => rfl

/-- A session with another packet sends no write. -/
theorem OfSession.writeless {packet : Block} {I : Chip → Prop}
    (h : peek packet 1 ≠ some atsha204OpcodeWrite) {e : Event ChipLink}
    (he : OfSession packet I e) : Writeless e := by
  cases e with
  | written bytes ok link =>
    rcases he with ⟨rfl, -⟩ | rfl
    · cases ok with
      | false => rfl
      | true => exact decide_eq_false h
    · rfl
  | _ => rfl

/-! ## The read -/

/-- One attempt to send a command ends the search for an answer that arrives, or goes on with
it. -/
theorem commandExchange_answered (packet : Block) (b : ChipLink) :
    let r := commandExchange chipBus packet b
    r.2.script = b.script ∧ (r.2.chip = (b.chip.execute packet).1 ∨ r.2.chip = b.chip) ∧
      ((∃ frame, r.1 = some frame ∧
          frameAnswer frame = some (answerPacket (b.chip.execute packet).2) ∧
          ∀ n, answeredStep b.script (n + 1) b.clock = some r.2.clock) ∨
        (NotAccepted r.1 ∧
          ∀ n, answeredStep b.script (n + 1) b.clock = answeredStep b.script n r.2.clock)) := by
  intro r
  rcases commandExchange_steps packet b with ⟨hworks, hr⟩ | ⟨hworks, hscript, hclock, hsteps⟩
  · rw [show r = _ from hr]
    refine ⟨rfl, .inr rfl, .inr ⟨fun _ h => (by cases h), fun n => ?_⟩⟩
    simp [answeredStep, hworks, ChipLink.tick]
  rw [show r.2.clock = _ from hclock]
  refine ⟨hscript, ?_⟩
  rcases hsteps with
    ⟨hfate, hchip, ⟨⟨padding, hreception⟩, hanswered⟩ | ⟨hno, hagain⟩⟩ | ⟨hfate, hchip, hagain⟩
  · obtain ⟨frame, hframe, hanswer⟩ := hanswered
    refine ⟨.inl hchip, .inl ⟨frame, hframe, hanswer, fun n => ?_⟩⟩
    simp [answeredStep, hworks, hfate, hreception]
  · refine ⟨.inl hchip, .inr ⟨hagain, fun n => ?_⟩⟩
    cases hreception : (b.script (b.clock + 1)).reception with
    | intact padding => exact absurd hreception (hno padding)
    | none | damaged _ => simp [answeredStep, hworks, hfate, hreception]
  · refine ⟨.inr hchip, .inr ⟨hagain, fun n => ?_⟩⟩
    cases hcase : (b.script b.clock).fate with
    | lost | damaged _ => simp [answeredStep, hworks, hcase]
    | delivered refused =>
      cases refused with
      | none => exact absurd hcase hfate
      | some refusal => simp [answeredStep, hworks, hcase]

/-- Sending a command that the chip answers with a word and without a change: an answer comes
back exactly when the script lets one through. -/
theorem wp_send_answered {packet data : Block} (hframed : Framed packet) {s : St ChipLink}
    (hlayer : s.handle.bottomLayer = .ni2c)
    (hexecute : s.bus.chip.execute packet = (s.bus.chip, data)) (hdata : data.length = 4) :
    wp (send (chipEnv openssl uninit) packet)
      (fun reply s' => s'.bus.script = s.bus.script ∧
        ((answeredStep s.bus.script maxAttempts s.bus.clock = some s'.bus.clock ∧
            reply = (.ok, some (answerPacket data))) ∨
          (answeredStep s.bus.script maxAttempts s.bus.clock = none ∧ reply.1 ≠ .ok)))
      (fun _ => False) s := by
  rw [send, wp_command]
  refine wp_retry_link judgeCommand_givesUpBadly
    (commandAttempt_spec hlayer (sentBytes_of_framed hframed))
    (fun n s' => s'.bus.script = s.bus.script ∧ s'.bus.chip = s.bus.chip ∧
      answeredStep s.bus.script maxAttempts s.bus.clock =
        answeredStep s.bus.script n s'.bus.clock) ?_ ?_ rfl ⟨rfl, rfl, rfl⟩
  · rintro n s₁ messages - ⟨hscript, hchip, hsearch⟩
    obtain ⟨hscript', hchip', hcase⟩ := commandExchange_answered packet s₁.bus
    rw [hchip, hexecute] at hchip' hcase
    rw [hscript] at hscript' hcase
    rcases hcase with ⟨frame, hframe, hanswer, hfound⟩ | ⟨hagain, hgoes⟩
    · have hjudge := judgeCommand_data hanswer (by rw [hdata]; decide) (.inl (by rw [hdata]; decide))
      exact AfterAttempt.of_accept hframe hjudge
        ⟨hscript', .inl ⟨hsearch.trans (hfound n), rfl⟩⟩
    · refine AfterAttempt.of_again hagain fun _ => ⟨hscript', ?_, hsearch.trans (hgoes n)⟩
      exact hchip'.elim id id
  · rintro status s₁ hstatus - ⟨hscript, -, hsearch⟩
    exact ⟨hscript, .inr ⟨hsearch, hstatus.ne_ok⟩⟩

/-- A word is decoded without a change.
SOURCE: operations.c:40-63 -/
theorem wp_decode_word (number : AtshaBigInt) {data : Block} (hdata : data.length = 4)
    (s : St ChipLink) : wp (decode (some 4) number (answerPacket data))
      (fun r s' => s' = s ∧ r.1 = .ok ∧ Holds r.2 data) (fun _ => False) s := by
  have hanswer := answerPacket_length data
  rw [decode, decodeData, wp_bind, wp_readLongData (framed_answerPacket (by omega)) (by omega),
    if_pos (by omega), payload_answerPacket]
  simp only [Int.toNat_natCast]
  rw [if_neg (by omega)]
  exact ⟨rfl, rfl, holds_filled number.data (by omega)⟩

/-- Idling sends no write. -/
theorem idled_writeless (s : St ChipLink) :
    Trail Writeless s (idled (chipEnv openssl uninit) s) := by
  cases hlayer : s.handle.bottomLayer with
  | emulation =>
    rw [idled_emulation hlayer]
    exact ⟨[], by simp, by simp⟩
  | ni2c =>
    rw [idled_ni2c hlayer]
    refine ⟨[_], rfl, fun e he => ?_⟩
    rw [List.mem_singleton.mp he]
    rfl

/-- Idling takes one step of the script, whether the byte goes out or not. -/
theorem idled_step {s : St ChipLink} (hlayer : s.handle.bottomLayer = .ni2c) :
    (idled (chipEnv openssl uninit) s).bus.script = s.bus.script ∧
      (idled (chipEnv openssl uninit) s).bus.clock = s.bus.clock + 1 := by
  have hbus : ∃ pending, (chipBus.write [atsha204I2cWaIdle] s.bus).2 =
      { s.bus.tick with pending := pending } := by
    by_cases hworks : s.bus.step.works = true
    · exact ⟨none, by simp [chipBus, hworks, atsha204I2cWaIdle]⟩
    · exact ⟨s.bus.pending, by simp [chipBus, hworks, ChipLink.tick]⟩
  obtain ⟨pending, hbus⟩ := hbus
  rw [idled_ni2c hlayer]
  change (chipBus.write [atsha204I2cWaIdle] s.bus).2.script = _ ∧
    (chipBus.write [atsha204I2cWaIdle] s.bus).2.clock = _
  rw [hbus]
  exact ⟨rfl, rfl⟩

/-- What is left behind the read of a word. -/
structure WordRead (s : St ChipLink) (address : ℕ) (r : AtshaErr × AtshaBigInt)
    (s' : St ChipLink) : Prop where
  layer : s'.handle.bottomLayer = .ni2c
  chip : s'.bus.chip = s.bus.chip
  script : s'.bus.script = s.bus.script
  trail : Trail Writeless s s'
  read : (r.1 = .ok ∧ Holds r.2 (configWord s.bus.chip.config.val address) ∧
      s'.handle.wakeIsExpected = false ∧ readStep s = some (s'.bus.clock - 1) ∧
      0 < s'.bus.clock) ∨
    (r.1 ≠ .ok ∧ readStep s = none)

/-- Reading a configuration word, over a script: it succeeds exactly when the script lets a wake
and an answer through.
SOURCE: api.c:697-733 -/
theorem wp_confRead_script {address : UInt8} (haddress : address.toNat < 22)
    (number : AtshaBigInt) {s : St ChipLink} (hlayer : s.handle.bottomLayer = .ni2c) :
    wp (atshaRawConfRead (chipEnv openssl uninit) address number)
      (WordRead s address.toNat) (fun _ => False) s := by
  have hexecute := execute_confReadPacket s.bus.chip haddress
  have hword := length_configWord (length_config s.bus.chip) haddress
  have hread : ∀ e, OfSession (confReadPacket address) (· = s.bus.chip) e → Writeless e :=
    fun _ => OfSession.writeless (by rw [confReadPacket, peek_opcode]; decide)
  rw [confRead_eq, wp_session]
  refine wp_mono (wp_and (wp_wake_trace hlayer) (wp_wake_script hlayer)) ?_ fun _ h => h.2
  rintro status s₁ ⟨⟨-, hwake⟩, hlayer₁, hchip₁, hscript₁, ⟨rfl, hstep⟩ | ⟨hstatus, hstep⟩⟩
  swap
  · rw [if_neg hstatus]
    refine ⟨hlayer₁, hchip₁, hscript₁, Trail.mono hwake fun _ => OfWake.writeless, .inr ⟨hstatus, ?_⟩⟩
    rw [readStep, hstep]
    rfl
  have htrail₁ : Trail Writeless s s₁ := Trail.mono hwake fun _ => OfWake.writeless
  have hsearch : readStep s = answeredStep s₁.bus.script maxAttempts s₁.bus.clock := by
    rw [readStep, hstep, hscript₁]
    rfl
  rw [if_pos rfl, exchange, wp_bind, wp_access]
  simp only [wp_bind]
  have hsend := @wp_send_chip openssl uninit _ (framed_confReadPacket address) (· = s.bus.chip)
    (fun chip h => by rw [execute_confReadPacket chip haddress]; exact h) s₁ hlayer₁ hchip₁
  have hanswered := @wp_send_answered openssl uninit _ _ (framed_confReadPacket address) s₁ hlayer₁
    (by rw [hchip₁]; exact hexecute) hword
  refine wp_mono (wp_and hsend hanswered) ?_ fun _ h => h.2
  rintro reply s₂ ⟨⟨hhandle₂, hchip₂, htrail₂, -⟩, hscript₂, ⟨hfound, rfl⟩ | ⟨hnone, hreply⟩⟩
  · have hlayer₂ : s₂.handle.bottomLayer = .ni2c := by rw [hhandle₂]; exact hlayer₁
    simp only [ne_eq, not_true_eq_false, if_false, wp_bind, wp_access]
    refine wp_mono (wp_decode_word number hword s₂) ?_ fun _ h => h
    rintro r s₃ ⟨rfl, hr, hholds⟩
    obtain ⟨hscript₃, hclock₃⟩ := @idled_step openssl uninit s₃ hlayer₂
    rw [if_pos hr]
    refine ⟨hlayer₂, ?_, ?_, ?_, .inl ⟨rfl, hholds, rfl, ?_, ?_⟩⟩
    · rw [idled_chip, hchip₂]
    · rw [hscript₃, hscript₂, hscript₁]
    · exact (htrail₁.trans (htrail₂.mono hread)).trans (idled_writeless s₃)
    · rw [hclock₃, hsearch, hfound]
      rfl
    · omega
  · have hlayer₂ : s₂.handle.bottomLayer = .ni2c := by rw [hhandle₂]; exact hlayer₁
    simp only [hreply, ne_eq, not_false_eq_true, if_true, if_false, wp_pure]
    exact ⟨hlayer₂, hchip₂, hscript₂.trans hscript₁, htrail₁.trans (htrail₂.mono hread),
      .inr ⟨hreply, hsearch.trans hnone⟩⟩

/-! ## The write -/

/-- Some attempt to send a command, from this state on, goes out. -/
def GoesOut (s : St ChipLink) : Prop :=
  ∃ i < maxAttempts, (s.bus.script (s.bus.clock + i)).works = true

/-- What is left behind a write: it went out, and the chip is as written; or no attempt went
out, and the chip is as it was. -/
def WriteOutcome (sent : Prop) (s : St ChipLink) (written : Chip) (failed : Prop)
    (s' : St ChipLink) : Prop :=
  (sent ∧ WriteSentSince s s' ∧ s'.bus.chip = written) ∨
    (¬ sent ∧ Trail Writeless s s' ∧ failed)

/-- The attempts to send a write, with `n` of them left: one went out and the chip is as
written, or none did. -/
def WriteProgress (s : St ChipLink) (written : Chip) (n : ℕ) (s' : St ChipLink) : Prop :=
  s'.bus.script = s.bus.script ∧ s.bus.clock ≤ s'.bus.clock ∧
    ((GoesOut s ∧ WriteSentSince s s' ∧ s'.bus.chip = written) ∨
      (Trail Writeless s s' ∧ s'.bus.chip = s.bus.chip ∧
        s'.bus.clock + n = s.bus.clock + maxAttempts ∧
        ∀ i, s.bus.clock + i < s'.bus.clock → (s.bus.script (s.bus.clock + i)).works = false))

section Stored

variable {packet : Block} {s s₁ : St ChipLink} {written : Chip} {n : ℕ}

/-- The write goes out where the step works. -/
theorem chipBus_write_works (b : ChipLink) :
    (chipBus.write (atsha204I2cWaCommand :: packet) b).1 = (b.script b.clock).works := by
  cases hworks : (b.script b.clock).works <;>
    simp [chipBus, ChipLink.step, hworks, atsha204I2cWaCommand]

/-- An attempt in which nothing goes out. -/
theorem WriteProgress.unsent (h : WriteProgress s written (n + 1) s₁) (messages : List String)
    (hworks : (s₁.bus.script s₁.bus.clock).works = false)
    (hexchange : commandExchange chipBus packet s₁.bus = (none, s₁.bus.tick)) :
    WriteProgress s written n (s₁.after s₁.bus.tick (commandEvents chipBus packet s₁.bus)
      messages) := by
  obtain ⟨hscript, hclock, hprogress⟩ := h
  have hstep : Trail Writeless s₁ (s₁.after s₁.bus.tick (commandEvents chipBus packet s₁.bus)
      messages) := by
    have htrail := @trail_after Writeless s₁ packet messages
      (by rw [chipBus_write_works, hworks]; rfl) (fun _ => rfl) fun _ => rfl
    rw [hexchange] at htrail
    exact htrail
  refine ⟨hscript, Nat.le_succ_of_le hclock, ?_⟩
  rcases hprogress with ⟨hsent, hwrote, hchip⟩ | ⟨htrail, hchip, hleft, hnone⟩
  · exact .inl ⟨hsent, hwrote.then_trail hstep, hchip⟩
  · refine .inr ⟨htrail.trans hstep, hchip, ?_, fun i hi => ?_⟩
    · change s₁.bus.clock + 1 + n = _
      omega
    · rcases Nat.lt_succ_iff_lt_or_eq.mp hi with hlow | hlast
      · exact hnone i hlow
      · rw [hlast, ← hscript]
        exact hworks

/-- An attempt in which the write goes out. -/
theorem WriteProgress.sent (h : WriteProgress s written (n + 1) s₁) (messages : List String)
    (hwrite : peek packet 1 = some atsha204OpcodeWrite)
    (hworks : (s₁.bus.script s₁.bus.clock).works = true) :
    GoesOut s ∧ WriteSentSince s (s₁.after (commandExchange chipBus packet s₁.bus).2
      (commandEvents chipBus packet s₁.bus) messages) := by
  obtain ⟨hscript, hclock, hprogress⟩ := h
  have hwrote : WriteSentSince s₁ (s₁.after (commandExchange chipBus packet s₁.bus).2
      (commandEvents chipBus packet s₁.bus) messages) := by
    refine ⟨commandEvents chipBus packet s₁.bus ++ messages.map .message, ?_, _,
      List.mem_append_left _ (.head _), ?_⟩
    · rw [← List.append_assoc]
      rfl
    · rw [chipBus_write_works, hworks]
      exact decide_eq_true hwrite
  rcases hprogress with ⟨hsent, hbefore, -⟩ | ⟨htrail, -, hleft, -⟩
  · obtain ⟨events, htrace, -⟩ := hwrote
    exact ⟨hsent, hbefore.then_trail (P := fun _ => True) ⟨events, htrace, fun _ _ => trivial⟩⟩
  · refine ⟨⟨s₁.bus.clock - s.bus.clock, by omega, ?_⟩, WriteSentSince.of_trail htrail hwrote⟩
    rw [Nat.add_sub_cancel' hclock, ← hscript]
    exact hworks

/-- Sending a write to a chip that stores what is written. -/
theorem wp_send_stored (hframed : Framed packet)
    (hwrite : peek packet 1 = some atsha204OpcodeWrite) (hlayer : s.handle.bottomLayer = .ni2c)
    (hexecute : ∀ chip, chip = s.bus.chip ∨ chip = written →
      chip.execute packet = (written, success))
    (hstores : ∀ i, s.bus.clock ≤ i → (s.bus.script i).fate = .delivered none) :
    wp (send (chipEnv openssl uninit) packet)
      (fun reply s' => WriteOutcome (GoesOut s) s written (reply.1 ≠ .ok) s' ∧
        (reply.1 = .ok → reply.2 = some (answerPacket success)))
      (fun _ => False) s := by
  rw [send, wp_command]
  refine wp_retry_link judgeCommand_givesUpBadly
    (commandAttempt_spec hlayer (sentBytes_of_framed hframed))
    (WriteProgress s written) ?_ ?_ rfl
    ⟨rfl, le_rfl, .inr ⟨Trail.refl s, rfl, rfl, fun i hi => absurd hi (by omega)⟩⟩
  · intro n s₁ messages _ hprogress
    have hscript := hprogress.1
    have hclock := hprogress.2.1
    change AfterAttempt judgeCommand (commandExchange chipBus packet s₁.bus).1 _ _
      (s₁.after (commandExchange chipBus packet s₁.bus).2 (commandEvents chipBus packet s₁.bus)
        messages)
    rcases commandExchange_steps packet s₁.bus with
      ⟨hworks, hexchange⟩ | ⟨hworks, hscript', hclock', hsteps⟩
    · have hnext := hprogress.unsent messages hworks hexchange
      rw [hexchange]
      exact AfterAttempt.of_again (fun _ h => (by cases h)) fun _ => hnext
    obtain ⟨hsent, hwrote⟩ := hprogress.sent messages hwrite hworks
    have hchips : s₁.bus.chip = s.bus.chip ∨ s₁.bus.chip = written :=
      hprogress.2.2.elim (fun h => .inr h.2.2) fun h => .inl h.2.1
    rcases hsteps with ⟨-, hchip, hanswered⟩ | ⟨hother, -⟩
    swap
    · exact absurd (by rw [hscript]; exact hstores _ hclock) hother
    rw [hexecute _ hchips] at hchip hanswered
    rcases hanswered with ⟨-, frame, hframe, hanswer⟩ | ⟨-, hagain⟩
    · have hjudge := @judgeCommand_data _ success hanswer (by decide) (.inr rfl)
      exact AfterAttempt.of_accept hframe hjudge ⟨.inl ⟨hsent, hwrote, hchip⟩, fun _ => rfl⟩
    · refine AfterAttempt.of_again hagain fun _ => ⟨hscript'.trans hscript, ?_, ?_⟩
      · change s.bus.clock ≤ (commandExchange chipBus packet s₁.bus).2.clock
        omega
      · exact .inl ⟨hsent, hwrote, hchip⟩
  · rintro status s₁ hstatus - ⟨-, -, ⟨hsent, hwrote, hchip⟩ | ⟨htrail, hchip, hleft, hnone⟩⟩
    · exact ⟨.inl ⟨hsent, hwrote, hchip⟩, fun h => absurd h hstatus.ne_ok⟩
    · refine ⟨.inr ⟨?_, htrail, hstatus.ne_ok⟩, fun h => absurd h hstatus.ne_ok⟩
      rintro ⟨i, hi, hworks⟩
      rw [hnone i (by omega)] at hworks
      cases hworks

end Stored

/-- The outcome of a write, seen from before something that sends no write. -/
theorem WriteOutcome.of_trail {sent failed : Prop} {s s₁ s' : St ChipLink} {written : Chip}
    (h : Trail Writeless s s₁) (h' : WriteOutcome sent s₁ written failed s') :
    WriteOutcome sent s written failed s' := by
  rcases h' with ⟨hsent, hwrote, hchip⟩ | ⟨hnone, htrail, hfailed⟩
  · exact .inl ⟨hsent, WriteSentSince.of_trail h hwrote, hchip⟩
  · exact .inr ⟨hnone, h.trans htrail, hfailed⟩

/-- The status of success is decoded as such. -/
theorem wp_decodeStatus_success (Q : AtshaErr × Unit → St ChipLink → Prop)
    (E : St ChipLink → Prop) (s : St ChipLink) :
    wp (decodeStatus (answerPacket success)) Q E s ↔ Q (.ok, ()) s := by
  rw [decodeStatus, wp_bind]
  exact wp_opLockRecv_success (fun status s' => wp (pure (status, ())) Q E s') E s

/-- Writing a configuration word to a chip that stores what is written.
SOURCE: api.c:735-769 -/
theorem wp_confWrite_script {address : UInt8} (haddress : address.toNat < 22)
    {number : AtshaBigInt} (hbytes : number.bytes = 4) {s : St ChipLink}
    (hlayer : s.handle.bottomLayer = .ni2c)
    (hstores : ∀ t, commandStep s = some t →
      ∀ i, t ≤ i → (s.bus.script i).fate = .delivered none) :
    ∃ written : Chip, written.config.val =
        splice s.bus.chip.config.val (4 * address.toNat) (number.data.val.take 4) ∧
      wp (atshaRawConfWrite (chipEnv openssl uninit) address number)
        (fun r s' => WriteOutcome (∃ t, commandStep s = some t ∧
          ∃ i < maxAttempts, (s.bus.script (t + i)).works = true) s written (r.1 ≠ .ok) s')
        (fun _ => False) s := by
  have hpayload : (number.data.val.take 4).length = 4 := by
    rw [List.length_take, number.data.property]
    rfl
  obtain ⟨written, hstore, hagain, hconfig⟩ := store_config s.bus.chip
    (show 4 * address.toNat + (number.data.val.take 4).length ≤ 88 by omega)
  refine ⟨written, hconfig, ?_⟩
  have hpacket := opRawWrite_eq (getZoneConfig ioMemConfig ioRwNonEnc ioRw4Bytes) address
    number.data.property (show number.bytes % 256 ≤ 32 by omega)
  rw [show number.bytes % 256 = 4 by omega] at hpacket
  have hframed : Framed (commandPacket atsha204OpcodeWrite
      (getZoneConfig ioMemConfig ioRwNonEnc ioRw4Bytes) address.toUInt16
      (number.data.val.take 4)) := framed_commandPacket _ _ _ (by omega)
  rw [confWrite_eq, hpacket, wp_session]
  refine wp_mono (wp_and (wp_wake_trace hlayer) (wp_wake_script hlayer)) ?_ fun _ h => h.2
  rintro status s₁ ⟨⟨-, hwake⟩, hlayer₁, hchip₁, hscript₁, ⟨rfl, hstep⟩ | ⟨hstatus, hstep⟩⟩
  swap
  · rw [if_neg hstatus]
    refine .inr ⟨?_, Trail.mono hwake fun _ => OfWake.writeless, hstatus⟩
    rintro ⟨t, ht, -⟩
    rw [hstep] at ht
    cases ht
  have htrail₁ : Trail Writeless s s₁ := Trail.mono hwake fun _ => OfWake.writeless
  have hsent : GoesOut s₁ ↔ ∃ t, commandStep s = some t ∧
      ∃ i < maxAttempts, (s.bus.script (t + i)).works = true := by
    rw [GoesOut, hstep, hscript₁]
    simp
  rw [if_pos rfl, exchange, wp_bind, wp_access, ← hsent]
  simp only [wp_bind]
  have hexecute : ∀ chip, chip = s₁.bus.chip ∨ chip = written →
      chip.execute (commandPacket atsha204OpcodeWrite
        (getZoneConfig ioMemConfig ioRwNonEnc ioRw4Bytes) address.toUInt16
        (number.data.val.take 4)) = (written, success) := by
    rintro chip (rfl | rfl)
    · exact execute_write (by rw [hchip₁]; exact hstore)
    · exact execute_write hagain
  refine wp_mono (wp_send_stored hframed (peek_opcode _ _ _ _) hlayer₁ hexecute
    (by rw [hscript₁]; exact hstores _ hstep)) ?_ fun _ h => h
  rintro reply s₂ ⟨houtcome, hanswer⟩
  have houtcome := houtcome.of_trail htrail₁
  by_cases hreply : reply.1 = .ok
  swap
  · rw [if_pos hreply, wp_pure, if_neg hreply]
    exact houtcome
  simp only [hreply, hanswer hreply, ne_eq, not_true_eq_false, if_false, wp_bind, wp_access,
    wp_decodeStatus_success, if_true]
  rcases houtcome with ⟨hgone, hwrote, hchip⟩ | ⟨-, -, hfailed⟩
  · refine .inl ⟨hgone, hwrote.then_trail (idled_writeless s₂), ?_⟩
    rw [idled_chip, hchip]
  · exact absurd hreply hfailed

/-! ## The change of address -/

/-- What is left behind a change of address: a write went out, and the first byte of word 4 is
the new one; or none went out, and the change failed. -/
def ChangeOutcome (address : UInt8) (s : St ChipLink) (failed : Prop) (s' : St ChipLink) : Prop :=
  (WriteGoesOut s ∧ WriteSentSince s s' ∧
      s'.bus.chip.config.val = s.bus.chip.config.val.set 16 (address <<< 1)) ∨
    (¬ WriteGoesOut s ∧ Trail Writeless s s' ∧ failed)

/-- A change of address, over a script.
SOURCE: api.c:680-695 -/
theorem wp_changeAddress {s : St ChipLink} (hlayer : s.handle.bottomLayer = .ni2c)
    (hstores : StoresWrites s) (address : UInt8) :
    wp (atshaChangeAddress (chipEnv openssl uninit) address)
      (fun r s' => ChangeOutcome address s (r.1 ≠ .ok) s') (fun _ => False) s := by
  have hzone := length_config s.bus.chip
  rw [atshaChangeAddress_eq, wp_bind]
  refine wp_mono (@wp_confRead_script openssl uninit atsha204CnfMemoryMapI2cAddress (by decide) _ s
    hlayer) ?_ fun _ h => h
  rintro ⟨status, line⟩ s₁ ⟨hlayer₁, hchip₁, hscript₁, htrail₁,
    ⟨hok, hholds, hasleep, hread, hclock⟩ | ⟨hstatus, hnone⟩⟩
  swap
  · rw [if_pos hstatus]
    refine .inr ⟨?_, htrail₁, hstatus⟩
    rintro ⟨t, ht, -⟩
    rw [writeStep, hnone] at ht
    cases ht
  have hstep : commandStep s₁ = writeStep s := by
    rw [writeStep, hread, commandStep, if_neg (by rw [hasleep]; decide), hscript₁]
    change _ = wakeStep _ _ (s₁.bus.clock - 1 + 1)
    rw [Nat.sub_add_cancel hclock]
  have hword : (configWord s.bus.chip.config.val 4).length = 4 := by
    rw [configWord, List.length_take, List.length_drop]
    omega
  have hbytes : line.bytes = 4 := hholds.bytes_eq.trans hword
  have htake : line.data.val.take 4 = configWord s.bus.chip.config.val 4 := by
    have htake := hholds.take_eq
    rw [show atsha204CnfMemoryMapI2cAddress.toNat = 4 from rfl, hword] at htake
    exact htake
  obtain ⟨data, hdata, hval⟩ := overwrite_of_le line.data
    (show [address <<< 1].length ≤ atshaMaxDataSize by simp [atshaMaxDataSize])
  have hset : data.val.take 4 = (configWord s.bus.chip.config.val 4).set 0 (address <<< 1) := by
    have hcells : data.val = line.data.val.set 0 (address <<< 1) := by
      have hline : line.data.val.length = 32 := line.data.property
      rw [hval]
      cases hcells : line.data.val with
      | nil => rw [hcells] at hline; cases hline
      | cons _ _ => rfl
    rw [hcells, List.take_set, htake]
  rw [if_neg (not_not_intro hok), writeAddress, wp_bind, wp_access, hdata]
  obtain ⟨written, hwritten, hwrite⟩ := @wp_confWrite_script openssl uninit
    atsha204CnfMemoryMapI2cAddress (by decide) { line with data := data } hbytes s₁ hlayer₁
    (by rw [hstep, hscript₁]; exact hstores)
  refine wp_mono hwrite ?_ fun _ h => h
  intro r s' houtcome
  rw [hstep, hscript₁] at houtcome
  rcases houtcome.of_trail htrail₁ with ⟨hsent, hwrote, hchip⟩ | ⟨hunsent, htrail, hfailed⟩
  · refine .inl ⟨hsent, hwrote, ?_⟩
    rw [hchip, hwritten, hchip₁]
    change splice _ (4 * 4) (data.val.take 4) = _
    rw [hset, configWord, splice_set (by omega) (by decide)]
  · exact .inr ⟨hunsent, htrail, hfailed⟩

/-- An address in range, doubled into a byte. -/
theorem shiftLeft_toUnsignedChar {n : Int} (h : AddressInRange n) :
    toUnsignedChar n <<< 1 = UInt8.ofNat (2 * n).toNat := by
  obtain ⟨hlow, hhigh⟩ := h
  have hnarrow := toUnsignedChar_toNat n
  rw [← UInt8.toNat_inj, UInt8.toNat_shiftLeft, ofNat_toNat_of_lt (by omega)]
  change (toUnsignedChar n).toNat <<< 1 % 256 = _
  rw [Nat.shiftLeft_eq, pow_one]
  omega

/-- An address in range that is put in the first byte of word 4 is stored. -/
theorem addressStored_of_set {n : Int} {chip chip' : Chip} (h : AddressInRange n)
    (hset : chip'.config.val = chip.config.val.set 16 (toUnsignedChar n <<< 1)) :
    AddressStored n chip chip' := by
  refine ⟨h, fun b0 b1 b2 b3 hword => ?_, fun i hi => ?_⟩
  · rw [hset, List.drop_set, if_neg (by decide), Nat.sub_self, List.take_set, hword,
      shiftLeft_toUnsignedChar h]
    rfl
  · rw [hset, List.getElem?_set_ne (Ne.symm hi)]

/-- The outcome is as asked exactly when the number is in range, or no write goes out. -/
theorem ChangeOutcome.addressOutcome_iff {n : Int} {s s' : St ChipLink} {failed : Prop}
    (h : ChangeOutcome (toUnsignedChar n) s failed s') :
    AddressOutcome n failed s s' ↔ AddressInRange n ∨ ¬ WriteGoesOut s := by
  rcases h with ⟨hsent, hwrote, hset⟩ | ⟨hunsent, htrail, hfailed⟩
  · constructor
    · rintro (⟨-, hno⟩ | hstored)
      · exact absurd hno hwrote.not_noWriteSent
      · exact .inl hstored.inRange
    · intro h
      exact .inr (addressStored_of_set (h.resolve_right (not_not_intro hsent)) hset)
  · exact iff_of_true (.inl ⟨hfailed, htrail.noWriteSent⟩) (.inr hunsent)

section Iff

variable {s : St ChipLink} (hlayer : s.handle.bottomLayer = .ni2c) (hstores : StoresWrites s)
include hlayer hstores

/-- The operation of the library sets an address exactly when it is in range, or no write goes out.
SOURCE: api.c:680-695 -/
theorem librarySetsAddress_iff (address : UInt8) :
    LibrarySetsAddress (chipEnv openssl uninit) address s ↔
      AddressInRange address.toNat ∨ ¬ WriteGoesOut s := by
  have hnarrow : toUnsignedChar (address.toNat : Int) = address := by
    have hvalue := toUnsignedChar_toNat (address.toNat : Int)
    have hlt := address.toNat_lt
    rw [← UInt8.toNat_inj]
    omega
  have hall : wp (atshaChangeAddress (chipEnv openssl uninit) address)
      (fun r s' => AddressOutcome address.toNat (r.1 ≠ .ok) s s' ↔
        AddressInRange address.toNat ∨ ¬ WriteGoesOut s) (fun _ => False) s := by
    refine wp_mono (wp_changeAddress hlayer hstores address) ?_ fun _ h => h
    intro r s' h
    rw [← hnarrow] at h
    exact h.addressOutcome_iff
  rw [← wp_iff_of_returns hall]
  exact ⟨fun h => h.outcome, fun h => ⟨h⟩⟩

/-- So does the command of `chiptools`, for the number that it is given.
SOURCE: main.c:291-307 -/
theorem commandSetsAddress_iff (newAddr : Int) :
    CommandSetsAddress (chipEnv openssl uninit) newAddr s ↔
      AddressInRange newAddr ∨ ¬ WriteGoesOut s := by
  have hall : wp (setAddress (chipEnv openssl uninit) newAddr)
      (fun result s' => AddressOutcome newAddr (result.exitCode ≠ 0) s s' ↔
        AddressInRange newAddr ∨ ¬ WriteGoesOut s) (fun _ => False) s := by
    rw [setAddress, if_neg (by omega), wp_bind]
    refine wp_mono (wp_changeAddress hlayer hstores _) ?_ fun _ h => h
    rintro ⟨errcode, _⟩ s' h
    have hdone := h.addressOutcome_iff
    by_cases hok : errcode = .ok
    · simpa [hok] using hdone
    · simpa [hok] using hdone
  rw [← wp_iff_of_returns hall]
  exact ⟨fun h => h.outcome, fun h => ⟨h⟩⟩

/-- On a chip that stores what is written, the command fails with no write sent, or leaves the
address it was given, in range and with nothing else touched, exactly when its number is in
range or the link lets no write out; and so does the function of the library.
SOURCE: api.c:680-695, main.c:291-307 -/
theorem set_address_iff (openssl : OpenSsl) (uninit : Uninit) (newAddr : Int) (address : UInt8) :
    (CommandSetsAddress (chipEnv openssl uninit) newAddr s ↔
        AddressInRange newAddr ∨ ¬ WriteGoesOut s) ∧
      (LibrarySetsAddress (chipEnv openssl uninit) address s ↔
        AddressInRange address.toNat ∨ ¬ WriteGoesOut s) :=
  ⟨commandSetsAddress_iff hlayer hstores newAddr, librarySetsAddress_iff hlayer hstores address⟩

end Iff

/-- A link without a fault stores what is written. -/
theorem linkState_storesWrites : StoresWrites (linkState fun _ => goodStep) :=
  fun _ _ _ _ => rfl

/-- The address 0x65 can be given to the tool and to the library. -/
theorem set_address_allowed :
    CommandSetsAddress (chipEnv replayEnv.openssl replayEnv.uninit) 0x65
        (linkState fun _ => goodStep) ∧
      LibrarySetsAddress (chipEnv replayEnv.openssl replayEnv.uninit) 0x65
        (linkState fun _ => goodStep) := by
  obtain ⟨hcommand, hlibrary⟩ := set_address_iff (linkState_layer fun _ => goodStep)
    linkState_storesWrites replayEnv.openssl replayEnv.uninit 0x65 0x65
  exact ⟨hcommand.mpr (.inl ⟨by decide, by decide⟩), hlibrary.mpr (.inl ⟨by decide, by decide⟩)⟩

/-- The number 0 goes through, over a link without a fault: the device gets the address 0. -/
theorem set_address_fails : ¬ ∀ (openssl : OpenSsl) (uninit : Uninit) (s : St ChipLink),
    s.handle.bottomLayer = .ni2c → StoresWrites s →
      (∀ newAddr, CommandSetsAddress (chipEnv openssl uninit) newAddr s) ∧
        ∀ address, LibrarySetsAddress (chipEnv openssl uninit) address s := by
  intro h
  have hcommand := (h replayEnv.openssl replayEnv.uninit (linkState fun _ => goodStep)
    (linkState_layer _) linkState_storesWrites).1 0
  have hstep : writeStep (linkState fun _ => goodStep) = some 11 := by decide +kernel
  rcases (commandSetsAddress_iff (linkState_layer _) linkState_storesWrites 0).mp hcommand with
    ⟨hlow, -⟩ | hunsent
  · exact absurd hlow (by decide)
  · exact hunsent ⟨11, hstep, 0, by decide, rfl⟩

end Atsha204.Analysis
