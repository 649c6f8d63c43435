import Atsha204.Analysis.ChipExchange
import Atsha204.Analysis.Exchanges

/-!
# What is known after a lock command

A chip executes a lock once and answers an execution error to the next one, and `command`
sends it again when only the answer was damaged. So a lock operation tells the truth about
the zone exactly when no attempt was executed, or the answer to the one that was arrives
(`lock_report_iff`). A lock that is executed, with its answer lost, is reported as failed
and is in force all the same (`lock_report_fails`).
-/

set_option autoImplicit false

namespace Atsha204.Analysis

open Atsha204.Library
open Atsha204.Model
open Atsha204.Interface

variable {openssl : OpenSsl} {uninit : Uninit}

/-! ## Waking over a script -/

/-- Where no answer arrives intact, an attempt to wake goes on. -/
theorem judgeWake_not_arrived {b : ChipLink} (hpending : ∀ data, b.pending = some data →
      (∃ refusal : Refusal, data = refusal.data) ∨ ∀ padding, b.step.reception ≠ .intact padding)
    (frame : Frame) (h : (chipBus.read b).1 = some frame) :
    judgeWake frame = some (.again .communication) := by
  cases hreception : b.step.reception with
  | intact padding =>
    rcases chip_read_cases b h with ⟨damage, rfl⟩ | ⟨data, hdata, hanswer⟩
    · exact judgeWake_damaged damage
    · rcases hpending data hdata with ⟨refusal, rfl⟩ | hno
      · exact judgeWake_refusal hanswer
      · exact absurd hreception (hno padding)
  | none => simp [chipBus, hreception] at h
  | damaged damage =>
    simp only [chipBus, hreception, Option.some.injEq] at h
    exact h ▸ judgeWake_damaged damage

/-- One attempt to wake ends the search for a wake that succeeds, or goes on with it. -/
theorem wakeExchange_script (b : ChipLink) :
    (wakeExchange chipBus b).2.script = b.script ∧
      ((∃ frame answer, (wakeExchange chipBus b).1 = some frame ∧
          judgeWake frame = some (.accept answer) ∧
          ∀ n, wakeStep b.script (n + 1) b.clock = some (wakeExchange chipBus b).2.clock) ∨
        ((∀ frame, (wakeExchange chipBus b).1 = some frame →
            judgeWake frame = some (.again .communication)) ∧
          ∀ n, wakeStep b.script (n + 1) b.clock =
            wakeStep b.script n (wakeExchange chipBus b).2.clock)) := by
  by_cases hopen : (b.script b.clock).works = true
  swap
  · have hexchange : wakeExchange chipBus b = (none, b.tick) := by
      simp [wakeExchange, chipBus, ChipLink.step, hopen]
    rw [hexchange]
    exact ⟨rfl, .inr ⟨fun _ h => (by cases h), fun n => by simp [wakeStep, hopen, ChipLink.tick]⟩⟩
  by_cases hbind : (b.script (b.clock + 1)).works = true
  swap
  · have hexchange : wakeExchange chipBus b = (none, b.tick.tick) := by
      simp [wakeExchange, chipBus, ChipLink.step, ChipLink.tick, hopen, hbind]
    rw [hexchange]
    exact ⟨rfl, .inr ⟨fun _ h => (by cases h),
      fun n => by simp [wakeStep, hopen, hbind, ChipLink.tick]⟩⟩
  let asked := b.tick.tick.carry fun _ => (b.chip, [atsha204StatusWakeOk])
  have hexchange : wakeExchange chipBus b = chipBus.read asked := by
    have hopen' : (chipBus.openPath b).1 = true := hopen
    have hbind' : (chipBus.bindGeneralCall (chipBus.openPath b).2).1 = true := hbind
    simp only [wakeExchange, hopen', hbind', if_true]
    rfl
  have hlast : (chipBus.read asked).2 = asked.tick := rfl
  have hasked : asked.script = b.script ∧ asked.clock = b.clock + 3 := by
    simp only [asked, ChipLink.carry]
    split <;> exact ⟨rfl, rfl⟩
  have hstep : asked.step = b.script (b.clock + 3) := by rw [ChipLink.step, hasked.1, hasked.2]
  rw [hexchange, hlast]
  refine ⟨hasked.1, ?_⟩
  have hclock : asked.tick.clock = b.clock + 4 := by
    change asked.clock + 1 = _
    rw [hasked.2]
  rw [hclock]
  cases hfate : (b.script (b.clock + 2)).fate with
  | delivered refused =>
    have hpending : asked.pending = some [atsha204StatusWakeOk] := by
      simp [asked, ChipLink.carry, ChipLink.step, ChipLink.tick, hfate]
    cases hreception : (b.script (b.clock + 3)).reception with
    | intact padding =>
      obtain ⟨frame, hframe, hanswer⟩ :=
        chip_read_intact (hstep ▸ hreception) hpending (by decide)
      exact .inl ⟨frame, _, hframe, judgeWake_wakeOk hanswer,
        fun n => by simp [wakeStep, hopen, hbind, hfate, hreception]⟩
    | none | damaged _ =>
      refine .inr ⟨judgeWake_not_arrived fun data _ => .inr fun p hp => ?_,
        fun n => by simp [wakeStep, hopen, hbind, hfate, hreception]⟩
      rw [hstep, hreception] at hp
      cases hp
  | lost =>
    refine .inr ⟨judgeWake_not_arrived fun data h => ?_,
      fun n => by simp [wakeStep, hopen, hbind, hfate]⟩
    simp [asked, ChipLink.carry, ChipLink.step, ChipLink.tick, hfate] at h
  | damaged answer =>
    refine .inr ⟨judgeWake_not_arrived fun data h => .inl ?_,
      fun n => by simp [wakeStep, hopen, hbind, hfate]⟩
    simp only [asked, ChipLink.carry, ChipLink.step, ChipLink.tick, hfate,
      Option.map_eq_some_iff] at h
    obtain ⟨refusal, -, rfl⟩ := h
    exact ⟨refusal, rfl⟩

/-! ## Commands over a script -/

/-- Where no answer of the chip arrives intact, an attempt to send a command goes on. -/
theorem judgeCommand_not_arrived {b : ChipLink} (hpending : ∀ data, b.pending = some data →
      (∃ refusal : Refusal, data = refusal.data) ∨ ∀ padding, b.step.reception ≠ .intact padding)
    (frame : Frame) (h : (chipBus.read b).1 = some frame) :
    ∃ status, judgeCommand frame = some (.again status) := by
  cases hreception : b.step.reception with
  | intact padding =>
    rcases chip_read_cases b h with ⟨damage, rfl⟩ | ⟨data, hdata, hanswer⟩
    · exact ⟨_, judgeCommand_damaged damage⟩
    · rcases hpending data hdata with ⟨refusal, rfl⟩ | hno
      · exact ⟨_, judgeCommand_refusal hanswer⟩
      · exact absurd hreception (hno padding)
  | none => simp [chipBus, hreception] at h
  | damaged damage =>
    simp only [chipBus, hreception, Option.some.injEq] at h
    exact h ▸ ⟨_, judgeCommand_damaged damage⟩

/-- What the chip answers fits the buffer of the layer. -/
theorem answerable_length {data : Block} (h : Answerable data) :
    data.length + 3 ≤ buffsizeNi2c := by
  rcases h with ⟨refusal, rfl⟩ | rfl | hlen | hlen
  · change 4 ≤ 84; decide
  · decide
  · rw [hlen]; decide
  · rw [hlen]; decide

/-- A frame that comes back, if one does, is not accepted. -/
def NotAccepted (frame : Option Frame) : Prop :=
  ∀ f, frame = some f → ∃ status, judgeCommand f = some (.again status)

/-- One attempt to send a command, by the steps of the script: nothing can be written, or the
chip executes the command and its answer arrives or does not, or the chip does not. -/
theorem commandExchange_steps (packet : Block) (b : ChipLink) :
    let r := commandExchange chipBus packet b
    ((b.script b.clock).works = false ∧ r = (none, b.tick)) ∨
      ((b.script b.clock).works = true ∧ r.2.script = b.script ∧ r.2.clock = b.clock + 2 ∧
        (((b.script b.clock).fate = .delivered none ∧ r.2.chip = (b.chip.execute packet).1 ∧
            (((∃ padding, (b.script (b.clock + 1)).reception = .intact padding) ∧
                ∃ frame, r.1 = some frame ∧
                  frameAnswer frame = some (answerPacket (b.chip.execute packet).2)) ∨
              ((∀ padding, (b.script (b.clock + 1)).reception ≠ .intact padding) ∧
                NotAccepted r.1))) ∨
          ((b.script b.clock).fate ≠ .delivered none ∧ r.2.chip = b.chip ∧ NotAccepted r.1))) := by
  intro r
  by_cases hworks : (b.script b.clock).works = true
  swap
  · refine .inl ⟨by simpa using hworks, ?_⟩
    simp [r, commandExchange, chipBus, ChipLink.step, hworks]
  let sent := b.carry (b.chip.receive packet)
  have hexchange : r = chipBus.read sent := by
    have hwrite : chipBus.write (atsha204I2cWaCommand :: packet) b = (true, sent) :=
      if_pos hworks
    simp only [r, commandExchange, hwrite, if_true]
  have hlast : (chipBus.read sent).2 = sent.tick := rfl
  have hsent : sent.script = b.script ∧ sent.clock = b.clock + 1 := by
    simp only [sent, ChipLink.carry]
    split <;> exact ⟨rfl, rfl⟩
  have hstep : sent.step = b.script (b.clock + 1) := by rw [ChipLink.step, hsent.1, hsent.2]
  have hclock : sent.tick.clock = b.clock + 2 := by
    change sent.clock + 1 = _
    rw [hsent.2]
  rw [hexchange, hlast]
  refine .inr ⟨hworks, hsent.1, hclock, ?_⟩
  change (_ ∧ sent.chip = _ ∧ _) ∨ (_ ∧ sent.chip = _ ∧ _)
  cases hfate : (b.script b.clock).fate with
  | delivered refused =>
    have hchip : sent.chip = (b.chip.receive packet refused).1 := by
      simp [sent, ChipLink.carry, ChipLink.step, hfate]
    have hpending : sent.pending = some (b.chip.receive packet refused).2 := by
      simp [sent, ChipLink.carry, ChipLink.step, hfate]
    cases refused with
    | none =>
      refine .inl ⟨rfl, hchip, ?_⟩
      cases hreception : (b.script (b.clock + 1)).reception with
      | intact padding =>
        refine .inl ⟨⟨padding, rfl⟩, ?_⟩
        exact chip_read_intact (hstep ▸ hreception) hpending
          (answerable_length (execute_answerable _ _))
      | none | damaged _ =>
        refine .inr ⟨fun _ hp => (by cases hp), ?_⟩
        refine judgeCommand_not_arrived fun data _ => .inr fun p hp => ?_
        rw [hstep, hreception] at hp
        cases hp
    | some refusal =>
      refine .inr ⟨fun h => (by cases h), hchip, judgeCommand_not_arrived fun data h => .inl ?_⟩
      exact ⟨refusal, Option.some.inj (h.symm.trans hpending)⟩
  | lost =>
    refine .inr ⟨fun h => (by cases h),
      by simp [sent, ChipLink.carry, ChipLink.step, ChipLink.tick, hfate],
      judgeCommand_not_arrived fun data h => ?_⟩
    simp [sent, ChipLink.carry, ChipLink.step, ChipLink.tick, hfate] at h
  | damaged answer =>
    refine .inr ⟨fun h => (by cases h),
      by simp [sent, ChipLink.carry, ChipLink.step, ChipLink.tick, hfate],
      judgeCommand_not_arrived fun data h => .inl ?_⟩
    simp only [sent, ChipLink.carry, ChipLink.step, ChipLink.tick, hfate,
      Option.map_eq_some_iff] at h
    obtain ⟨refusal, -, rfl⟩ := h
    exact ⟨refusal, rfl⟩

/-- One attempt to send a command: the chip executes it and its answer arrives or does not,
or the chip does not execute it and the attempts go on. -/
theorem commandExchange_script (packet : Block) (b : ChipLink) :
    let r := commandExchange chipBus packet b
    r.2.script = b.script ∧
      ((r.2.chip = (b.chip.execute packet).1 ∧
          ((∃ frame, r.1 = some frame ∧
              frameAnswer frame = some (answerPacket (b.chip.execute packet).2) ∧
              ∀ n, heardIfExecuted b.script (n + 1) b.clock = true) ∨
            ((∀ frame, r.1 = some frame → ∃ status, judgeCommand frame = some (.again status)) ∧
              ∀ n, heardIfExecuted b.script (n + 1) b.clock = false))) ∨
        (r.2.chip = b.chip ∧
          (∀ frame, r.1 = some frame → ∃ status, judgeCommand frame = some (.again status)) ∧
          ∀ n, heardIfExecuted b.script (n + 1) b.clock =
            heardIfExecuted b.script n r.2.clock)) := by
  intro r
  rcases commandExchange_steps packet b with ⟨hworks, hr⟩ | ⟨hworks, hscript, hclock, hsteps⟩
  · rw [show r = _ from hr]
    exact ⟨rfl, .inr ⟨rfl, fun _ h => (by cases h),
      fun n => by simp [heardIfExecuted, hworks, ChipLink.tick]⟩⟩
  refine ⟨hscript, ?_⟩
  rcases hsteps with
    ⟨hfate, hchip, ⟨⟨padding, hreception⟩, hanswered⟩ | ⟨hno, hagain⟩⟩ | ⟨hfate, hchip, hagain⟩
  · obtain ⟨frame, hframe, hanswer⟩ := hanswered
    exact .inl ⟨hchip, .inl ⟨frame, hframe, hanswer,
      fun n => by simp [heardIfExecuted, hworks, hfate, hreception]⟩⟩
  · refine .inl ⟨hchip, .inr ⟨hagain, fun n => ?_⟩⟩
    cases hreception : (b.script (b.clock + 1)).reception with
    | intact padding => exact absurd hreception (hno padding)
    | none | damaged _ => simp [heardIfExecuted, hworks, hfate, hreception]
  · refine .inr ⟨hchip, hagain, fun n => ?_⟩
    rw [show r.2.clock = _ from hclock]
    cases hcase : (b.script b.clock).fate with
    | lost | damaged _ => simp [heardIfExecuted, hworks, hcase]
    | delivered refused =>
      cases refused with
      | none => exact absurd hcase hfate
      | some refusal => simp [heardIfExecuted, hworks, hcase]

/-! ## The loops -/

/-- Waking the device, over a script: it succeeds exactly when the script lets a wake
through, and leaves the chip as it is. -/
theorem wp_wake_script {s : St ChipLink} (hlayer : s.handle.bottomLayer = .ni2c) :
    wp (wake (chipEnv openssl uninit))
      (fun status s' => s'.handle.bottomLayer = .ni2c ∧ s'.bus.chip = s.bus.chip ∧
        s'.bus.script = s.bus.script ∧
        ((status = .ok ∧ commandStep s = some s'.bus.clock) ∨
          (status ≠ .ok ∧ commandStep s = none)))
      (fun _ => False) s := by
  by_cases hflag : s.handle.wakeIsExpected = true
  · simp only [wake, wp_bind, wp_getHandle, hflag, if_true, wp_pure, commandStep]
    exact ⟨hlayer, trivial, trivial, .inl ⟨trivial, trivial⟩⟩
  have hsearch : commandStep s = wakeStep s.bus.script maxAttempts s.bus.clock := if_neg hflag
  rw [wp_wake (by simpa using hflag)]
  refine wp_retry_link judgeWake_givesUpBadly (wakeAttempt_spec hlayer)
    (fun n s' => s'.bus.chip = s.bus.chip ∧ s'.bus.script = s.bus.script ∧
      commandStep s = wakeStep s.bus.script n s'.bus.clock) ?_ ?_ rfl ⟨rfl, rfl, hsearch⟩
  · rintro n s' messages hs ⟨hchip, hscript, hsearch⟩
    have hlayer' : s'.handle.bottomLayer = .ni2c := hs ▸ hlayer
    have hchip' : (wakeExchange chipBus s'.bus).2.chip = s.bus.chip :=
      (wakeExchange_chip s'.bus).trans hchip
    obtain ⟨hscript', hcase⟩ := wakeExchange_script s'.bus
    rw [hscript] at hscript' hcase
    rcases hcase with ⟨frame, answer, hframe, hjudge, hfound⟩ | ⟨hagain, hgoes⟩
    · have hstep := hfound n
      rw [← hsearch] at hstep
      exact AfterAttempt.of_accept hframe hjudge ⟨hlayer', hchip', hscript', .inl ⟨rfl, hstep⟩⟩
    · have hstep := hgoes n
      rw [← hsearch] at hstep
      exact AfterAttempt.of_again (fun frame hframe => ⟨_, hagain frame hframe⟩)
        fun _ => ⟨hchip', hscript', hstep⟩
  · rintro status s' hstatus hs ⟨hchip, hscript, hsearch⟩
    exact ⟨hs ▸ hlayer, hchip, hscript, .inr ⟨hstatus.ne_ok, hsearch⟩⟩

/-- The packet of a lock. -/
def lockPacket (zone : UInt8) (crc : UInt16) : Block := commandPacket atsha204OpcodeLock zone crc []

/-- The chip executes a lock of a zone that is not locked, and answers an execution error to
any other. -/
theorem execute_lockPacket (chip : Chip) (zone : UInt8) (crc : UInt16) :
    chip.execute (lockPacket zone crc) =
      if chip.locked zone then (chip, Refusal.execError.data) else (chip.lock zone, success) := rfl

/-- A zone that is locked is locked. -/
theorem locked_lock (chip : Chip) (zone : UInt8) : (chip.lock zone).locked zone = true := by
  unfold Chip.lock Chip.locked
  by_cases hzone : zone = lockConfig <;> simp [hzone]

/-- A chip with the zone locked refuses every lock. -/
theorem receive_locked {chip : Chip} {zone : UInt8} (h : chip.locked zone = true) (crc : UInt16)
    (refused : Option Refusal) : ∃ refusal : Refusal,
      chip.receive (lockPacket zone crc) refused = (chip, refusal.data) := by
  cases refused with
  | none =>
    refine ⟨.execError, ?_⟩
    rw [Chip.receive, execute_lockPacket, if_pos h]
  | some refusal => exact ⟨refusal, rfl⟩

/-- Sending a lock, over a script: a good reply says that the zone is locked, and without
one the zone is locked exactly when an answer of the chip was missed. -/
theorem wp_send_lock {s : St ChipLink} (hlayer : s.handle.bottomLayer = .ni2c) {zone : UInt8}
    (hopen : s.bus.chip.locked zone = false) (crc : UInt16) :
    wp (send (chipEnv openssl uninit) (lockPacket zone crc))
      (fun reply s' =>
        (reply = (.ok, some (answerPacket success)) ∧ s'.bus.chip.locked zone = true ∧
          heardIfExecuted s.bus.script maxAttempts s.bus.clock = true) ∨
        (reply.1 ≠ .ok ∧ (s'.bus.chip.locked zone = true ↔
          heardIfExecuted s.bus.script maxAttempts s.bus.clock = false)))
      (fun _ => False) s := by
  set heard := heardIfExecuted s.bus.script maxAttempts s.bus.clock with hheard
  rw [send, wp_command]
  refine wp_retry_link judgeCommand_givesUpBadly
    (commandAttempt_spec hlayer
      (sentBytes_of_framed (@framed_commandPacket _ _ _ [] (by decide))))
    (fun n s' => s'.bus.script = s.bus.script ∧
      ((s'.bus.chip.locked zone = false ∧
          heard = heardIfExecuted s.bus.script n s'.bus.clock) ∨
        (s'.bus.chip.locked zone = true ∧ heard = false))) ?_ ?_ rfl
    ⟨rfl, .inl ⟨hopen, hheard⟩⟩
  · rintro n s' messages - ⟨hscript, ⟨hunlocked, hrest⟩ | ⟨hlocked, hfalse⟩⟩
    · have hexecute := execute_lockPacket s'.bus.chip zone crc
      rw [if_neg (by simp [hunlocked])] at hexecute
      obtain ⟨hscript', ⟨hchip, hheardOrMissed⟩ | ⟨hchip, hagain, hgoes⟩⟩ :=
        commandExchange_script (lockPacket zone crc) s'.bus
      · rw [hexecute] at hchip hheardOrMissed
        have hlocked : (commandExchange chipBus (lockPacket zone crc) s'.bus).2.chip.locked zone =
            true := by rw [hchip, locked_lock]
        rcases hheardOrMissed with ⟨frame, hframe, hanswer, htrue⟩ | ⟨hagain, hfalse⟩
        · have hjudge := @judgeCommand_data _ success hanswer (by decide) (.inr rfl)
          exact AfterAttempt.of_accept hframe hjudge
            (.inl ⟨rfl, hlocked, by rw [hrest, ← hscript, htrue]⟩)
        · refine AfterAttempt.of_again hagain fun _ => ⟨hscript'.trans hscript, .inr ⟨hlocked, ?_⟩⟩
          rw [hrest, ← hscript, hfalse]
      · refine AfterAttempt.of_again hagain fun _ => ⟨hscript'.trans hscript, .inl ⟨?_, ?_⟩⟩
        · exact (congrArg (Chip.locked · zone) hchip).trans hunlocked
        · rw [hrest, ← hscript, hgoes]
          rfl
    · obtain ⟨refused, hchip, hframes⟩ := commandExchange_chip (lockPacket zone crc) s'.bus
      obtain ⟨refusal, hrefused⟩ := receive_locked hlocked crc refused
      rw [hrefused] at hchip hframes
      have hscript' := (commandExchange_script (lockPacket zone crc) s'.bus).1
      refine AfterAttempt.of_again (fun frame hframe => ?_)
        fun _ => ⟨hscript'.trans hscript, .inr ⟨?_, hfalse⟩⟩
      · exact (hframes frame hframe).resolve_right fun h => h.2 refusal rfl
      · exact (congrArg (Chip.locked · zone) hchip).trans hlocked
  · rintro status s' hstatus - ⟨-, ⟨hunlocked, hrest⟩ | ⟨hlocked, hrest⟩⟩
    · exact .inr ⟨hstatus.ne_ok, by rw [hunlocked, hrest]; simp [heardIfExecuted]⟩
    · exact .inr ⟨hstatus.ne_ok, by simp [hlocked, hrest]⟩

/-! ## The operations -/

/-- A lock operation is one exchange of its packet in a session.
SOURCE: api.c:885-955, operations.c:187-193 -/
theorem lockCall_run (call : LockCall) (env : Env ChipLink) (crc : UInt8 × UInt8) :
    call.run env crc = session env () (statusExchange (send env)
      (some (lockPacket call.zone (crc.2.toUInt16 <<< 8 ||| crc.1.toUInt16))) opLockRecv) := by
  cases call <;>
  · simp only [LockCall.run, atshaLockConfig, atshaLockData, opLock_eq]
    rfl

/-- The status of success is decoded as such. -/
theorem wp_opLockRecv_success (Q : AtshaErr → St ChipLink → Prop) (E : St ChipLink → Prop)
    (s : St ChipLink) : wp (opLockRecv (answerPacket success)) Q E s ↔ Q .ok s := by
  have hstatus : peek (answerPacket success) 1 = some atsha204StatusSucces := rfl
  simp [opLockRecv, justCheckStatus, hstatus]

/-- On a chip whose zone is not locked, a lock operation returns, and tells the truth about
the zone, exactly when the answer to the lock is heard if one is executed at all.
SOURCE: communication.c:111-172, api.c:885-955 -/
theorem lock_report_iff (openssl : OpenSsl) (uninit : Uninit) (call : LockCall)
    (crc : UInt8 × UInt8) (s : St ChipLink) (hlayer : s.handle.bottomLayer = .ni2c)
    (hopen : s.bus.chip.locked call.zone = false) :
    ReportsTruly (chipEnv openssl uninit) call crc s ↔ LockHeard s := by
  have hall : wp (call.run (chipEnv openssl uninit) crc)
      (fun r s' => (r.1 = .ok ↔ s'.bus.chip.locked call.zone = true) ↔ LockHeard s)
      (fun _ => False) s := by
    rw [lockCall_run, wp_session]
    refine wp_mono (wp_wake_script hlayer) ?_ fun _ h => h
    rintro status s₁ ⟨hlayer₁, hchip, hscript, ⟨rfl, hstep⟩ | ⟨hstatus, hstep⟩⟩
    · have hopen₁ : s₁.bus.chip.locked call.zone = false := by rw [hchip]; exact hopen
      have hheard : LockHeard s ↔
          heardIfExecuted s₁.bus.script maxAttempts s₁.bus.clock = true := by
        simp [LockHeard, hstep, hscript]
      rw [hheard, if_pos rfl, wp_statusExchange]
      refine wp_mono (wp_send_lock hlayer₁ hopen₁ _) ?_ fun _ h => h
      rintro reply s₂ (⟨rfl, hlocked, htrue⟩ | ⟨hreply, hiff⟩)
      · rw [if_pos rfl]
        simp only [wp_opLockRecv_success, if_true]
        simp [idled_chip, hlocked, htrue]
      · rw [if_neg hreply, if_neg hreply]
        simp [hreply, hiff]
    · rw [if_neg hstatus, hchip, hopen]
      simp [LockHeard, hstatus, hstep]
  rw [← wp_iff_of_returns hall]
  exact ⟨fun h => h.report, fun h => ⟨h⟩⟩

/-- An empty chip, nothing locked, behind a link with this script. -/
def freshLink (script : ℕ → LinkStep) : ChipLink :=
  ⟨⟨List.Vector.replicate _ 0, List.Vector.replicate _ 0, List.Vector.replicate _ 0, false, false⟩,
    none, script, 0⟩

/-- On a new link nothing is locked. -/
theorem freshLink_open (script : ℕ → LinkStep) (zone : UInt8) :
    (freshLink script).chip.locked zone = false := by
  unfold Chip.locked
  split <;> rfl

/-- A step in which everything goes well. -/
def goodStep : LinkStep := ⟨true, .delivered none, .intact (List.Vector.replicate _ 0)⟩

/-- A new handle on a link with this script. -/
def linkState (script : ℕ → LinkStep) : St ChipLink := ⟨openNi2cDev, freshLink script, []⟩

/-- A handle on it is on the native layer. -/
theorem linkState_layer (script : ℕ → LinkStep) :
    (linkState script).handle.bottomLayer = .ni2c := rfl

/-- There, too, nothing is locked. -/
theorem linkState_open (script : ℕ → LinkStep) (zone : UInt8) :
    (linkState script).bus.chip.locked zone = false := freshLink_open script zone

/-- Over a link without a fault the operation tells the truth. -/
theorem lock_report_good_link :
    ReportsTruly (chipEnv replayEnv.openssl replayEnv.uninit) .config (0, 0)
      (linkState fun _ => goodStep) :=
  (lock_report_iff _ _ .config (0, 0) (linkState fun _ => goodStep)
    (linkState_layer _) (linkState_open _ _)).mpr fun t ht => by
      have hstep : commandStep (linkState fun _ => goodStep) = some 4 := by decide +kernel
      have hheard : heardIfExecuted (fun _ => goodStep) maxAttempts 4 = true := by decide +kernel
      rw [hstep] at ht
      exact Option.some.inj ht ▸ hheard

/-- The link lets everything through but the answer to the first lock. -/
def answerLost (t : ℕ) : LinkStep :=
  if t = 5 then { goodStep with reception := .none } else goodStep

/-- A run that ends with an error and the zone locked is no true report. -/
theorem not_reportsTruly {env : Env ChipLink} {call : LockCall} {crc : UInt8 × UInt8}
    {s s' : St ChipLink} {r : AtshaErr × Unit} (hrun : (call.run env crc).run s = .ok r s')
    (hbad : r.1 ≠ .ok) (hlocked : s'.bus.chip.locked call.zone = true) :
    ¬ ReportsTruly env call crc s :=
  fun h => hbad ((h.report.of_run hrun).mpr hlocked)

/-- The lock is executed, its answer is lost, and the operation reports an error. -/
theorem lock_report_fails : ¬ ∀ (openssl : OpenSsl) (uninit : Uninit) (call : LockCall)
    (crc : UInt8 × UInt8) (s : St ChipLink), s.handle.bottomLayer = .ni2c →
      s.bus.chip.locked call.zone = false → ReportsTruly (chipEnv openssl uninit) call crc s := by
  intro h
  have hrun : (match (LockCall.run (chipEnv replayEnv.openssl replayEnv.uninit) (0, 0)
      .config).run (linkState answerLost) with
      | .ok r s' => decide (r.1 ≠ .ok) && s'.bus.chip.locked lockConfig
      | .error _ _ => false) = true := by decide +kernel
  cases hlock : (LockCall.run (chipEnv replayEnv.openssl replayEnv.uninit) (0, 0)
      .config).run (linkState answerLost) with
  | error e s' => simp [hlock] at hrun
  | ok r s' =>
    simp only [hlock, Bool.and_eq_true, decide_eq_true_eq] at hrun
    exact not_reportsTruly hlock hrun.1 hrun.2
      (h _ _ .config (0, 0) _ (linkState_layer _) (linkState_open _ _))

end Atsha204.Analysis
