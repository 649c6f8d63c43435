import Atsha204.Interface.Link
import Atsha204.Library.Simulation

/-!
# Waking, commanding and idling

On the native I2C layer an attempt of `wake` or `command` is one exchange of the link and
a judgement on its frame, and leaves in the trace the calls it made on the bus
(`wp_wakeAttempt`, `wp_commandAttempt`). The loops therefore simulate the ones over the
link alone, and the two functions succeed exactly when the link confirms or answers
(`wake_ok_iff`, `command_ok_iff`); what they leave in the trace is in `wp_wake_trace` and
`wp_command_trace`. On the emulation layer nothing is repeated.
-/

set_option autoImplicit false

namespace Atsha204.Analysis

open Atsha204.Library
open Atsha204.Model
open Atsha204.Interface

variable {σ : Type} {env : Env σ}

/-! ## What an exchange leaves in the trace -/

/-- The calls on the bus of one attempt to wake. -/
def wakeEvents (bus : I2cBus σ) (b : σ) : List (Event σ) :=
  let opened := bus.openPath b
  if opened.1 then
    let bound := bus.bindGeneralCall opened.2
    if bound.1 then
      [.opened true, .bound true, .wakeToken, .received (bus.read (bus.writeWake bound.2)).1]
    else [.opened true, .bound false]
  else [.opened false]

/-- The calls on the bus of one attempt to send a command. -/
def commandEvents (bus : I2cBus σ) (packet : Block) (b : σ) : List (Event σ) :=
  let written := bus.write (atsha204I2cWaCommand :: packet) b
  .written (atsha204I2cWaCommand :: packet) written.1 b ::
    if written.1 then [.received (bus.read written.2).1] else []

/-! ## The calls of the layer -/

/-- What a call of the layer returns for the frame its exchange brought. -/
def AfterExchange (frame : Option Frame) (answer : Option Block)
    (Q : AtshaErr × Option Block → St σ → Prop) (E : St σ → Prop) (s : St σ) : Prop :=
  match frame with
  | none => Q (.communication, answer) s
  | some frame => match frameAnswer frame with
    | none => E s
    | some received => Q (.ok, some received) s

/-- `ni2c_read` returns the answer in the frame, and leaves the frame where there is none.
SOURCE: layer_ni2c.c:45-58 -/
theorem wp_ni2cRead {answer : Option Block} {Q : AtshaErr × Option Block → St σ → Prop}
    {E : St σ → Prop} {s : St σ}
    (h : ∀ messages, AfterExchange (env.bus.read s.bus).1 answer Q E
      (s.after (env.bus.read s.bus).2 [.received (env.bus.read s.bus).1] messages)) :
    wp (ni2cRead env answer) Q E s := by
  simp only [ni2cRead, wp_bind, wp_sysRead]
  simp only [AfterExchange] at h
  cases hread : (env.bus.read s.bus).1 with
  | none =>
    rw [hread] at h
    simpa [St.after, St.exchanged] using h ["layer_ni2c: ni2c_read: Read packet failed"]
  | some frame =>
    have h := h []
    simp only [hread, frameAnswer] at h
    simp only [wp_bind, wp_access]
    cases hcount : peek frame.val 0 with
    | none => simpa [hcount, St.after, St.exchanged] using h
    | some count =>
      simp only [hcount, Option.bind_eq_bind, Option.bind_some] at h ⊢
      cases hcopy : copyOut frame.val count.toNat <;>
        simpa [hcopy, St.after, St.exchanged] using h

/-- `ni2c_wake` is one wake exchange.
SOURCE: layer_ni2c.c:60-87 -/
theorem wp_ni2cWake {answer : Option Block} {Q : AtshaErr × Option Block → St σ → Prop}
    {E : St σ → Prop} {s : St σ}
    (h : ∀ messages, AfterExchange (wakeExchange env.bus s.bus).1 answer Q E
      (s.after (wakeExchange env.bus s.bus).2 (wakeEvents env.bus s.bus) messages)) :
    wp (ni2cWake env answer) Q E s := by
  simp only [ni2cWake, wp_bind, wp_sysOpen]
  simp only [wakeExchange, wakeEvents] at h
  cases hopen : (env.bus.openPath s.bus).1 with
  | false =>
    simp only [hopen] at h
    simpa [AfterExchange, St.after, St.exchanged] using
      h ["layer_ni2c: ni2c_wake: Couldn't open bus."]
  | true =>
    simp only [hopen, if_true, Bool.not_true, Bool.false_eq_true, if_false, wp_bind,
      wp_sysBindGeneralCall, St.exchanged_bus] at h ⊢
    obtain hbind | hbind :=
      Bool.eq_false_or_eq_true (env.bus.bindGeneralCall (env.bus.openPath s.bus).2).1
    · simp only [hbind, if_true, Bool.not_true, Bool.false_eq_true, if_false, wp_bind,
        wp_sysWriteWake, St.exchanged_bus] at h ⊢
      refine wp_ni2cRead fun messages => ?_
      simpa [St.after, St.exchanged] using h messages
    · simp only [hbind] at h ⊢
      simpa [AfterExchange, St.after, St.exchanged] using
        h ["layer_ni2c: ni2c_wake: Couldn't bind address."]

/-- A packet that begins with its length is sent as it is. -/
theorem sentBytes_of_framed {packet : Block} (h : Framed packet) :
    sentBytes packet = some packet := by
  obtain ⟨count, rest, rfl, hcount⟩ := h
  change copyOut (count :: rest) count.toNat = _
  rw [copyOut_of_le hcount.le, hcount, List.take_length]

/-- `ni2c_command` is one command exchange.
SOURCE: layer_ni2c.c:97-123 -/
theorem wp_ni2cCommand {packet bytes : Block} (hpacket : sentBytes packet = some bytes)
    {answer : Option Block} {Q : AtshaErr × Option Block → St σ → Prop} {E : St σ → Prop}
    {s : St σ}
    (h : ∀ messages, AfterExchange (commandExchange env.bus bytes s.bus).1 answer Q E
      (s.after (commandExchange env.bus bytes s.bus).2 (commandEvents env.bus bytes s.bus)
        messages)) :
    wp (ni2cCommand env packet answer) Q E s := by
  obtain ⟨count, hfirst, hcopy⟩ := Option.bind_eq_some_iff.mp hpacket
  simp only [ni2cCommand, wp_bind, wp_access, hfirst, hcopy, wp_sysWrite]
  simp only [commandExchange, commandEvents] at h
  cases hwrite : (env.bus.write (atsha204I2cWaCommand :: bytes) s.bus).1 with
  | false =>
    simp only [hwrite] at h
    simpa [AfterExchange, St.after, St.exchanged] using
      h ["layer_ni2c: ni2c_command: Send command packet"]
  | true =>
    simp only [hwrite, if_true, Bool.not_true, Bool.false_eq_true, if_false] at h ⊢
    refine wp_ni2cRead fun messages => ?_
    simpa [St.after, St.exchanged] using h messages

/-! ## One attempt -/

/-- The decision of an attempt over the link, as the loops of `wake` and `command` carry it. -/
def liftVerdict : Verdict AtshaErr Block → Verdict Reply Reply
  | .accept answer => .accept (.ok, some answer)
  | .again status => .again (status, none)
  | .abort status => .abort (status, none)

/-- What an attempt decides on the frame its exchange brought. -/
def AfterAttempt (judge : Frame → Option (Verdict AtshaErr Block)) (frame : Option Frame)
    (Q : Verdict Reply Reply → St σ → Prop) (E : St σ → Prop) (s : St σ) : Prop :=
  match frame with
  | none => Q (.again (.communication, none)) s
  | some frame => match judge frame with
    | none => E s
    | some verdict => Q (liftVerdict verdict) s

/-- From states with this handle, an attempt is an exchange, its events in the trace, and a
judgement. -/
def AttemptSpec (handle : AtshaHandle) (attempt : Reply → Prog σ (Verdict Reply Reply))
    (exchange : σ → Option Frame × σ) (judge : Frame → Option (Verdict AtshaErr Block))
    (events : σ → List (Event σ)) : Prop :=
  ∀ (s : St σ), s.handle = handle → ∀ status Q E,
    (∀ messages, AfterAttempt judge (exchange s.bus).1 Q E
      (s.after (exchange s.bus).2 (events s.bus) messages)) →
    wp (attempt (status, none)) Q E s

/-- A line of the log behind some exchanges is one more line. -/
theorem St.after_message (s : St σ) (bus : σ) (events : List (Event σ))
    (messages : List String) (text : String) :
    (s.after bus events messages).exchanged (s.after bus events messages).bus
      (.message text) = s.after bus events (messages ++ [text]) := by
  simp [St.after, St.exchanged]

/-- One attempt to wake, on the I2C layer: the exchange, its calls in the trace, and the
judgement.
SOURCE: communication.c:48-79 -/
theorem wakeAttempt_spec {handle : AtshaHandle} (hlayer : handle.bottomLayer = .ni2c) :
    AttemptSpec handle (wakeAttempt env) (wakeExchange env.bus) judgeWake
      (wakeEvents env.bus) := by
  rintro s rfl status Q E h
  simp only [wakeAttempt, wp_bind, wp_getHandle, hlayer]
  refine wp_ni2cWake fun messages => ?_
  have hlog := h (messages ++ ["communication: wake: CRC doesn't match."])
  have h := h messages
  rw [← St.after_message] at hlog
  generalize s.after _ _ messages = s' at h hlog ⊢
  cases hframe : (wakeExchange env.bus s.bus).1 with
  | none => simpa [AfterAttempt, AfterExchange, hframe] using h
  | some frame =>
    simp only [AfterAttempt, AfterExchange, hframe, judgeWake] at h hlog ⊢
    cases hanswer : frameAnswer frame with
    | none => simpa [hanswer] using h
    | some answer =>
      simp only [hanswer, Option.bind_eq_bind, Option.bind_some, if_true, wp_bind,
        wp_access] at h hlog ⊢
      cases hcheck : checkPacket answer with
      | none => simpa [hcheck] using h
      | some passed =>
        cases passed with
        | false => simpa [hcheck, liftVerdict] using hlog
        | true =>
          simp only [hcheck, Option.bind_some, Bool.not_true, Bool.false_eq_true, if_false,
            wp_bind, wp_access] at h ⊢
          cases hstatus : peek answer 1 with
          | none => simpa [hstatus] using h
          | some byte =>
            by_cases hok : byte = atsha204StatusWakeOk <;>
              simpa [hstatus, hok, liftVerdict] using h

/-- One attempt to send a command, on the I2C layer.
SOURCE: communication.c:115-168 -/
theorem commandAttempt_spec {handle : AtshaHandle} (hlayer : handle.bottomLayer = .ni2c)
    {rawSlotRead : SlotRead σ} {packet bytes : Block} (hpacket : sentBytes packet = some bytes) :
    AttemptSpec handle (commandAttempt env rawSlotRead packet)
      (commandExchange env.bus bytes) judgeCommand (commandEvents env.bus bytes) := by
  rintro s rfl status Q E h
  simp only [commandAttempt, wp_bind, wp_getHandle, hlayer]
  refine wp_ni2cCommand hpacket fun messages => ?_
  have hlog := fun text => h (messages ++ [text])
  have h := h messages
  simp only [← St.after_message] at hlog
  generalize s.after _ _ messages = s' at h hlog ⊢
  cases hframe : (commandExchange env.bus bytes s.bus).1 with
  | none => simpa [AfterAttempt, AfterExchange, hframe] using h
  | some frame =>
    simp only [AfterAttempt, AfterExchange, hframe, judgeCommand] at h hlog ⊢
    cases hanswer : frameAnswer frame with
    | none => simpa [hanswer] using h
    | some answer =>
      simp only [hanswer, Option.bind_eq_bind, Option.bind_some, if_true, wp_bind,
        wp_access] at h hlog ⊢
      cases hcheck : checkPacket answer with
      | none => simpa [hcheck] using h
      | some passed =>
        cases passed with
        | false => simpa [hcheck, liftVerdict] using hlog _
        | true =>
          simp only [hcheck, Option.bind_some, Bool.not_true, Bool.false_eq_true, if_false,
            wp_bind, wp_access] at h hlog ⊢
          cases hcount : peek answer 0 with
          | none => simpa [hcount] using h
          | some count =>
            by_cases hfour : count = 4
            · simp only [hcount, hfour, Option.bind_some, if_true, wp_bind, wp_access] at h hlog ⊢
              cases hstatus : peek answer 1 with
              | none => simpa [hstatus] using h
              | some byte =>
                simp only [hstatus, Option.bind_some] at h hlog ⊢
                cases htext : refusedStatus byte with
                | none => simpa [htext, liftVerdict] using h
                | some text =>
                  simp only [htext, Option.isSome_some, if_true] at hlog ⊢
                  by_cases hwake : byte = atsha204StatusWakeOk <;>
                    simpa [hwake, liftVerdict] using hlog text
            · simpa [hcount, hfour, liftVerdict] using h

/-! ## The loops -/

/-- The handle stays as it is, and the bus is the one of the link. -/
def OnLink (handle : AtshaHandle) (s : St σ) (b : σ) : Prop := s.handle = handle ∧ s.bus = b

/-- A status and an answer, as a loop over the link carries them. -/
def LoopRel (reply : Reply) (status : AtshaErr) : Prop := reply = (status, none)

/-- An answer that was accepted. -/
def AnswerRel (reply : Reply) (answer : Block) : Prop := reply = (.ok, some answer)

/-- An attempt over the link that decides as the library does. -/
theorem linkAttempt_run (exchange : σ → Option Frame × σ)
    (judge : Frame → Option (Verdict AtshaErr Block)) (status : AtshaErr) (b : σ) :
    (linkAttempt exchange judge status).run b = match (exchange b).1 with
      | none => .ok (.again .communication) (exchange b).2
      | some frame => match judge frame with
        | none => .error .outOfBounds (exchange b).2
        | some verdict => .ok verdict (exchange b).2 := by
  simp only [linkAttempt, EStateM.run_bind, EStateM.run_get, EStateM.run_set]
  cases (exchange b).1 with
  | none => rfl
  | some frame =>
    dsimp only
    cases judge frame <;> rfl

/-- An attempt that is an exchange and a judgement simulates the one over the link. -/
theorem attempt_simulates {exchange : σ → Option Frame × σ}
    {judge : Frame → Option (Verdict AtshaErr Block)} {handle : AtshaHandle}
    {attempt : Reply → Prog σ (Verdict Reply Reply)} {events : σ → List (Event σ)}
    (h : AttemptSpec handle attempt exchange judge events) (reply : Reply) (status : AtshaErr)
    (hreply : LoopRel reply status) :
    Simulates (OnLink handle) (VerdictRel LoopRel AnswerRel) (attempt reply)
      (linkAttempt exchange judge status) := by
  rintro s b ⟨hhandle, rfl⟩
  obtain rfl : reply = (status, none) := hreply
  rw [linkAttempt_run]
  cases hframe : (exchange s.bus).1 with
  | none =>
    refine h s hhandle status _ _ fun messages => ?_
    rw [hframe]
    exact ⟨.again rfl, hhandle, rfl⟩
  | some frame =>
    dsimp only
    cases hjudge : judge frame with
    | none =>
      refine h s hhandle status _ _ fun messages => ?_
      simp only [hframe, AfterAttempt, hjudge]
      exact ⟨hhandle, rfl⟩
    | some verdict =>
      refine h s hhandle status _ _ fun messages => ?_
      simp only [hframe, AfterAttempt, hjudge]
      refine ⟨?_, hhandle, rfl⟩
      cases verdict with
      | accept answer => exact .accept rfl
      | again status => exact .again rfl
      | abort status => exact .abort rfl

/-- The loop of `wake` simulates the wake exchanges of the link. -/
theorem wakeRetry_simulates {handle : AtshaHandle} (hlayer : handle.bottomLayer = .ni2c) :
    Simulates (OnLink handle) (ExceptRel LoopRel AnswerRel)
      (retry (wakeAttempt env) maxAttempts (.ok, none))
      (linkRetry (wakeExchange env.bus) judgeWake) :=
  Simulates.retry (attempt_simulates (wakeAttempt_spec hlayer)) maxAttempts _ _ rfl

/-- The loop of `command` simulates the command exchanges of the link. -/
theorem commandRetry_simulates {handle : AtshaHandle} (hlayer : handle.bottomLayer = .ni2c)
    {rawSlotRead : SlotRead σ} {packet bytes : Block} (hpacket : sentBytes packet = some bytes) :
    Simulates (OnLink handle) (ExceptRel LoopRel AnswerRel)
      (retry (commandAttempt env rawSlotRead packet) maxAttempts (.ok, none))
      (linkRetry (commandExchange env.bus bytes) judgeCommand) :=
  Simulates.retry (attempt_simulates (commandAttempt_spec hlayer hpacket)) maxAttempts _ _ rfl

/-! ## What is accepted -/

/-- An attempt to wake leaves the frame, tries again with a communication error, or
accepts a packet that passes the check and carries the wake status.
SOURCE: communication.c:58-75 -/
theorem judgeWake_cases (frame : Frame) :
    judgeWake frame = none ∨ judgeWake frame = some (.again .communication) ∨
      ∃ answer, judgeWake frame = some (.accept answer) ∧ frameAnswer frame = some answer ∧
        checkPacket answer = some true ∧ peek answer 1 = some atsha204StatusWakeOk := by
  simp only [judgeWake, Option.bind_eq_bind]
  cases hanswer : frameAnswer frame with
  | none => exact .inl rfl
  | some answer =>
    rw [Option.bind_some]
    rcases hcheck : checkPacket answer with _ | (_ | _)
    · exact .inl rfl
    · exact .inr (.inl rfl)
    · cases hstatus : peek answer 1 with
      | none => exact .inl rfl
      | some byte =>
        by_cases hok : byte = atsha204StatusWakeOk
        · subst hok
          exact .inr (.inr ⟨answer, by simp, rfl, hcheck, hstatus⟩)
        · exact .inr (.inl (by simp [hok]))

/-- A confirmed wake is accepted. -/
theorem judgeWake_of_confirmed {frame : Frame} {answer : Block}
    (hanswer : frameAnswer frame = some answer) (hcheck : checkPacket answer = some true)
    (hstatus : peek answer 1 = some atsha204StatusWakeOk) :
    judgeWake frame = some (.accept answer) := by
  simp [judgeWake, hanswer, hcheck, hstatus]

/-- A packet that passes the check and is no refusal is accepted. -/
theorem judgeCommand_of_answered {frame : Frame} {answer : Block} {count : UInt8}
    (hanswer : frameAnswer frame = some answer) (hcheck : checkPacket answer = some true)
    (hcount : peek answer 0 = some count)
    (hstatus : count = 4 → ∃ status, peek answer 1 = some status ∧ refusedStatus status = none) :
    judgeCommand frame = some (.accept answer) := by
  by_cases hfour : count = 4
  · obtain ⟨status, hpeek, hnone⟩ := hstatus hfour
    simp [judgeCommand, hanswer, hcheck, hcount, hfour, hpeek, hnone]
  · simp [judgeCommand, hanswer, hcheck, hcount, hfour]

/-- The statuses with which a loop over the link gives up. -/
def LinkError (status : AtshaErr) : Prop :=
  status = .communication ∨ status = .badCommunicationStatus

/-- An error of the link is no success. -/
theorem LinkError.ne_ok {status : AtshaErr} (h : LinkError status) : status ≠ .ok := by
  rcases h with rfl | rfl <;> decide

/-- An attempt to send a command leaves the frame, gives the attempt up with an error, or
accepts a packet that passes the check and is no refusal.
SOURCE: communication.c:127-165 -/
theorem judgeCommand_cases (frame : Frame) :
    judgeCommand frame = none ∨
      (∃ status, LinkError status ∧ (judgeCommand frame = some (.again status) ∨
        judgeCommand frame = some (.abort status))) ∨
      ∃ answer, judgeCommand frame = some (.accept answer) ∧ frameAnswer frame = some answer ∧
        checkPacket answer = some true ∧ (peek answer 0 = some 4 →
          ∃ status, peek answer 1 = some status ∧ refusedStatus status = none) := by
  simp only [judgeCommand, Option.bind_eq_bind]
  cases hanswer : frameAnswer frame with
  | none => exact .inl rfl
  | some answer =>
    rw [Option.bind_some]
    rcases hcheck : checkPacket answer with _ | (_ | _)
    · exact .inl rfl
    · exact .inr (.inl ⟨.communication, .inl rfl, .inl rfl⟩)
    · cases hcount : peek answer 0 with
      | none => exact .inl rfl
      | some count =>
        by_cases hfour : count = 4
        · subst hfour
          cases hstatus : peek answer 1 with
          | none => exact .inl rfl
          | some byte =>
            cases htext : refusedStatus byte with
            | none =>
              exact .inr (.inr ⟨answer, by simp [htext], rfl, hcheck, fun _ => ⟨byte, hstatus, htext⟩⟩)
            | some text =>
              refine .inr (.inl ⟨.badCommunicationStatus, .inr rfl, ?_⟩)
              by_cases hwake : byte = atsha204StatusWakeOk
              · subst hwake
                exact .inr (by simp [htext])
              · exact .inl (by simp [htext, hwake])
        · refine .inr (.inr ⟨answer, by simp [hfour], rfl, hcheck, fun h => ?_⟩)
          exact absurd (Option.some.inj (hcount.symm.trans h)) hfour

/-- No attempt is given up with a good status. -/
def GivesUpBadly (judge : Frame → Option (Verdict AtshaErr Block)) : Prop :=
  ∀ frame status, judge frame = some (.again status) ∨ judge frame = some (.abort status) →
    LinkError status

/-- A wake that is not confirmed is given up with an error. -/
theorem judgeWake_givesUpBadly : GivesUpBadly judgeWake := by
  intro frame status h
  rcases judgeWake_cases frame with hj | hj | ⟨_, hj, -⟩ <;> rw [hj] at h
  · simp at h
  · simp only [Option.some.injEq, Verdict.again.injEq, reduceCtorEq, or_false] at h
    exact .inl h.symm
  · simp at h

/-- So is a command that is not answered. -/
theorem judgeCommand_givesUpBadly : GivesUpBadly judgeCommand := by
  intro frame status h
  rcases judgeCommand_cases frame with hj | ⟨st, hst, hj | hj⟩ | ⟨_, hj, -⟩ <;> rw [hj] at h
  · simp at h
  · simp only [Option.some.injEq, Verdict.again.injEq, reduceCtorEq, or_false] at h
    exact h ▸ hst
  · simp only [Option.some.injEq, Verdict.abort.injEq, reduceCtorEq, false_or] at h
    exact h ▸ hst
  · simp at h

/-- The rule for a loop of such attempts: every exchange leads into the postcondition or
re-establishes the invariant; the handle stays as it is, and a loop that accepts nothing
ends with a status of the link. -/
theorem wp_retry_link {exchange : σ → Option Frame × σ}
    {judge : Frame → Option (Verdict AtshaErr Block)} (hjudge : GivesUpBadly judge)
    {handle : AtshaHandle} {attempt : Reply → Prog σ (Verdict Reply Reply)}
    {events : σ → List (Event σ)} (h : AttemptSpec handle attempt exchange judge events)
    {Q : Except Reply Reply → St σ → Prop} {E : St σ → Prop} (I : ℕ → St σ → Prop)
    (hstep : ∀ n s messages, s.handle = handle → I (n + 1) s →
      AfterAttempt judge (exchange s.bus).1 (fun v s' => match v with
          | .accept reply => Q (.ok reply) s'
          | .again _ => I n s'
          | .abort reply => Q (.error reply) s') E
        (s.after (exchange s.bus).2 (events s.bus) messages))
    (hexit : ∀ status s, LinkError status → s.handle = handle → I 0 s →
      Q (.error (status, none)) s) {s : St σ} (hhandle : s.handle = handle)
    (hI : I maxAttempts s) : wp (retry attempt maxAttempts (.ok, none)) Q E s := by
  refine wp_retry (fun n (reply : Reply) (s : St σ) => reply.2 = none ∧ s.handle = handle ∧
    (n = maxAttempts ∨ LinkError reply.1) ∧ I n s) ?_ ?_ maxAttempts (.ok, none) s
    ⟨rfl, hhandle, .inl rfl, hI⟩
  · rintro n ⟨status, _⟩ s ⟨rfl, hs, -, hI⟩
    refine h s hs status _ _ fun messages => ?_
    have hafter := hstep n s messages hs hI
    unfold AfterAttempt at hafter ⊢
    revert hafter
    cases (exchange s.bus).1 with
    | none => exact fun hafter => ⟨rfl, hs, .inr (.inl rfl), hafter⟩
    | some frame =>
      dsimp only
      cases hframe : judge frame with
      | none => exact id
      | some verdict =>
        cases verdict with
        | accept answer => exact id
        | again status =>
          exact fun hafter => ⟨rfl, hs, .inr (hjudge frame status (.inl hframe)), hafter⟩
        | abort status => exact id
  · rintro ⟨status, _⟩ s ⟨rfl, hs, hmax | hstatus, hI⟩
    · cases hmax
    · exact hexit status s hstatus hs hI

/-- A loop over the link that accepts nothing ends with a bad status. -/
theorem linkRetry_error {exchange : σ → Option Frame × σ}
    {judge : Frame → Option (Verdict AtshaErr Block)} (hjudge : GivesUpBadly judge) {b b' : σ}
    {status : AtshaErr} (h : (linkRetry exchange judge).run b = .ok (.error status) b') :
    LinkError status := by
  have hall : wp (linkRetry exchange judge)
      (fun r _ => ∀ status, r = .error status → LinkError status) (fun _ => True) b := by
    refine wp_retry (fun n status _ => n < maxAttempts → LinkError status) ?_ ?_ _ _ _ (by simp)
    · intro n status b _
      unfold wp
      rw [linkAttempt_run]
      cases (exchange b).1 with
      | none => exact fun _ => .inl rfl
      | some frame =>
        dsimp only
        cases hframe : judge frame with
        | none => trivial
        | some verdict =>
          cases verdict with
          | accept answer => exact fun _ h => by cases h
          | again st => exact fun _ => hjudge frame st (.inl hframe)
          | abort st => exact fun _ h => Except.error.inj h ▸ hjudge frame st (.inr hframe)
    · rintro status b hI _ ⟨⟩
      exact hI (by decide)
  exact hall.of_run h status rfl

/-! ## Waking and commanding -/

/-- What a loop ended with. -/
def loopReply : Except Reply Reply → Reply
  | .ok reply => reply
  | .error reply => reply

/-- `wake` where the device is not expected to be awake: the loop, and the flag. -/
theorem wake_run {s : St σ} (hflag : s.handle.wakeIsExpected = false) :
    (wake env).run s = match (retry (wakeAttempt env) maxAttempts (.ok, none)).run s with
      | .ok r s' =>
        .ok (loopReply r).1 { s' with handle := { s'.handle with wakeIsExpected := true } }
      | .error e s' => .error e s' := by
  simp only [wake, getHandle, EStateM.run_bind, EStateM.run_get, EStateM.run_pure, hflag,
    Bool.false_eq_true, if_false]
  cases (retry (wakeAttempt env) maxAttempts (.ok, none)).run s with
  | error e s' => rfl
  | ok r s' => rcases r with ⟨_, _⟩ | ⟨_, _⟩ <;> rfl

/-- `command`: the loop, and its reply. -/
theorem command_run {rawSlotRead : SlotRead σ} {packet : Block} {s : St σ} :
    (command env rawSlotRead packet none).run s =
      match (retry (commandAttempt env rawSlotRead packet) maxAttempts (.ok, none)).run s with
      | .ok r s' => .ok (loopReply r) s'
      | .error e s' => .error e s' := by
  simp only [command, EStateM.run_bind]
  cases (retry (commandAttempt env rawSlotRead packet) maxAttempts (.ok, none)).run s with
  | error e s' => rfl
  | ok r s' => cases r <;> rfl

/-- A wake of a device that is not expected to be awake is the loop over its attempts. -/
theorem wp_wake {s : St σ} (hflag : s.handle.wakeIsExpected = false)
    (Q : AtshaErr → St σ → Prop) (E : St σ → Prop) :
    wp (wake env) Q E s ↔ wp (retry (wakeAttempt env) maxAttempts (.ok, none))
      (fun r s' => Q (loopReply r).1
        { s' with handle := { s'.handle with wakeIsExpected := true } }) E s := by
  unfold wp
  rw [wake_run hflag]
  cases (retry (wakeAttempt env) maxAttempts (.ok, none)).run s <;> rfl

/-- A command is the loop over its attempts. -/
theorem wp_command (rawSlotRead : SlotRead σ) (packet : Block) (Q : Reply → St σ → Prop)
    (E : St σ → Prop) (s : St σ) :
    wp (command env rawSlotRead packet none) Q E s ↔
      wp (retry (commandAttempt env rawSlotRead packet) maxAttempts (.ok, none))
        (fun r s' => Q (loopReply r) s') E s := by
  unfold wp
  rw [command_run]
  cases (retry (commandAttempt env rawSlotRead packet) maxAttempts (.ok, none)).run s <;> rfl

/-- A simulated loop ends well exactly when the one over the link accepts. -/
theorem retry_accepts_iff {exchange : σ → Option Frame × σ}
    {judge : Frame → Option (Verdict AtshaErr Block)} (hjudge : GivesUpBadly judge)
    {attempt : Reply → Prog σ (Verdict Reply Reply)} {s : St σ}
    (hsim : Simulates (OnLink s.handle) (ExceptRel LoopRel AnswerRel)
      (retry attempt maxAttempts (.ok, none)) (linkRetry exchange judge))
    (P : Except Reply Reply → AtshaHandle → σ → Prop) :
    (∃ r s', (retry attempt maxAttempts (.ok, none)).run s = .ok r s' ∧
        (loopReply r).1 = .ok ∧ P r s'.handle s'.bus) ↔
      ∃ answer b', Accepts (linkAttempt exchange judge) maxAttempts .ok s.bus answer b' ∧
        P (.ok (.ok, some answer)) s.handle b' := by
  rw [hsim.returns_iff (Q := fun r b' => ∃ answer, r = .ok answer ∧
    P (.ok (.ok, some answer)) s.handle b') ⟨rfl, rfl⟩ ?_]
  · constructor
    · rintro ⟨_, b', hrun, answer, rfl, hP⟩
      exact ⟨answer, b', (run_retry_eq_ok_iff _ _ _ _ _ _).mp hrun, hP⟩
    · rintro ⟨answer, b', haccepts, hP⟩
      exact ⟨_, b', (run_retry_eq_ok_iff _ _ _ _ _ _).mpr haccepts, answer, rfl, hP⟩
  · rintro _ s' _ b' hrun (hA | hB) ⟨hhandle, rfl⟩
    · obtain rfl := hA
      simp [loopReply, hhandle]
    · obtain rfl := hB
      simp [loopReply, (linkRetry_error hjudge hrun).ne_ok]

/-- `wake` on a device that is not expected to be awake succeeds exactly when the link
confirms a wake, and then expects the device to be awake.
SOURCE: communication.c:41-85 -/
theorem wake_ok_iff {s : St σ} (hlayer : s.handle.bottomLayer = .ni2c)
    (hflag : s.handle.wakeIsExpected = false) (P : AtshaHandle → σ → Prop) :
    (∃ s', (wake env).run s = .ok .ok s' ∧ P s'.handle s'.bus) ↔
      ∃ b', Confirms env.bus s.bus b' ∧ P { s.handle with wakeIsExpected := true } b' := by
  have hloop := retry_accepts_iff judgeWake_givesUpBadly (s := s)
    (@wakeRetry_simulates σ env _ hlayer)
    (fun _ handle b' => P { handle with wakeIsExpected := true } b')
  rw [wake_run hflag]
  constructor
  · rintro ⟨s', hrun, hP⟩
    cases hretry : (retry (wakeAttempt env) maxAttempts (.ok, none)).run s with
    | error e s₁ => simp [hretry] at hrun
    | ok r s₁ =>
      rw [hretry] at hrun
      obtain ⟨hstatus, rfl⟩ := EStateM.Result.ok.inj hrun
      obtain ⟨answer, b', haccepts, hP'⟩ := hloop.mp ⟨r, s₁, hretry, hstatus, hP⟩
      exact ⟨b', ⟨answer, haccepts⟩, hP'⟩
  · rintro ⟨b', ⟨answer, haccepts⟩, hP⟩
    obtain ⟨r, s₁, hretry, hstatus, hP'⟩ := hloop.mpr ⟨answer, b', haccepts, hP⟩
    exact ⟨_, by rw [hretry, ← hstatus], hP'⟩

/-- A loop of attempts ends well or with one of the statuses of the link. -/
theorem retry_status {exchange : σ → Option Frame × σ}
    {judge : Frame → Option (Verdict AtshaErr Block)} (hjudge : GivesUpBadly judge)
    {attempt : Reply → Prog σ (Verdict Reply Reply)} {s s' : St σ}
    (hsim : Simulates (OnLink s.handle) (ExceptRel LoopRel AnswerRel)
      (retry attempt maxAttempts (.ok, none)) (linkRetry exchange judge))
    {r : Except Reply Reply} (hrun : (retry attempt maxAttempts (.ok, none)).run s = .ok r s') :
    (loopReply r).1 = .ok ∨ LinkError (loopReply r).1 := by
  have hiff := hsim.returns_iff (s := s) (t := s.bus) ⟨rfl, rfl⟩
    (P := fun r _ => ¬ ((loopReply r).1 = .ok ∨ LinkError (loopReply r).1))
    (Q := fun _ _ => False) ?_
  · by_contra hbad
    obtain ⟨_, _, _, hF⟩ := hiff.mp ⟨r, s', hrun, hbad⟩
    exact hF
  · rintro _ s' _ b' hlink (hA | hB) -
    · obtain rfl := hA
      simp [loopReply]
    · obtain rfl := hB
      simp [loopReply, linkRetry_error hjudge hlink]

/-- `wake` returns a good status or one of the link. -/
theorem wake_status {s s' : St σ} {status : AtshaErr} (hlayer : s.handle.bottomLayer = .ni2c)
    (hrun : (wake env).run s = .ok status s') : status = .ok ∨ LinkError status := by
  by_cases hflag : s.handle.wakeIsExpected = true
  · have hreturn : wp (wake env) (fun status _ => status = .ok) (fun _ => False) s := by
      simp only [wake, wp_bind, wp_getHandle, hflag, if_true, wp_pure]
    exact .inl (hreturn.of_run hrun)
  · rw [wake_run (by simpa using hflag)] at hrun
    cases hretry : (retry (wakeAttempt env) maxAttempts (.ok, none)).run s with
    | error e s₁ => simp [hretry] at hrun
    | ok r s₁ =>
      rw [hretry] at hrun
      have hstatus := (EStateM.Result.ok.inj hrun).1
      rw [← hstatus]
      exact retry_status judgeWake_givesUpBadly (wakeRetry_simulates hlayer) hretry

/-- `command` on the I2C layer succeeds exactly when the link answers, and returns the
answer.
SOURCE: communication.c:111-172 -/
theorem command_ok_iff {s : St σ} (hlayer : s.handle.bottomLayer = .ni2c)
    {rawSlotRead : SlotRead σ} {packet : Block} (hpacket : Framed packet)
    (P : Option Block → AtshaHandle → σ → Prop) :
    (∃ reply s', (command env rawSlotRead packet none).run s = .ok (.ok, reply) s' ∧
        P reply s'.handle s'.bus) ↔
      ∃ answer b', Answers env.bus packet s.bus answer b' ∧ P (some answer) s.handle b' := by
  have hloop := retry_accepts_iff judgeCommand_givesUpBadly (s := s)
    (@commandRetry_simulates σ env _ hlayer rawSlotRead _ _ (sentBytes_of_framed hpacket))
    (fun r handle b' => P (loopReply r).2 handle b')
  rw [command_run]
  constructor
  · rintro ⟨reply, s', hrun, hP⟩
    cases hretry : (retry (commandAttempt env rawSlotRead packet) maxAttempts
        (.ok, none)).run s with
    | error e s₁ => simp [hretry] at hrun
    | ok r s₁ =>
      rw [hretry] at hrun
      obtain ⟨hreply, rfl⟩ := EStateM.Result.ok.inj hrun
      exact hloop.mp ⟨r, s₁, hretry, by rw [hreply], by rw [hreply]; exact hP⟩
  · rintro ⟨answer, b', haccepts, hP⟩
    obtain ⟨r, s₁, hretry, hstatus, hP'⟩ := hloop.mpr ⟨answer, b', haccepts, hP⟩
    refine ⟨(loopReply r).2, s₁, ?_, hP'⟩
    rw [hretry, ← hstatus]

/-- A bus that brings the answer of a woken device first confirms a wake. -/
theorem confirms_wakeOkFrame (frames : List (Option Frame)) :
    Confirms replayBus (some wakeOkFrame :: frames) frames := by
  refine ⟨answerPacket [atsha204StatusWakeOk], .here ?_⟩
  have hjudge : judgeWake wakeOkFrame = some (.accept (answerPacket [atsha204StatusWakeOk])) :=
    judgeWake_of_confirmed (by decide +kernel) (by decide +kernel) (by decide +kernel)
  rw [linkAttempt_run, show wakeExchange replayBus (some wakeOkFrame :: frames) =
    (some wakeOkFrame, frames) from rfl]
  simp only [hjudge]

/-- A bus that brings a frame with a good answer first gives that answer. -/
theorem answers_of_judgeCommand {frame : Frame} {answer : Block}
    (h : judgeCommand frame = some (.accept answer)) (packet : Block)
    (frames : List (Option Frame)) : Answers replayBus packet (some frame :: frames) answer frames := by
  refine .here ?_
  rw [linkAttempt_run, show commandExchange replayBus packet (some frame :: frames) =
    (some frame, frames) from rfl]
  simp only [h]

/-! ## Traces -/

/-- What a wake leaves in the trace: calls on the bus other than writes, and messages. -/
def OfWake : Event σ → Prop
  | .opened _ | .bound _ | .wakeToken | .received _ | .message _ => True
  | _ => False

/-- What a command leaves in the trace: writes of its packet, reads, and messages. -/
def OfCommand (packet : Block) : Event σ → Prop
  | .written bytes _ _ => bytes = atsha204I2cWaCommand :: packet
  | .received _ | .message _ => True
  | _ => False

/-- The trace goes on with events of a wake. -/
def WakeTrace (s s' : St σ) : Prop :=
  ∃ events, s'.trace = s.trace ++ events ∧ ∀ e ∈ events, OfWake e

/-- The trace goes on with events of a command, a write of its packet among them. -/
def CommandTrace (packet : Block) (s s' : St σ) : Prop :=
  ∃ events, s'.trace = s.trace ++ events ∧ (∀ e ∈ events, OfCommand packet e) ∧
    ∃ ok b, .written (atsha204I2cWaCommand :: packet) ok b ∈ events

/-- What an attempt to wake leaves behind belongs to a wake. -/
theorem ofWake_wakeEvents (bus : I2cBus σ) (b : σ) : ∀ e ∈ wakeEvents bus b, OfWake e := by
  intro e he
  simp only [wakeEvents] at he
  split at he
  · split at he <;> simp only [List.mem_cons, List.not_mem_nil, or_false] at he
    · rcases he with rfl | rfl | rfl | rfl <;> trivial
    · rcases he with rfl | rfl <;> trivial
  · rw [List.mem_singleton] at he
    subst he
    trivial

/-- What an attempt to send a command leaves behind belongs to it. -/
theorem ofCommand_commandEvents (bus : I2cBus σ) (packet : Block) (b : σ) :
    ∀ e ∈ commandEvents bus packet b, OfCommand packet e := by
  intro e he
  simp only [commandEvents, List.mem_cons] at he
  rcases he with rfl | he
  · rfl
  · split at he
    · rw [List.mem_singleton] at he
      subst he
      trivial
    · cases he

/-- A loop that accepts nothing into its postcondition and only extends the trace. -/
theorem AfterAttempt.of_state {judge : Frame → Option (Verdict AtshaErr Block)}
    {frame : Option Frame} {Q : Verdict Reply Reply → St σ → Prop} {E : St σ → Prop} {s : St σ}
    (hQ : ∀ v, Q v s) (hE : E s) : AfterAttempt judge frame Q E s := by
  unfold AfterAttempt
  split
  · exact hQ _
  · split
    · exact hE
    · exact hQ _

/-- An exchange whose frame is accepted. -/
theorem AfterAttempt.of_accept {judge : Frame → Option (Verdict AtshaErr Block)}
    {frame : Option Frame} {f : Frame} {answer : Block} {Q : Verdict Reply Reply → St σ → Prop}
    {E : St σ → Prop} {s : St σ} (hframe : frame = some f)
    (hjudge : judge f = some (.accept answer)) (hQ : Q (.accept (.ok, some answer)) s) :
    AfterAttempt judge frame Q E s := by
  simp only [AfterAttempt, hframe, hjudge]
  exact hQ

/-- An exchange whose frame, if it brings one, is not accepted. -/
theorem AfterAttempt.of_again {judge : Frame → Option (Verdict AtshaErr Block)}
    {frame : Option Frame} {Q : Verdict Reply Reply → St σ → Prop} {E : St σ → Prop} {s : St σ}
    (h : ∀ f, frame = some f → ∃ status, judge f = some (.again status))
    (hQ : ∀ reply, Q (.again reply) s) : AfterAttempt judge frame Q E s := by
  cases frame with
  | none => exact hQ _
  | some f =>
    obtain ⟨status, hjudge⟩ := h f rfl
    simp only [AfterAttempt, hjudge]
    exact hQ _

/-- The trace of a wake, on the I2C layer. -/
theorem wp_wake_trace {s : St σ} (hlayer : s.handle.bottomLayer = .ni2c) :
    wp (wake env) (fun _ s' => s'.handle = { s.handle with wakeIsExpected := true } ∧
      WakeTrace s s') (WakeTrace s) s := by
  by_cases hflag : s.handle.wakeIsExpected = true
  · simp only [wake, wp_bind, wp_getHandle, hflag, if_true, wp_pure]
    exact ⟨by rw [← hflag], [], by simp, by simp⟩
  rw [wp_wake (by simpa using hflag)]
  refine wp_retry_link judgeWake_givesUpBadly (wakeAttempt_spec hlayer)
    (fun _ s' => WakeTrace s s') ?_ (fun _ s' _ hs hI => ⟨by rw [hs], hI⟩) rfl
    ⟨[], by simp, by simp⟩
  rintro n s' messages hs ⟨events, htrace, hof⟩
  have hnext : WakeTrace s (s'.after (wakeExchange env.bus s'.bus).2
      (wakeEvents env.bus s'.bus) messages) := by
    refine ⟨events ++ wakeEvents env.bus s'.bus ++ messages.map .message, ?_, ?_⟩
    · simp [htrace]
    · simp only [List.mem_append, List.mem_map]
      rintro e ((he | he) | ⟨_, -, rfl⟩)
      · exact hof e he
      · exact ofWake_wakeEvents _ _ e he
      · trivial
  refine AfterAttempt.of_state (fun v => ?_) hnext
  cases v with
  | accept reply => exact ⟨by rw [← hs]; rfl, hnext⟩
  | again reply => exact hnext
  | abort reply => exact ⟨by rw [← hs]; rfl, hnext⟩

/-- The trace of a command, on the I2C layer. -/
theorem wp_command_trace {s : St σ} (hlayer : s.handle.bottomLayer = .ni2c)
    {rawSlotRead : SlotRead σ} {packet bytes : Block} (hpacket : sentBytes packet = some bytes) :
    wp (command env rawSlotRead packet none)
      (fun _ s' => s'.handle = s.handle ∧ CommandTrace bytes s s') (CommandTrace bytes s) s := by
  rw [wp_command]
  refine wp_retry_link judgeCommand_givesUpBadly (commandAttempt_spec hlayer hpacket)
    (fun n s' => (n = maxAttempts ∧ s' = s) ∨ CommandTrace bytes s s') ?_ ?_ rfl
    (.inl ⟨rfl, rfl⟩)
  · rintro n s' messages hs hI
    have hnext : CommandTrace bytes s (s'.after (commandExchange env.bus bytes s'.bus).2
        (commandEvents env.bus bytes s'.bus) messages) := by
      obtain ⟨events, htrace, hof⟩ : ∃ events, s'.trace = s.trace ++ events ∧
          ∀ e ∈ events, OfCommand bytes e := by
        rcases hI with ⟨-, rfl⟩ | ⟨events, htrace, hof, -⟩
        · exact ⟨[], by simp, by simp⟩
        · exact ⟨events, htrace, hof⟩
      refine ⟨events ++ commandEvents env.bus bytes s'.bus ++ messages.map .message, ?_, ?_, ?_⟩
      · simp [htrace]
      · simp only [List.mem_append, List.mem_map]
        rintro e ((he | he) | ⟨_, -, rfl⟩)
        · exact hof e he
        · exact ofCommand_commandEvents _ _ _ e he
        · trivial
      · exact ⟨_, s'.bus, List.mem_append_left _ (List.mem_append_right _ (.head _))⟩
    refine AfterAttempt.of_state (fun v => ?_) hnext
    cases v with
    | accept reply => exact ⟨hs, hnext⟩
    | again reply => exact .inr hnext
    | abort reply => exact ⟨hs, hnext⟩
  · rintro status s' - hs (⟨h, -⟩ | hI)
    · cases h
    · exact ⟨hs, hI⟩

/-- A packet shorter than it says is never sent. -/
theorem wp_command_of_none {s : St σ} (hlayer : s.handle.bottomLayer = .ni2c)
    {rawSlotRead : SlotRead σ} {packet : Block} (hpacket : sentBytes packet = none) :
    wp (command env rawSlotRead packet none) (fun _ _ => False) (fun s' => s' = s) s := by
  have hattempt : wp (commandAttempt env rawSlotRead packet (.ok, none)) (fun _ _ => False)
      (fun s' => s' = s) s := by
    simp only [commandAttempt, wp_bind, wp_getHandle, hlayer, ni2cCommand, wp_access]
    cases hfirst : peek packet 0 with
    | none => trivial
    | some count =>
      simp only [sentBytes, hfirst, Option.bind_eq_bind, Option.bind_some] at hpacket
      simp only [hpacket]
  rw [command, wp_bind, show maxAttempts = 6 + 1 from rfl, retry, wp_bind]
  exact wp_mono hattempt (fun _ _ hF => hF.elim) fun _ hE => hE

/-! ## Idling -/

/-- The state that `idle` leaves. -/
def idled (env : Env σ) (s : St σ) : St σ :=
  let s' := match s.handle.bottomLayer with
    | .emulation => s
    | .ni2c => s.exchanged (env.bus.write [atsha204I2cWaIdle] s.bus).2
        (.written [atsha204I2cWaIdle] (env.bus.write [atsha204I2cWaIdle] s.bus).1 s.bus)
  { s' with handle := { s.handle with wakeIsExpected := false } }

/-- `idle` never fails; on the I2C layer it writes the idle byte once.
SOURCE: communication.c:87-109, layer_ni2c.c:89-95 -/
theorem idle_run (s : St σ) : (idle env).run s = .ok .ok (idled env s) := by
  unfold idled
  cases hlayer : s.handle.bottomLayer <;>
  · conv_lhs => simp only [idle, idleLoop, getHandle, EStateM.run_bind, EStateM.run_get,
      EStateM.run_pure, hlayer]
    rfl

/-- A device that is let idle is not expected to be awake. -/
@[simp] theorem idled_handle (s : St σ) :
    (idled env s).handle = { s.handle with wakeIsExpected := false } := rfl

/-- On the native layer it is sent the idle byte. -/
theorem idled_ni2c {s : St σ} (hlayer : s.handle.bottomLayer = .ni2c) :
    idled env s = { (s.exchanged (env.bus.write [atsha204I2cWaIdle] s.bus).2
      (.written [atsha204I2cWaIdle] (env.bus.write [atsha204I2cWaIdle] s.bus).1 s.bus)) with
      handle := { s.handle with wakeIsExpected := false } } := by
  unfold idled
  simp only [hlayer]

/-- On the emulation layer nothing else happens. -/
theorem idled_emulation {s : St σ} (hlayer : s.handle.bottomLayer = .emulation) :
    idled env s = { s with handle := { s.handle with wakeIsExpected := false } } := by
  unfold idled
  simp only [hlayer]

/-! ## The emulation layer -/

/-- The emulated device is awake at once.
SOURCE: communication.c:51-55 -/
theorem wake_run_emulation {s : St σ} (hlayer : s.handle.bottomLayer = .emulation) :
    (wake env).run s = .ok .ok { s with handle := { s.handle with wakeIsExpected := true } } := by
  by_cases hflag : s.handle.wakeIsExpected = true
  · simp only [wake, getHandle, EStateM.run_bind, EStateM.run_get, EStateM.run_pure, hflag,
      if_true]
    congr
    rw [← hflag]
  · rw [wake_run (by simpa using hflag)]
    have hfirst : (wakeAttempt env (.ok, none)).run s = .ok (.accept (.ok, none)) s := by
      simp only [wakeAttempt, getHandle, EStateM.run_bind, EStateM.run_get, EStateM.run_pure,
        hlayer]
    rw [show maxAttempts = 6 + 1 from rfl, retry, run_bind_of_run hfirst]
    rfl

/-- A command to the emulated device is one call of the emulator.
SOURCE: communication.c:117-120 -/
theorem command_run_emulation {s : St σ} (hlayer : s.handle.bottomLayer = .emulation)
    {rawSlotRead : SlotRead σ} {packet : Block} :
    (command env rawSlotRead packet none).run s = (emulCommand env rawSlotRead packet).run s := by
  rw [command_run]
  simp only [maxAttempts, trySendRecvOnCommError, retry, commandAttempt, getHandle,
    EStateM.run_bind, EStateM.run_get, EStateM.run_pure, hlayer]
  cases (emulCommand env rawSlotRead packet).run s <;> rfl

end Atsha204.Analysis
