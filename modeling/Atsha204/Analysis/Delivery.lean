import Atsha204.Analysis.Reception
import Atsha204.Analysis.WriteRequests
import Atsha204.Interface.Delivery

/-!
# The loop of `command` delivers the first good answer

The judgement on a frame, in terms of its answer: a good answer is accepted, the answer to
a wake ends the loop, and everything else asks for another attempt (`judgeCommand_good`,
`judgeCommand_wake`, `judgeCommand_again`). With `n` attempts left, `maxAttempts - n`
packets have been sent, the bus has gone through as many exchanges, and none of their
outcomes was good or the answer to a wake (`Undelivered`); this is the invariant that
decides every run (`command_delivers`).
-/

set_option autoImplicit false

namespace Atsha204.Analysis

open Atsha204.Library
open Atsha204.Model
open Atsha204.Interface

variable {σ : Type} {env : Env σ}

/-! ## The judgement in terms of the answer -/

/-- The statuses that are logged are the filtered ones.
SOURCE: communication.c:141-153 -/
theorem refusedStatus_isSome_iff (status : UInt8) :
    (refusedStatus status).isSome ↔ status ∈ filteredStatuses := by
  unfold refusedStatus filteredStatuses
  simp only [List.mem_cons, List.not_mem_nil, or_false]
  split
  · exact iff_of_true rfl (.inl ‹_›)
  split
  · exact iff_of_true rfl (.inr (.inl ‹_›))
  split
  · exact iff_of_true rfl (.inr (.inr (.inl ‹_›)))
  split
  · exact iff_of_true rfl (.inr (.inr (.inr ‹_›)))
  · refine iff_of_false (fun h => by cases h) ?_
    rintro (h | h | h | h) <;> contradiction

/-- An answer begins with its length, and is long enough for a status. -/
theorem framed_fields {answer : Block} (h : Framed answer) (hlen : 3 ≤ answer.length) :
    ∃ count status, peek answer 0 = some count ∧ (count = 4 ↔ answer.length = 4) ∧
      peek answer 1 = some status ∧ answer[1]? = some status := by
  obtain ⟨count, hfirst, hcount⟩ := framed_peek_zero h
  have hone : 1 < answer.length := by omega
  refine ⟨count, answer[1], hfirst, ?_, ?_, List.getElem?_eq_getElem hone⟩
  · rw [← hcount]
    exact ⟨fun h => h ▸ rfl, fun h => UInt8.toNat_inj.mp h⟩
  · exact (peek_natCast answer 1).trans (List.getElem?_eq_getElem hone)

/-- No good answer of four bytes has a status that is logged. -/
theorem goodAnswer_not_refused {answer : Block} {status : UInt8} (h : GoodAnswer answer)
    (hfour : answer.length = 4) (hstatus : answer[1]? = some status) :
    refusedStatus status = none := by
  rw [← Option.not_isSome_iff_eq_none, refusedStatus_isSome_iff]
  intro hmem
  exact h.2 ⟨hfour, status, hmem, hstatus⟩

/-- An answer begins with its length, and then comes its status or its first byte of data. -/
theorem answer_fields {frame : Frame} {answer : Block} (h : frameAnswer frame = some answer)
    (hlen : 3 ≤ answer.length) : Framed answer ∧ ∃ count status,
      peek answer 0 = some count ∧ (count = 4 ↔ answer.length = 4) ∧
        peek answer 1 = some status ∧ answer[1]? = some status := by
  have hframed : Framed answer := by
    rcases (framed_of_frameAnswer h).2 with rfl | hframed
    · cases hlen
    · exact hframed
  exact ⟨hframed, framed_fields hframed hlen⟩

/-- A good answer is accepted. -/
theorem judgeCommand_good {frame : Frame} {answer : Block} (h : frameAnswer frame = some answer)
    (hlen : 3 ≤ answer.length) (hgood : GoodAnswer answer) :
    judgeCommand frame = some (.accept answer) := by
  obtain ⟨-, count, status, hcount, hfour, hstatus, hget⟩ := answer_fields h hlen
  apply judgeCommand_of_answered h hgood.1 hcount
  intro hcount4
  exact ⟨status, hstatus, goodAnswer_not_refused hgood (hfour.mp hcount4) hget⟩

/-- The answer to a wake ends the loop. -/
theorem judgeCommand_wake {frame : Frame} {answer : Block} (h : frameAnswer frame = some answer)
    (hwake : WakeAnswer answer) : judgeCommand frame = some (.abort .badCommunicationStatus) := by
  obtain ⟨hcheck, hlen, hget⟩ := hwake
  obtain ⟨-, count, status, hcount, hfour, hstatus, hget'⟩ := answer_fields h (by omega)
  obtain rfl : status = atsha204StatusWakeOk := Option.some_inj.mp (hget'.symm.trans hget)
  have hrefused : (refusedStatus atsha204StatusWakeOk).isSome = true :=
    (refusedStatus_isSome_iff _).mpr (by decide)
  simp only [judgeCommand, h, hcheck, hcount, hfour.mpr hlen, hstatus, hrefused,
    Option.bind_eq_bind, Option.bind_some, if_true, Bool.not_true, Bool.false_eq_true, if_false]
  rfl

/-- Every other answer asks for another attempt. -/
theorem judgeCommand_again {frame : Frame} {answer : Block} (h : frameAnswer frame = some answer)
    (hlen : 3 ≤ answer.length) (hgood : ¬ GoodAnswer answer) (hwake : ¬ WakeAnswer answer) :
    ∃ status, judgeCommand frame = some (.again status) := by
  obtain ⟨hframed, count, status, hcount, hfour, hstatus, hget⟩ := answer_fields h hlen
  have hcheck := checkPacket_eq hframed (by omega)
  cases hpassed : decide (answer = sealed (answer.take (answer.length - 2))) with
  | false =>
    rw [hpassed] at hcheck
    exact ⟨.communication, by simp [judgeCommand, h, hcheck]⟩
  | true =>
    rw [hpassed] at hcheck
    obtain ⟨hlen4, status', hmem, hget'⟩ := not_not.mp fun hno => hgood ⟨hcheck, hno⟩
    obtain rfl : status = status' := Option.some_inj.mp (hget.symm.trans hget')
    have hne : status ≠ atsha204StatusWakeOk := by
      rintro rfl
      exact hwake ⟨hcheck, hlen4, hget⟩
    have hrefused := (refusedStatus_isSome_iff status).mpr hmem
    refine ⟨.badCommunicationStatus, ?_⟩
    simp only [judgeCommand, h, hcheck, hcount, hfour.mpr hlen4, hstatus, hrefused,
      Option.bind_eq_bind, Option.bind_some, if_true, Bool.not_true, Bool.false_eq_true, if_false,
      if_neg hne]
    rfl

/-! ## The loop -/

section Loop

variable (bus : I2cBus σ) (bytes : Block) (b : σ)

/-- No outcome before outcome `n` is good or the answer to a wake. -/
def NothingBefore (n : ℕ) : Prop :=
  ∀ i < n, ¬ GoodAt bus bytes b i ∧ ¬ WakeAt bus bytes b i

/-- How a command ends after some attempts: with the first good answer, with the answer to a
wake before there was a good one, or with the last attempt. -/
inductive CommandEnds : Reply → ℕ → Prop where
  | delivered {i : ℕ} (hi : i < maxAttempts) (hgood : GoodAt bus bytes b i)
      (hbefore : NothingBefore bus bytes b i) :
      CommandEnds (.ok, outcome bus bytes b i) (i + 1)
  | ended {i : ℕ} {status : AtshaErr} (hi : i < maxAttempts) (hwake : WakeAt bus bytes b i)
      (hbefore : NothingBefore bus bytes b i) (hstatus : status ≠ .ok) :
      CommandEnds (status, none) (i + 1)
  | exhausted {status : AtshaErr} (hbefore : NothingBefore bus bytes b maxAttempts)
      (hstatus : status ≠ .ok) : CommandEnds (status, none) maxAttempts

/-- A packet is sent this many times, and nothing else is. -/
def SentTimes (n : ℕ) (s s' : St σ) : Prop :=
  ∃ events, s'.trace = s.trace ++ events ∧ sentPackets events = List.replicate n bytes

/-- The invariant of the loop, with some attempts left. -/
def Undelivered (s : St σ) (left : ℕ) (s' : St σ) : Prop :=
  ∃ n, n + left = maxAttempts ∧ s'.bus = busAfter (commandExchange bus bytes) s.bus n ∧
    SentTimes bytes n s s' ∧ NothingBefore bus bytes s.bus n

end Loop

/-- What was sent so often is in the trace as often. -/
theorem SentTimes.sentSince_eq {bytes : Block} {n : ℕ} {s s' : St σ}
    (h : SentTimes bytes n s s') : sentSince s s' = List.replicate n bytes := by
  obtain ⟨events, htrace, hsent⟩ := h
  rw [sentSince, htrace, List.drop_left' rfl, hsent]

/-- An attempt sends its packet once. -/
theorem SentTimes.attempt {bus : I2cBus σ} {bytes : Block} {n : ℕ} {s s' : St σ}
    (h : SentTimes bytes n s s') (messages : List String) :
    SentTimes bytes (n + 1) s (s'.after (commandExchange bus bytes s'.bus).2
      (commandEvents bus bytes s'.bus) messages) := by
  obtain ⟨events, htrace, hsent⟩ := h
  refine ⟨events ++ commandEvents bus bytes s'.bus ++ messages.map .message, ?_, ?_⟩
  · simp [htrace]
  · have hlog : sentPackets (messages.map (Event.message (σ := σ))) = [] := by
      apply List.filterMap_eq_nil_iff.mpr
      intro e he
      obtain ⟨text, -, rfl⟩ := List.mem_map.mp he
      rfl
    have honce : sentPackets (commandEvents bus bytes s'.bus) = [bytes] := by
      simp only [commandEvents]
      split <;> rfl
    rw [sentPackets_append, sentPackets_append, hsent, honce, hlog, List.append_nil,
      List.replicate_succ']

/-- If this attempt is none that ends the loop either, nothing has ended it so far. -/
theorem NothingBefore.succ {bus : I2cBus σ} {bytes : Block} {b : σ} {n : ℕ}
    (h : NothingBefore bus bytes b n) (hgood : ¬ GoodAt bus bytes b n)
    (hwake : ¬ WakeAt bus bytes b n) : NothingBefore bus bytes b (n + 1) := by
  intro i hi
  obtain hlt | rfl : i < n ∨ i = n := by omega
  · exact h i hlt
  · exact ⟨hgood, hwake⟩

/-- An attempt accepts the outcome that is due when it is good, ends the loop when it is the
answer to a wake, and else re-establishes the invariant. -/
theorem afterAttempt_undelivered {bus : I2cBus σ} {bytes : Block} {s s' : St σ} {left n : ℕ}
    (houtcome : ErrorOrAnswer bus bytes s.bus n) (hn : n + (left + 1) = maxAttempts)
    (hbus : s'.bus = busAfter (commandExchange bus bytes) s.bus n)
    (hsent : SentTimes bytes n s s') (hbefore : NothingBefore bus bytes s.bus n)
    (messages : List String) :
    AfterAttempt judgeCommand (commandExchange bus bytes s'.bus).1
      (fun v s'' => match v with
        | .accept reply => ∃ m, CommandEnds bus bytes s.bus reply m ∧ SentTimes bytes m s s''
        | .again _ => Undelivered bus bytes s left s''
        | .abort reply => ∃ m, CommandEnds bus bytes s.bus reply m ∧ SentTimes bytes m s s'')
      (fun _ => False)
      (s'.after (commandExchange bus bytes s'.bus).2 (commandEvents bus bytes s'.bus)
        messages) := by
  have hlt : n < maxAttempts := by omega
  have hnext := @SentTimes.attempt σ bus bytes n s s' hsent messages
  have hagain : ¬ GoodAt bus bytes s.bus n → ¬ WakeAt bus bytes s.bus n →
      Undelivered bus bytes s left (s'.after (commandExchange bus bytes s'.bus).2
        (commandEvents bus bytes s'.bus) messages) := by
    intro hgood hwake
    refine ⟨n + 1, by omega, ?_, hnext, hbefore.succ hgood hwake⟩
    rw [St.after_bus, hbus]
    rfl
  have hframe : (commandExchange bus bytes s'.bus).1 = outcomeFrame bus bytes s.bus n := by
    rw [hbus]
    rfl
  have hyields : outcome bus bytes s.bus n = (outcomeFrame bus bytes s.bus n).bind frameAnswer :=
    rfl
  rw [hframe]
  cases hcase : outcomeFrame bus bytes s.bus n with
  | none =>
    rw [hcase, Option.bind_none] at hyields
    refine hagain ?_ ?_ <;>
    · rintro ⟨answer, hanswer, -⟩
      rw [hyields] at hanswer
      cases hanswer
  | some frame =>
    obtain ⟨answer, hanswer, hlen⟩ := houtcome frame hcase
    rw [hcase, Option.bind_some, hanswer] at hyields
    by_cases hgood : GoodAnswer answer
    · apply AfterAttempt.of_accept rfl (judgeCommand_good hanswer hlen hgood)
      refine ⟨n + 1, ?_, hnext⟩
      have hends := CommandEnds.delivered hlt ⟨answer, hyields, hgood⟩ hbefore
      rwa [hyields] at hends
    · by_cases hwake : WakeAnswer answer
      · simp only [AfterAttempt, judgeCommand_wake hanswer hwake, liftVerdict]
        exact ⟨n + 1, .ended hlt ⟨answer, hyields, hwake⟩ hbefore (by decide), hnext⟩
      · have hnot : ∀ P : Block → Prop, ¬ P answer →
            ¬ ∃ a, outcome bus bytes s.bus n = some a ∧ P a := by
          rintro P hP ⟨a, ha, hPa⟩
          obtain rfl := Option.some_inj.mp (hyields.symm.trans ha)
          exact hP hPa
        obtain ⟨status, hjudge⟩ := judgeCommand_again hanswer hlen hgood hwake
        simp only [AfterAttempt, hjudge, liftVerdict]
        exact hagain (hnot GoodAnswer hgood) (hnot WakeAnswer hwake)

/-- A command returns, and ends in one of the three ways.
SOURCE: communication.c:111-172 -/
theorem wp_command_ends {s : St σ} (hlayer : s.handle.bottomLayer = .ni2c)
    {rawSlotRead : SlotRead σ} {packet bytes : Block} (hpacket : sentBytes packet = some bytes)
    (houtcomes : ∀ i < maxAttempts, ErrorOrAnswer env.bus bytes s.bus i) :
    wp (command env rawSlotRead packet none)
      (fun reply s' => ∃ n, CommandEnds env.bus bytes s.bus reply n ∧ SentTimes bytes n s s')
      (fun _ => False) s := by
  rw [wp_command]
  refine wp_retry_link judgeCommand_givesUpBadly (commandAttempt_spec hlayer hpacket)
    (Undelivered env.bus bytes s) ?_ ?_ rfl ?_
  · rintro left s' messages - ⟨n, hn, hbus, hsent, hbefore⟩
    exact afterAttempt_undelivered (houtcomes n (by omega)) hn hbus hsent hbefore messages
  · rintro status s' hstatus - ⟨n, hn, -, hsent, hbefore⟩
    obtain rfl : n = maxAttempts := by omega
    exact ⟨maxAttempts, .exhausted hbefore hstatus.ne_ok, hsent⟩
  · exact ⟨0, by omega, rfl, ⟨[], (List.append_nil _).symm, rfl⟩, fun i hi => by omega⟩

/-! ## What a command ends with -/

section Ends

variable {bus : I2cBus σ} {bytes : Block} {b : σ} {reply : Reply} {n : ℕ}

/-- A good answer is not the answer to a wake. -/
theorem not_wakeAt_of_goodAt {i : ℕ} (h : GoodAt bus bytes b i) : ¬ WakeAt bus bytes b i := by
  obtain ⟨answer, hanswer, -, hnot⟩ := h
  rintro ⟨answer', hanswer', -, hlen, hstatus⟩
  obtain rfl := Option.some_inj.mp (hanswer.symm.trans hanswer')
  exact hnot ⟨hlen, atsha204StatusWakeOk, by decide, hstatus⟩

/-- No command is sent more often than the library tries. -/
theorem CommandEnds.le_maxAttempts (h : CommandEnds bus bytes b reply n) : n ≤ maxAttempts := by
  cases h with
  | delivered hi => exact hi
  | ended hi => exact hi
  | exhausted => exact Nat.le_refl _

/-- Where it goes badly there is no answer. -/
theorem CommandEnds.answer_none (h : CommandEnds bus bytes b reply n) (hstatus : reply.1 ≠ .ok) :
    reply.2 = none := by
  cases h with
  | delivered => exact absurd rfl hstatus
  | ended => rfl
  | exhausted => rfl

/-- The status is good exactly when there is a good answer among the outcomes and none before
it answers a wake. -/
theorem CommandEnds.ok_iff (h : CommandEnds bus bytes b reply n) :
    reply.1 = .ok ↔
      ∃ i < maxAttempts, GoodAt bus bytes b i ∧ ∀ j < i, ¬ WakeAt bus bytes b j := by
  cases h with
  | @delivered i hi hgood hbefore =>
    exact iff_of_true rfl ⟨i, hi, hgood, fun j hj => (hbefore j hj).2⟩
  | @ended i status hi hwake hbefore hstatus =>
    refine iff_of_false hstatus ?_
    rintro ⟨j, -, hgood, hno⟩
    obtain hlt | rfl | hgt := Nat.lt_trichotomy i j
    · exact hno i hlt hwake
    · exact not_wakeAt_of_goodAt hgood hwake
    · exact (hbefore j hgt).1 hgood
  | exhausted hbefore hstatus =>
    refine iff_of_false hstatus ?_
    rintro ⟨j, hj, hgood, -⟩
    exact (hbefore j hj).1 hgood

/-- The first good answer with no answer to a wake before it is the one delivered. -/
theorem CommandEnds.delivers (h : CommandEnds bus bytes b reply n) {i : ℕ} (hi : i < maxAttempts)
    (hgood : GoodAt bus bytes b i) (hfirst : NothingBefore bus bytes b i) :
    reply.2 = outcome bus bytes b i ∧ n = i + 1 := by
  cases h with
  | @delivered j hj hgood' hbefore =>
    obtain hlt | rfl | hgt := Nat.lt_trichotomy i j
    · exact absurd hgood (hbefore i hlt).1
    · exact ⟨rfl, rfl⟩
    · exact absurd hgood' (hfirst j hgt).1
  | @ended j status hj hwake hbefore hstatus =>
    obtain hlt | rfl | hgt := Nat.lt_trichotomy i j
    · exact absurd hgood (hbefore i hlt).1
    · exact absurd hwake (not_wakeAt_of_goodAt hgood)
    · exact absurd hwake (hfirst j hgt).2
  | exhausted hbefore hstatus => exact absurd hgood (hbefore i hi).1

end Ends

/-- Whatever the bottom layer yields, errors or answers of at least three bytes: a command
returns and sends its packet at most `TRY_SEND_RECV_ON_COMM_ERROR + 2` times and nothing
else. Its status is good exactly when one of these outcomes is a good answer and no earlier
one answers a wake; then it delivers the first good answer and sends nothing after it. Else
the answer is NULL.
SOURCE: communication.c:111-172, layer_ni2c.c:45-58, layer_ni2c.c:97-123 -/
theorem command_delivers (env : Env σ) (s : St σ) (hlayer : s.handle.bottomLayer = .ni2c)
    (rawSlotRead : SlotRead σ) (packet bytes : Block) (hpacket : sentBytes packet = some bytes)
    (houtcomes : ∀ i < trySendRecvOnCommError + 2, ErrorOrAnswer env.bus bytes s.bus i) :
    ∃ reply s' n, (command env rawSlotRead packet none).run s = .ok reply s' ∧
      sentSince s s' = List.replicate n bytes ∧ n ≤ trySendRecvOnCommError + 2 ∧
      (reply.1 = .ok ↔ ∃ i < trySendRecvOnCommError + 2, GoodAt env.bus bytes s.bus i ∧
        ∀ j < i, ¬ WakeAt env.bus bytes s.bus j) ∧
      (∀ i < trySendRecvOnCommError + 2, GoodAt env.bus bytes s.bus i →
        (∀ j < i, ¬ GoodAt env.bus bytes s.bus j ∧ ¬ WakeAt env.bus bytes s.bus j) →
        reply.2 = outcome env.bus bytes s.bus i ∧ n = i + 1) ∧
      (reply.1 ≠ .ok → reply.2 = none) := by
  obtain ⟨reply, s', hrun, n, hends, hsent⟩ := (wp_returns_iff _ _ _).mp
    (@wp_command_ends σ env s hlayer rawSlotRead packet bytes hpacket houtcomes)
  exact ⟨reply, s', n, hrun, hsent.sentSince_eq, hends.le_maxAttempts, hends.ok_iff,
    fun i hi hgood hfirst => hends.delivers hi hgood hfirst, hends.answer_none⟩

/-- The exchanges with a replaying bus bring its frames one by one. -/
theorem outcomeFrame_replayBus (bytes : Block) (frames : List (Option Frame)) (i : ℕ) :
    outcomeFrame replayBus bytes frames i = (frames.drop i).head?.join := by
  have hbus : busAfter (commandExchange replayBus bytes) frames i = frames.drop i := by
    induction i with
    | zero => rfl
    | succ i ih =>
      rw [busAfter, ih, ← List.tail_drop]
      rfl
  unfold outcomeFrame
  rw [hbus]
  rfl

/-- An error, an answer with a bad checksum, and a status of success. -/
def thirdTimeFrames : List (Option Frame) :=
  [none, some (frameOf [0x04, 0x00, 0x00, 0x00]),
    some (frameOf (answerPacket [atsha204StatusSucces]))]

/-- The third attempt of a command delivers the status of success. -/
theorem command_delivers_third : ∃ reply s' n,
    (command replayEnv (fun _ _ => throw .outOfFuel) [0x02, 0x30] none).run
      (replayState thirdTimeFrames) = .ok reply s' ∧
    sentSince (replayState thirdTimeFrames) s' = List.replicate n [0x02, 0x30] ∧
    reply.1 = .ok ∧ reply.2 = some (answerPacket [atsha204StatusSucces]) ∧ n = 3 := by
  have hfirst : outcome replayBus [0x02, 0x30] thirdTimeFrames 0 = none := rfl
  have hsecond : outcome replayBus [0x02, 0x30] thirdTimeFrames 1 =
      some [0x04, 0x00, 0x00, 0x00] := by decide +kernel
  have hthird : outcome replayBus [0x02, 0x30] thirdTimeFrames 2 =
      some (answerPacket [atsha204StatusSucces]) := by decide +kernel
  have hgood : GoodAt replayBus [0x02, 0x30] thirdTimeFrames 2 :=
    ⟨_, hthird, by decide +kernel, by decide +kernel⟩
  have hbefore : ∀ j < 2, ¬ GoodAt replayBus [0x02, 0x30] thirdTimeFrames j ∧
      ¬ WakeAt replayBus [0x02, 0x30] thirdTimeFrames j := by
    have hunchecked : ∀ j < 2, ∀ answer, outcome replayBus [0x02, 0x30] thirdTimeFrames j =
        some answer → checkPacket answer ≠ some true := by
      intro j hj answer hanswer
      obtain rfl | rfl : j = 0 ∨ j = 1 := by omega
      · rw [hfirst] at hanswer
        cases hanswer
      · obtain rfl := Option.some_inj.mp (hsecond.symm.trans hanswer)
        decide +kernel
    intro j hj
    constructor
    · rintro ⟨answer, hanswer, hcheck, -⟩
      exact hunchecked j hj answer hanswer hcheck
    · rintro ⟨answer, hanswer, hcheck, -⟩
      exact hunchecked j hj answer hanswer hcheck
  have houtcomes : ∀ i < trySendRecvOnCommError + 2,
      ErrorOrAnswer replayBus [0x02, 0x30] thirdTimeFrames i := by
    intro i _ frame hframe
    rw [outcomeFrame_replayBus] at hframe
    have hmem : some frame ∈ thirdTimeFrames := by
      exact List.mem_of_mem_drop (List.mem_of_mem_head? (Option.join_eq_some_iff.mp hframe))
    simp only [thirdTimeFrames, List.mem_cons, List.not_mem_nil, or_false, Option.some.injEq,
      reduceCtorEq, false_or] at hmem
    rcases hmem with rfl | rfl
    · exact ⟨[0x04, 0x00, 0x00, 0x00], by decide +kernel, by decide⟩
    · exact ⟨answerPacket [atsha204StatusSucces], by decide +kernel, by decide⟩
  obtain ⟨reply, s', n, hrun, hsent, -, hok, hdelivers, -⟩ :=
    command_delivers replayEnv (replayState thirdTimeFrames) rfl (fun _ _ => throw .outOfFuel)
      [0x02, 0x30] [0x02, 0x30] rfl houtcomes
  obtain ⟨hanswer, hn⟩ := hdelivers 2 (by decide) hgood hbefore
  exact ⟨reply, s', n, hrun, hsent,
    hok.mpr ⟨2, by decide, hgood, fun j hj => (hbefore j hj).2⟩, hanswer.trans hthird, hn⟩

end Atsha204.Analysis
