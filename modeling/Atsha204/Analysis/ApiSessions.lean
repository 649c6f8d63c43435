import Atsha204.Analysis.Challenge
import Atsha204.Analysis.Reception
import Atsha204.Analysis.WriteRequests
import Atsha204.Interface.ApiCall

/-!
# The sessions of the public operations

A plain call succeeds exactly when the answer to its packet is delivered and its decoder
takes it (`plainCall_ok_iff`); this holds on either layer. On the native I2C layer what is
delivered is what the link answers (`delivered_iff`); an emulated device delivers what it
stores (`delivered_emulation`).
-/

set_option autoImplicit false

namespace Atsha204.Analysis

open Atsha204.Library
open Atsha204.Model
open Atsha204.Interface

variable {σ α : Type} {env : Env σ}

/-! ## Runs that succeed -/

/-- A session goes well exactly when its wake and its body do; then the device is let idle. -/
theorem run_session_ok_iff (out : α) (body : Prog σ (AtshaErr × α)) (a : α) (s s' : St σ) :
    (session env out body).run s = .ok (.ok, a) s' ↔ ∃ s₁ s₂, (wake env).run s = .ok .ok s₁ ∧
      body.run s₁ = .ok (.ok, a) s₂ ∧ s' = idled env s₂ := by
  rw [run_eq_ok_iff, wp_session]
  constructor
  · intro h
    obtain ⟨status, s₁, hwake, h⟩ := (wp_returns_iff _ _ _).mp h
    by_cases hstatus : status = .ok
    · subst hstatus
      rw [if_pos rfl] at h
      obtain ⟨⟨status, b⟩, s₂, hbody, h⟩ := (wp_returns_iff _ _ _).mp h
      split at h
      · rename_i hok
        obtain ⟨hr, rfl⟩ := h
        obtain rfl : status = .ok := hok
        exact ⟨s₁, s₂, hwake, by rw [hbody, hr], rfl⟩
      · rename_i hbad
        exact absurd (congrArg Prod.fst h.1) hbad
    · rw [if_neg hstatus] at h
      exact absurd (congrArg Prod.fst h.1) hstatus
  · rintro ⟨s₁, s₂, hwake, hbody, rfl⟩
    rw [wp_of_run hwake, if_pos rfl, wp_of_run hbody, if_pos rfl]
    exact ⟨rfl, rfl⟩

/-- A packet sent, and its answer decoded. -/
def exchange (send : Send σ) (packet : Option Block) (out : α)
    (decode : Block → Prog σ (AtshaErr × α)) : Prog σ (AtshaErr × α) := do
  let packet ← access packet
  let (status, answer) ← send packet
  if status ≠ .ok then
    return (status, out)
  let answer ← access answer
  decode answer

/-- The end of an exchange of data. -/
def decodeData (recv : DataRecv σ) (number : AtshaBigInt) (answer : Block) :
    Prog σ (AtshaErr × AtshaBigInt) := do
  let (size, data) ← recv answer number.data
  let number : AtshaBigInt := ⟨size.toNat, data⟩
  if number.bytes = 0 then
    return (.memoryAllocationError, number)
  return (.ok, number)

/-- The end of an exchange of a status. -/
def decodeStatus (answer : Block) : Prog σ (AtshaErr × Unit) := do
  return (← justCheckStatus answer, ())

/-- A data exchange decodes the answer into the number. -/
theorem dataExchange_eq (send : Send σ) (packet : Option Block) (recv : DataRecv σ)
    (number : AtshaBigInt) : dataExchange send packet recv number =
      exchange send packet number (decodeData recv number) := rfl

/-- A status exchange decodes the status. -/
theorem statusExchange_eq (send : Send σ) (packet : Option Block) :
    statusExchange send packet justCheckStatus = exchange send packet () decodeStatus := rfl

/-- An exchange goes well exactly when its packet is built, sent, and answered with what the decoder
takes. -/
theorem run_exchange_ok_iff (send : Send σ) (packet : Option Block) (out : α)
    (decode : Block → Prog σ (AtshaErr × α)) (a : α) (s s' : St σ) :
    (exchange send packet out decode).run s = .ok (.ok, a) s' ↔ ∃ bytes answer s₁,
      packet = some bytes ∧ (send bytes).run s = .ok (.ok, some answer) s₁ ∧
        (decode answer).run s₁ = .ok (.ok, a) s' := by
  rw [exchange, run_bind_eq_ok_iff]
  constructor
  · rintro ⟨bytes, _, hpacket, h⟩
    obtain ⟨rfl, rfl⟩ := (run_orFault_eq_ok_iff _ _ _ _ _).mp hpacket
    obtain ⟨⟨status, reply⟩, s₁, hsend, h⟩ := (run_bind_eq_ok_iff _ _ _ _ _).mp h
    by_cases hstatus : status = .ok
    · subst hstatus
      simp only [ne_eq, not_true_eq_false, if_false] at h
      obtain ⟨answer, _, hanswer, h⟩ := (run_bind_eq_ok_iff _ _ _ _ _).mp h
      obtain ⟨rfl, rfl⟩ := (run_orFault_eq_ok_iff _ _ _ _ _).mp hanswer
      exact ⟨bytes, answer, _, rfl, hsend, h⟩
    · simp only [hstatus, ne_eq, not_false_eq_true, if_true] at h
      exact absurd (congrArg Prod.fst (EStateM.Result.ok.inj h).1) hstatus
  · rintro ⟨bytes, answer, s₁, rfl, hsend, hdecode⟩
    refine ⟨bytes, s, rfl, ?_⟩
    rw [run_bind_of_run hsend]
    exact hdecode

/-- An operation that leaves a number as it is gives this number. -/
theorem run_leaving_ok_iff (number r : AtshaBigInt) (x : Prog σ (AtshaErr × Unit))
    (s s' : St σ) : (leaving number x).run s = .ok (.ok, r) s' ↔
      x.run s = .ok (.ok, ()) s' ∧ r = number := by
  rw [leaving, run_bind_eq_ok_iff]
  constructor
  · rintro ⟨⟨status, _⟩, s₁, hx, h⟩
    obtain ⟨hr, rfl⟩ := EStateM.Result.ok.inj h
    obtain ⟨rfl, rfl⟩ := Prod.mk.inj hr
    exact ⟨hx, rfl⟩
  · rintro ⟨hx, rfl⟩
    exact ⟨_, _, hx, rfl⟩

/-! ## Decoding -/

/-- The end of a call that asks for data, or for a status. -/
def decode (asked : Option ℕ) (number : AtshaBigInt) (answer : Block) :
    Prog σ (AtshaErr × AtshaBigInt) :=
  match asked with
  | some _ => decodeData readLongData number answer
  | none => leaving number (decodeStatus answer)

/-- The number that an answer gives. -/
def taken (asked : Option ℕ) (number : AtshaBigInt) (answer : Block) : AtshaBigInt :=
  match asked with
  | some _ => ⟨(payload answer).length, filled number.data (payload answer)⟩
  | none => number

/-- The decoder of a status takes the status of success, and leaves the state alone. -/
theorem decodeStatus_ok_iff (answer : Block) (a : Unit) (s s' : St σ) :
    (decodeStatus answer).run s = .ok (.ok, a) s' ↔ Takes none answer ∧ s' = s := by
  rw [decodeStatus, run_eq_ok_iff, wp_bind, wp_justCheckStatus, Takes]
  cases peek answer 1 with
  | none => simp
  | some status =>
    by_cases hstatus : status = atsha204StatusSucces
    · simp only [hstatus, if_true, wp_pure, true_and]
      exact eq_comm
    · simp [hstatus]

/-- A decoder takes exactly the answers that it is said to take, and gives what is taken of them. -/
theorem decode_ok_iff (asked : Option ℕ) (number r : AtshaBigInt) {answer : Block}
    (hframed : Framed answer) (hlen : 3 ≤ answer.length) (s s' : St σ) :
    (decode asked number answer).run s = .ok (.ok, r) s' ↔
      Takes asked answer ∧ r = taken asked number answer ∧ s' = s := by
  cases asked with
  | some n =>
    have hpayload := payload_length hlen
    simp only [decode, decodeData, Takes, taken]
    rw [run_eq_ok_iff, wp_bind, wp_readLongData hframed hlen]
    by_cases hmax : answer.length ≤ 35
    · by_cases hmin : 4 ≤ answer.length
      · have hne : ¬ (payload answer).length = 0 := by omega
        simp only [hmax, hmin, Int.toNat_natCast, hne, if_true, if_false, wp_pure, and_self,
          true_and, Prod.mk.injEq]
        exact ⟨fun h => ⟨h.1.symm, h.2.symm⟩, fun h => ⟨h.1.symm, h.2.symm⟩⟩
      · have hzero : (payload answer).length = 0 := by omega
        simp [hmax, hmin, hzero]
    · simp [hmax]
  | none =>
    rw [decode, run_leaving_ok_iff, decodeStatus_ok_iff]
    exact ⟨fun h => ⟨h.1.1, h.2, h.1.2⟩, fun h => ⟨⟨h.1, h.2.2⟩, h.2.1⟩⟩

/-! ## Plain calls -/

/-- The body of the session of a plain call. -/
def plainBody (env : Env σ) (number : AtshaBigInt) (call : PlainCall) :
    Prog σ (AtshaErr × AtshaBigInt) :=
  let request := exchange (send env) call.packet number (decode call.asked number)
  match call with
  | .respond .hmac _ challenge _ => do
    let (status, _) ← loadNonce env challenge
    if status ≠ .ok then
      return (status, number)
    request
  | _ => request

/-- A number may be left as it is inside of the session. -/
theorem leaving_session (number : AtshaBigInt) (body : Prog σ (AtshaErr × Unit)) :
    leaving number (session env () body) = session env number (leaving number body) := by
  funext s
  change (leaving number (session env () body)).run s = (session env number _).run s
  simp only [leaving, session, EStateM.run_bind]
  cases (wake env).run s with
  | error e s₁ => rfl
  | ok status s₁ =>
    by_cases hstatus : status = .ok
    · simp only [hstatus, ne_eq, not_true_eq_false, if_false, EStateM.run_bind]
      cases body.run s₁ with
      | error e s₂ => rfl
      | ok r s₂ =>
        by_cases hr : r.1 = .ok
        · simp only [hr, not_true_eq_false, if_false, EStateM.run_bind, EStateM.run_pure,
            idle_run]
        · simp [hr]
    · simp [hstatus]

/-- Or inside of the exchange, whose decoder then gives it. -/
theorem leaving_exchange (number : AtshaBigInt) (send : Send σ) (packet : Option Block) :
    leaving number (statusExchange send packet justCheckStatus) =
      exchange send packet number (decode none number) := by
  funext s
  change (leaving number _).run s = (exchange send packet number _).run s
  rw [statusExchange_eq]
  simp only [leaving, exchange, EStateM.run_bind]
  cases (access packet : Prog σ Block).run s with
  | error e s₁ => rfl
  | ok bytes s₁ =>
    simp only
    cases (send bytes).run s₁ with
    | error e s₂ => rfl
    | ok reply s₂ =>
      by_cases hreply : reply.1 = .ok
      · simp only [hreply, ne_eq, not_true_eq_false, if_false, EStateM.run_bind]
        cases (access reply.2 : Prog σ Block).run s₂ with
        | error e s₃ => rfl
        | ok answer s₃ =>
          simp only [decode, leaving, EStateM.run_bind]
      · simp [hreply]

/-- A call that is not refused is one session. -/
theorem plainCall_run {call : PlainCall} (h : ¬ call.Refused) (number : AtshaBigInt) :
    call.run env number = session env number (plainBody env number call) := by
  cases call with
  | random => rfl
  | confRead address => rfl
  | otpRead address => rfl
  | slotRead slotNumber =>
    have hsmall : ¬ slotNumber > atsha204MaxSlotNumber := h
    simp only [PlainCall.run, atshaRawSlotRead, atshaRawSlotReadWith, hsmall, if_false]
    rfl
  | respond kind slotNumber challenge useSn =>
    have hsmall : ¬ slotNumber > atsha204MaxSlotNumber := fun hlt => h (.inl hlt)
    have hbytes : challenge.bytes = 32 := not_not.mp fun hne => h (.inr hne)
    cases kind with
    | hmac =>
      simp only [PlainCall.run, atshaLowChallengeResponse, hsmall, hbytes, ne_eq,
        not_true_eq_false, if_false]
      rw [plainBody, loadNonce, hbytes]
      rfl
    | mac =>
      simp only [PlainCall.run, atshaLowChallengeResponseMac, hsmall, hbytes, ne_eq,
        not_true_eq_false, if_false]
      have hbody : plainBody env number (.respond .mac slotNumber challenge useSn) =
          exchange (send env) (opMac slotNumber challenge.bytes challenge.data.val useSn) number
            (decode (some 32) number) := rfl
      rw [hbody, hbytes]
      rfl
  | write call data =>
    have href : ¬ call.Refused data := h
    rw [PlainCall.run, writeCall_run href, leaving_session]
    exact congrArg (session env number) (leaving_exchange number (send env) _)
  | lockConfig crc =>
    rw [PlainCall.run, atshaLockConfig, leaving_session]
    exact congrArg (session env number) (leaving_exchange number (send env) _)
  | lockData crc =>
    rw [PlainCall.run, atshaLockData, leaving_session]
    exact congrArg (session env number) (leaving_exchange number (send env) _)

/-- A refused call returns at once, with nothing but a line in the log. -/
theorem plainCall_refused {call : PlainCall} (h : call.Refused) (number : AtshaBigInt)
    (s : St σ) : wp (call.run env number)
      (fun r s' => r = (.invalidInput, number) ∧ Logged s s') (fun _ => False) s := by
  cases call with
  | slotRead slotNumber =>
    have hlt : slotNumber > atsha204MaxSlotNumber := h
    simp only [PlainCall.run, atshaRawSlotRead, atshaRawSlotReadWith, hlt, if_true, wp_bind,
      wp_logMessage, wp_pure]
    exact ⟨trivial, .message s _⟩
  | respond kind slotNumber challenge useSn =>
    by_cases hlt : slotNumber > atsha204MaxSlotNumber
    · cases kind with
      | hmac =>
        simp only [PlainCall.run, atshaLowChallengeResponse, hlt, if_true, wp_bind,
          wp_logMessage, wp_pure]
        exact ⟨trivial, .message s _⟩
      | mac =>
        simp only [PlainCall.run, atshaLowChallengeResponseMac, hlt, if_true, wp_bind,
          wp_logMessage, wp_pure]
        exact ⟨trivial, .message s _⟩
    · have hne : challenge.bytes ≠ 32 := h.resolve_left hlt
      cases kind with
      | hmac =>
        simp only [PlainCall.run, atshaLowChallengeResponse, hlt, hne, if_false, if_true,
          ne_eq, not_false_eq_true, wp_bind, wp_logMessage, wp_pure]
        exact ⟨trivial, .message s _⟩
      | mac =>
        simp only [PlainCall.run, atshaLowChallengeResponseMac, hlt, hne, if_false, if_true,
          ne_eq, not_false_eq_true, wp_bind, wp_logMessage, wp_pure]
        exact ⟨trivial, .message s _⟩
  | write call data =>
    rw [PlainCall.run, leaving, wp_bind]
    refine wp_mono (writeCall_run_refused h s) ?_ fun _ hF => hF
    rintro _ s' ⟨rfl, -, hlogged⟩
    exact ⟨rfl, hlogged⟩
  | random | confRead _ | otpRead _ | lockConfig _ | lockData _ => exact h.elim

/-- Before an HMAC the device is woken, and given its nonce. -/
theorem run_prologue_hmac_iff (slotNumber : UInt8) (challenge : AtshaBigInt) (useSn : Bool)
    (s s₁ : St σ) :
    ((PlainCall.respond .hmac slotNumber challenge useSn).prologue env).run s = .ok .ok s₁ ↔
      ∃ s₀, (wake env).run s = .ok .ok s₀ ∧ (loadNonce env challenge).run s₀ = .ok (.ok, ()) s₁ := by
  rw [PlainCall.prologue, run_bind_eq_ok_iff]
  constructor
  · rintro ⟨status, s₀, hwake, h⟩
    by_cases hstatus : status = .ok
    · subst hstatus
      simp only [ne_eq, not_true_eq_false, if_false] at h
      obtain ⟨⟨status, _⟩, s', hnonce, h⟩ := (run_bind_eq_ok_iff _ _ _ _ _).mp h
      obtain ⟨rfl, rfl⟩ := EStateM.Result.ok.inj h
      exact ⟨s₀, hwake, hnonce⟩
    · simp only [hstatus, ne_eq, not_false_eq_true, if_true] at h
      exact absurd (EStateM.Result.ok.inj h).1 hstatus
  · rintro ⟨s₀, hwake, hnonce⟩
    refine ⟨_, s₀, hwake, ?_⟩
    simp only [ne_eq, not_true_eq_false, if_false]
    rw [run_bind_of_run hnonce]
    rfl

/-- Behind the wake, the body of a call is the rest of its prologue and the exchange of its
packet. -/
theorem run_plainBody_ok_iff (call : PlainCall) (number r : AtshaBigInt) (s s' : St σ) :
    (∃ s₀, (wake env).run s = .ok .ok s₀ ∧ (plainBody env number call).run s₀ = .ok (.ok, r) s') ↔
      ∃ s₁, (call.prologue env).run s = .ok .ok s₁ ∧
        (exchange (send env) call.packet number (decode call.asked number)).run s₁ =
          .ok (.ok, r) s' := by
  match call with
  | .respond .hmac slotNumber challenge useSn =>
    simp only [run_prologue_hmac_iff, plainBody, run_bind_eq_ok_iff]
    constructor
    · rintro ⟨s₀, hwake, ⟨status, _⟩, s₁, hnonce, h⟩
      by_cases hstatus : status = .ok
      · subst hstatus
        exact ⟨s₁, ⟨s₀, hwake, hnonce⟩, h⟩
      · simp only [hstatus, ne_eq, not_false_eq_true, if_true] at h
        exact absurd (congrArg Prod.fst (EStateM.Result.ok.inj h).1) hstatus
    · rintro ⟨s₁, ⟨s₀, hwake, hnonce⟩, h⟩
      exact ⟨s₀, hwake, _, s₁, hnonce, h⟩
  | .respond .mac .. | .random | .slotRead _ | .confRead _ | .otpRead _ | .write .. |
    .lockConfig _ | .lockData _ => exact Iff.rfl

/-- A plain call succeeds exactly when the answer to its packet is delivered and its decoder
takes it. -/
theorem plainCall_ok_iff {call : PlainCall} (h : ¬ call.Refused) (number r : AtshaBigInt)
    (s s' : St σ) : (call.run env number).run s = .ok (.ok, r) s' ↔ ∃ answer s₁ s₂ s₃,
      Delivered env (call.prologue env) call.packet s answer s₁ s₂ ∧
        (decode call.asked number answer).run s₂ = .ok (.ok, r) s₃ ∧ s' = idled env s₃ := by
  rw [plainCall_run h, run_session_ok_iff]
  constructor
  · rintro ⟨s₀, s₃, hwake, hbody, rfl⟩
    obtain ⟨s₁, hprologue, hexchange⟩ :=
      (run_plainBody_ok_iff call number r s s₃).mp ⟨s₀, hwake, hbody⟩
    obtain ⟨bytes, answer, s₂, hpacket, hsend, hdecode⟩ :=
      (run_exchange_ok_iff _ _ _ _ _ _ _).mp hexchange
    exact ⟨answer, s₁, s₂, s₃, ⟨hprologue, bytes, hpacket, hsend⟩, hdecode, rfl⟩
  · rintro ⟨answer, s₁, s₂, s₃, ⟨hprologue, bytes, hpacket, hsend⟩, hdecode, rfl⟩
    obtain ⟨s₀, hwake, hbody⟩ := (run_plainBody_ok_iff call number r s s₃).mpr
      ⟨s₁, hprologue, (run_exchange_ok_iff _ _ _ _ _ _ _).mpr
        ⟨bytes, answer, s₂, hpacket, hsend, hdecode⟩⟩
    exact ⟨s₀, s₃, hwake, hbody, rfl⟩

/-- What is delivered is one answer. -/
theorem Delivered.unique {prologue : Prog σ AtshaErr} {packet : Option Block}
    {s s₁ s₂ s₁' s₂' : St σ} {answer answer' : Block}
    (h : Delivered env prologue packet s answer s₁ s₂)
    (h' : Delivered env prologue packet s answer' s₁' s₂') : answer = answer' := by
  obtain ⟨hbefore, bytes, hpacket, hreceived⟩ := h
  obtain ⟨hbefore', bytes', hpacket', hreceived'⟩ := h'
  rw [hbefore] at hbefore'
  obtain ⟨-, rfl⟩ := EStateM.Result.ok.inj hbefore'
  rw [hpacket] at hpacket'
  obtain rfl := Option.some.inj hpacket'
  rw [hreceived] at hreceived'
  obtain ⟨hreply, -⟩ := EStateM.Result.ok.inj hreceived'
  exact Option.some.inj (Prod.mk.inj hreply).2

/-! ## The packets -/

/-- Every packet that is built begins with its length. -/
theorem framed_packet {call : PlainCall} {bytes : Block} (h : call.packet = some bytes) :
    Framed bytes := by
  have hnil : ([] : Block).length ≤ 32 := by decide
  have hnumber : ∀ number : AtshaBigInt, number.data.val.length ≤ 32 :=
    fun number => number.data.property.le
  cases call with
  | random => exact framed_of_generateCommandPacket hnil h
  | slotRead slotNumber =>
    obtain ⟨address, -, hread⟩ := Option.bind_eq_some_iff.mp h
    exact framed_of_generateCommandPacket hnil hread
  | confRead address => exact framed_of_generateCommandPacket hnil h
  | otpRead address => exact framed_of_generateCommandPacket hnil h
  | respond kind slotNumber challenge useSn =>
    cases kind with
    | hmac => exact framed_of_generateCommandPacket hnil h
    | mac => exact framed_of_generateCommandPacket (hnumber challenge) h
  | write call data => exact framed_of_generateCommandPacket (hnumber data) h
  | lockConfig crc => exact framed_of_generateCommandPacket hnil h
  | lockData crc => exact framed_of_generateCommandPacket hnil h

/-- A nonce that is built begins with its length. -/
theorem framed_nonce {challenge : AtshaBigInt} {bytes : Block}
    (h : opNonce challenge.bytes challenge.data.val = some bytes) : Framed bytes :=
  framed_of_generateCommandPacket challenge.data.property.le h

/-! ## Over the link -/

/-- What the link answers is a packet of at least three bytes. -/
theorem framed_of_answers {bus : I2cBus σ} {packet answer : Block} {b b' : σ}
    (h : Answers bus packet b answer b') : Framed answer ∧ 3 ≤ answer.length := by
  unfold Answers at h
  generalize maxAttempts = n at h
  generalize AtshaErr.ok = status at h
  induction h with
  | later _ _ ih => exact ih
  | @here n status b b' answer hrun =>
    rw [linkAttempt_run] at hrun
    cases hframe : (commandExchange bus packet b).1 with
    | none => simp [hframe] at hrun
    | some frame =>
      simp only [hframe] at hrun
      rcases judgeCommand_cases frame with hj | ⟨_, _, hj | hj⟩ | ⟨received, hj, hanswer, hcheck, -⟩
      · simp [hj] at hrun
      · simp [hj] at hrun
      · simp [hj] at hrun
      · rw [hj] at hrun
        obtain rfl := Verdict.accept.inj (EStateM.Result.ok.inj hrun).1
        exact framed_of_checkPacket hanswer hcheck

section Link

variable {s : St σ} (hlayer : s.handle.bottomLayer = .ni2c)
include hlayer

/-- Sending a packet succeeds with what the link answers. -/
theorem send_ok_iff {bytes : Block} (hframed : Framed bytes) (answer : Block)
    (P : AtshaHandle → σ → Prop) :
    (∃ s', (send env bytes).run s = .ok (.ok, some answer) s' ∧ P s'.handle s'.bus) ↔
      ∃ b', Answers env.bus bytes s.bus answer b' ∧ P s.handle b' := by
  have hiff := @command_ok_iff σ env s hlayer (nestedSlotRead env) bytes hframed
    fun reply handle b => reply = some answer ∧ P handle b
  constructor
  · rintro ⟨s', hrun, hP⟩
    obtain ⟨answer', b', hanswers, hanswer, hP⟩ := hiff.mp ⟨_, s', hrun, rfl, hP⟩
    obtain rfl := Option.some.inj hanswer
    exact ⟨b', hanswers, hP⟩
  · rintro ⟨b', hanswers, hP⟩
    obtain ⟨_, s', hrun, rfl, hP⟩ := hiff.mpr ⟨answer, b', hanswers, rfl, hP⟩
    exact ⟨s', hrun, hP⟩

/-- `wake` succeeds where the link confirms a wake, or the device is expected to be awake. -/
theorem wake_wakes_iff (P : AtshaHandle → σ → Prop) :
    (∃ s', (wake env).run s = .ok .ok s' ∧ P s'.handle s'.bus) ↔
      ∃ b', Wakes env.bus s.handle.wakeIsExpected s.bus b' ∧
        P { s.handle with wakeIsExpected := true } b' := by
  by_cases hflag : s.handle.wakeIsExpected = true
  · have hrun : (wake env).run s = .ok .ok s := by
      rw [run_eq_ok_iff]
      simp only [wake, wp_bind, wp_getHandle, hflag, if_true, wp_pure, and_self]
    have hhandle : { s.handle with wakeIsExpected := true } = s.handle := by rw [← hflag]
    simp only [Wakes, hflag, if_true, hhandle, hrun, EStateM.Result.ok.injEq, true_and]
    constructor
    · rintro ⟨s', rfl, hP⟩
      exact ⟨s.bus, rfl, hP⟩
    · rintro ⟨b', rfl, hP⟩
      exact ⟨s, rfl, hP⟩
  · have hasleep : s.handle.wakeIsExpected = false := by simpa using hflag
    simp only [Wakes, hasleep, Bool.false_eq_true, if_false]
    exact wake_ok_iff hlayer hasleep P

/-- Loading a nonce succeeds where the link answers success.
SOURCE: api.c:518-534 -/
theorem loadNonce_ok_iff (challenge : AtshaBigInt) (P : AtshaHandle → σ → Prop) :
    (∃ s', (loadNonce env challenge).run s = .ok (.ok, ()) s' ∧ P s'.handle s'.bus) ↔
      ∃ bytes answer b', opNonce challenge.bytes challenge.data.val = some bytes ∧
        Answers env.bus bytes s.bus answer b' ∧ Takes none answer ∧ P s.handle b' := by
  have hrun : ∀ s', (loadNonce env challenge).run s = .ok (.ok, ()) s' ↔ ∃ bytes answer s₁,
      opNonce challenge.bytes challenge.data.val = some bytes ∧
        (send env bytes).run s = .ok (.ok, some answer) s₁ ∧ Takes none answer ∧ s' = s₁ := by
    intro s'
    have hexchange : loadNonce env challenge = exchange (send env)
      (opNonce challenge.bytes challenge.data.val) () decodeStatus := rfl
    rw [hexchange, run_exchange_ok_iff]
    simp only [decodeStatus_ok_iff]
  constructor
  · rintro ⟨s', h, hP⟩
    obtain ⟨bytes, answer, s₁, hpacket, hsend, htakes, rfl⟩ := (hrun s').mp h
    obtain ⟨b', hanswers, hP⟩ :=
      (send_ok_iff hlayer (framed_nonce hpacket) answer P).mp ⟨s', hsend, hP⟩
    exact ⟨bytes, answer, b', hpacket, hanswers, htakes, hP⟩
  · rintro ⟨bytes, answer, b', hpacket, hanswers, htakes, hP⟩
    obtain ⟨s', hsend, hP⟩ :=
      (send_ok_iff hlayer (framed_nonce hpacket) answer P).mpr ⟨b', hanswers, hP⟩
    exact ⟨s', (hrun s').mpr ⟨bytes, answer, s', hpacket, hsend, htakes, rfl⟩, hP⟩

/-- The prologue of a call succeeds where the link leads up to its packet. -/
theorem prologue_ok_iff (call : PlainCall) (P : AtshaHandle → σ → Prop) :
    (∃ s', (call.prologue env).run s = .ok .ok s' ∧ P s'.handle s'.bus) ↔
      ∃ b', call.Before env.bus s.handle.wakeIsExpected s.bus b' ∧
        P { s.handle with wakeIsExpected := true } b' := by
  match call with
  | .respond .hmac slotNumber challenge useSn =>
    simp only [run_prologue_hmac_iff, PlainCall.Before]
    have hwake := @wake_wakes_iff σ env s hlayer fun handle b => handle.bottomLayer = .ni2c ∧
      ∃ bytes answer b', opNonce challenge.bytes challenge.data.val = some bytes ∧
        Answers env.bus bytes b answer b' ∧ Takes none answer ∧ P handle b'
    constructor
    · rintro ⟨s', ⟨s₀, hrun, hnonce⟩, hP⟩
      have hlayer₀ : s₀.handle.bottomLayer = .ni2c := by
        rw [((wp_wake_trace hlayer).of_run hrun).1]
        exact hlayer
      obtain ⟨b₁, hwakes, -, bytes, answer, b', hpacket, hanswers, htakes, hP⟩ :=
        hwake.mp ⟨s₀, hrun, hlayer₀, (loadNonce_ok_iff hlayer₀ challenge P).mp ⟨s', hnonce, hP⟩⟩
      exact ⟨b', ⟨b₁, bytes, answer, hwakes, hpacket, hanswers, htakes⟩, hP⟩
    · rintro ⟨b', ⟨b₁, bytes, answer, hwakes, hpacket, hanswers, htakes⟩, hP⟩
      obtain ⟨s₀, hrun, hlayer₀, hlink⟩ := hwake.mpr
        ⟨b₁, hwakes, hlayer, bytes, answer, b', hpacket, hanswers, htakes, hP⟩
      obtain ⟨s', hnonce, hP⟩ := (loadNonce_ok_iff hlayer₀ challenge P).mpr hlink
      exact ⟨s', ⟨s₀, hrun, hnonce⟩, hP⟩
  | .respond .mac .. | .random | .slotRead _ | .confRead _ | .otpRead _ | .write .. |
    .lockConfig _ | .lockData _ => exact wake_wakes_iff hlayer P

/-- An answer is delivered where the link leads up to the packet and answers it. -/
theorem delivered_iff (call : PlainCall) (answer : Block) :
    (∃ s₁ s₂, Delivered env (call.prologue env) call.packet s answer s₁ s₂) ↔
      ∃ b₁ bytes b₂, call.Before env.bus s.handle.wakeIsExpected s.bus b₁ ∧
        call.packet = some bytes ∧ Answers env.bus bytes b₁ answer b₂ := by
  have hprologue := @prologue_ok_iff σ env s hlayer call fun handle b =>
    handle.bottomLayer = .ni2c ∧ ∃ bytes b₂, call.packet = some bytes ∧
      Answers env.bus bytes b answer b₂
  have hlayers : ∀ s₁, (call.prologue env).run s = .ok .ok s₁ → s₁.handle.bottomLayer = .ni2c := by
    intro s₁ hrun
    obtain ⟨_, -, h⟩ := (@prologue_ok_iff σ env s hlayer call fun handle _ =>
      handle = s₁.handle).mp ⟨s₁, hrun, rfl⟩
    rw [← h]
    exact hlayer
  constructor
  · rintro ⟨s₁, s₂, hbefore, bytes, hpacket, hsend⟩
    have hlayer₁ := hlayers s₁ hbefore
    obtain ⟨b₂, hanswers, -⟩ := (send_ok_iff hlayer₁ (framed_packet hpacket) answer
      fun _ _ => True).mp ⟨s₂, hsend, trivial⟩
    obtain ⟨b₁, hlink, -, hanswered⟩ :=
      hprologue.mp ⟨s₁, hbefore, hlayer₁, bytes, b₂, hpacket, hanswers⟩
    obtain ⟨bytes, b₂, hpacket, hanswers⟩ := hanswered
    exact ⟨b₁, bytes, b₂, hlink, hpacket, hanswers⟩
  · rintro ⟨b₁, bytes, b₂, hlink, hpacket, hanswers⟩
    obtain ⟨s₁, hbefore, hlayer₁, bytes, b₂, hpacket, hanswers⟩ :=
      hprologue.mpr ⟨b₁, hlink, hlayer, bytes, b₂, hpacket, hanswers⟩
    obtain ⟨s₂, hsend, -⟩ := (send_ok_iff hlayer₁ (framed_packet hpacket) answer
      fun _ _ => True).mpr ⟨b₂, hanswers, trivial⟩
    exact ⟨s₁, s₂, hbefore, bytes, hpacket, hsend⟩

end Link

/-! ## The emulated device -/

/-- A read that goes well is answered with what is stored. -/
theorem ReadReply.answered {stored : Option Block} {reply : Reply} (h : ReadReply stored reply)
    (hok : reply.1 = .ok) : ∃ data, stored = some data ∧ reply.2 = some (answerPacket data) := by
  cases stored with
  | none => exact absurd hok h
  | some data =>
    have hreply : reply = (.ok, some (answerPacket data)) := h
    exact ⟨data, rfl, by rw [hreply]⟩

/-- The data that an emulated device answers a call with. -/
def EmulatedData (handle : AtshaHandle) (data : Block) : PlainCall → Prop
  | .confRead address => address = 0 ∧ (storedSn handle).isSome ∧ data.length = 32
  | call => call.asked = some data.length

section Emulation

variable {s : St σ} (hlayer : s.handle.bottomLayer = .emulation)
include hlayer

/-- A command that the emulator does not know.
SOURCE: emulation.c:479-483 -/
theorem wp_send_unimplemented {bytes : Block} {opcode : UInt8} (hopcode : peek bytes 1 = some opcode)
    (h : opcode = atsha204OpcodeDevRev ∨ opcode = atsha204OpcodeWrite ∨
      opcode = atsha204OpcodeLock) :
    wp (send env bytes) (fun reply s' => reply.1 = .notImplemented ∧ s'.handle = s.handle)
      (fun _ => False) s := by
  rw [send, wp_command_emulation hopcode hlayer]
  rcases h with rfl | rfl | rfl
  all_goals
    rw [if_neg (by decide), if_neg (by decide), if_neg (by decide), if_neg (by decide),
      if_neg (by decide)]
    exact ⟨rfl, rfl⟩

/-- A random number of the emulated device is always the same one.
SOURCE: emulation.c:264-279 -/
theorem wp_send_random :
    wp (send env (commandPacket atsha204OpcodeRandom 0 0 []))
      (fun reply s' => ∃ data : Block, data.length = 32 ∧
        reply = (.ok, some (answerPacket data)) ∧ s'.handle = s.handle) (fun _ => False) s := by
  rw [send, wp_command_emulation (peek_opcode ..) hlayer, if_neg (by decide), if_neg (by decide),
    if_neg (by decide), if_neg (by decide), if_pos rfl, emulRandom, wp_answerWith_all (by decide)
    (by decide)]
  exact ⟨_, by decide, rfl, rfl⟩

/-- The emulator takes any nonce that is there.
SOURCE: emulation.c:41-50 -/
theorem wp_send_nonce {challenge : AtshaBigInt} {bytes : Block}
    (hpacket : opNonce challenge.bytes challenge.data.val = some bytes) :
    wp (send env bytes) (fun reply _ => reply = (.ok, some (answerPacket [atsha204StatusSucces])))
      (fun _ => True) s := by
  obtain ⟨sent, -, rfl⟩ := exists_of_generateCommandPacket challenge.data.property.le hpacket
  rw [send, wp_command_emulation (peek_opcode ..) hlayer, if_neg (by decide), if_neg (by decide),
    if_neg (by decide), if_pos rfl]
  simp only [emulNonce, wp_bind, wp_access, wp_getHandle, wp_modifyHandle]
  cases copyOut ((commandPacket atsha204OpcodeNonce 0x03 0 sent).drop 5) atsha204SlotByteLen with
  | none => trivial
  | some nonce =>
    simp only
    split
    · rw [wp_answerWith_all rfl (by decide)]
    · trivial

/-- A success comes with the data of the call. -/
def AnswersCall (handle : AtshaHandle) (call : PlainCall) (reply : Reply) : Prop :=
  reply.1 = .ok → ∃ data, reply.2 = some (answerPacket data) ∧ EmulatedData handle data call

/-- A read is answered as the call wants it, where the stored bytes are what the call is about. -/
theorem wp_send_read_emulation {call : PlainCall} (zone address : UInt8)
    (hdata : ∀ data, storedData s.handle zone address = some data →
      EmulatedData s.handle data call) :
    wp (send env (commandPacket atsha204OpcodeRead zone address.toUInt16 []))
      (fun reply _ => AnswersCall s.handle call reply) (fun _ => True) s := by
  refine wp_mono (wp_command_read zone address hlayer) ?_ fun _ _ => trivial
  rintro reply s' ⟨-, hreply⟩ hok
  obtain ⟨data, hstored, hanswer⟩ := hreply.answered hok
  exact ⟨data, hanswer, hdata data hstored⟩

/-- What the emulation does not implement is answered with a bad status. -/
theorem wp_send_unknown_emulation {call : PlainCall} {opcode param1 : UInt8} {param2 : UInt16}
    (data : Block) (hopcode : opcode = atsha204OpcodeDevRev ∨ opcode = atsha204OpcodeWrite ∨
      opcode = atsha204OpcodeLock) :
    wp (send env (commandPacket opcode param1 param2 data))
      (fun reply _ => AnswersCall s.handle call reply) (fun _ => True) s := by
  refine wp_mono (wp_send_unimplemented hlayer (peek_opcode ..) hopcode) ?_ fun _ _ => trivial
  rintro reply s' ⟨hbad, -⟩ hok
  rw [hbad] at hok
  cases hok

omit hlayer in
/-- A digest of 32 bytes is an answer to the call that asks for it. -/
theorem answersCall_of_digest {stored serial : Option Block}
    {digest : Block → Block → Option Block} {reply : Reply} {s' : St σ} {kind : DigestKind}
    {slotNumber : UInt8} {challenge : AtshaBigInt} {useSn : Bool}
    (hlen : ∀ key part data, digest key part = some data → data.length = 32)
    (hreply : AfterDigest stored serial digest s reply s') :
    AnswersCall s.handle (.respond kind slotNumber challenge useSn) reply := by
  intro hok
  cases stored with
  | none => exact absurd hok hreply.1
  | some key =>
    cases serial with
    | none => exact hreply.elim
    | some part =>
      obtain ⟨data, hdata, hanswer⟩ := hreply.2.answered hok
      exact ⟨data, hanswer, congrArg some (hlen key part data hdata).symm⟩

/-- What an emulated device answers the packet of a call with. -/
theorem wp_send_emulation {call : PlainCall} (h : ¬ call.Refused) {bytes : Block}
    (hpacket : call.packet = some bytes) :
    wp (send env bytes) (fun reply _ => AnswersCall s.handle call reply) (fun _ => True) s := by
  cases call with
  | random =>
    rw [PlainCall.packet, opRandom_eq] at hpacket
    obtain rfl := Option.some.inj hpacket
    refine wp_mono (wp_send_random hlayer) ?_ fun _ _ => trivial
    rintro reply s' ⟨data, hlen, rfl, -⟩ -
    exact ⟨data, rfl, congrArg some hlen.symm⟩
  | slotRead slotNumber =>
    have hslot : slotNumber ≤ atsha204MaxSlotNumber := UInt8.not_lt.mp h
    simp only [PlainCall.packet, getSlotAddress_eq hslot, Option.bind_eq_bind, Option.bind_some,
      opRawRead_eq, Option.some.injEq] at hpacket
    subst hpacket
    refine wp_send_read_emulation hlayer _ _ fun data hdata => ?_
    rw [storedData, if_neg (by decide), if_pos (by decide)] at hdata
    exact congrArg some (storedSlot_length hdata).symm
  | confRead address =>
    rw [PlainCall.packet, opRawRead_eq] at hpacket
    obtain rfl := Option.some.inj hpacket
    refine wp_send_read_emulation hlayer _ _ fun data hdata => ?_
    rw [storedData, if_pos (by decide)] at hdata
    split at hdata
    · rename_i hzero
      obtain ⟨sn, hsn, rfl⟩ := Option.map_eq_some_iff.mp hdata
      exact ⟨hzero, by rw [hsn]; rfl, withHole_length (storedSn_length hsn)⟩
    · cases hdata
  | otpRead address =>
    rw [PlainCall.packet, opRawRead_eq] at hpacket
    obtain rfl := Option.some.inj hpacket
    refine wp_send_read_emulation hlayer _ _ fun data hdata => ?_
    rw [storedData, if_neg (by decide), if_neg (by decide), if_pos (by decide)] at hdata
    exact congrArg some (storedOtp_length hdata).symm
  | respond kind slotNumber challenge useSn =>
    have hslot : slotNumber ≤ atsha204MaxSlotNumber := UInt8.not_lt.mp fun hlt => h (.inl hlt)
    have hbytes : challenge.bytes = 32 := not_not.mp fun hne => h (.inr hne)
    have hdigest := @wp_send_digest σ env s hlayer slotNumber hslot challenge.data useSn
    cases kind with
    | hmac =>
      rw [PlainCall.packet, opHmac_eq] at hpacket
      obtain rfl := Option.some.inj hpacket
      refine wp_mono hdigest.1 ?_ fun _ _ => trivial
      intro reply s' hreply
      exact answersCall_of_digest (fun _ _ _ => digest_length) hreply
    | mac =>
      rw [PlainCall.packet, hbytes, opMac_eq _ _ challenge.data.property] at hpacket
      obtain rfl := Option.some.inj hpacket
      refine wp_mono hdigest.2 ?_ fun _ _ => trivial
      intro reply s' hreply
      exact answersCall_of_digest (fun _ _ _ => digest_length) hreply
  | write call data =>
    obtain ⟨sent, -, rfl⟩ := exists_of_generateCommandPacket data.data.property.le hpacket
    exact wp_send_unknown_emulation hlayer sent (.inr (.inl rfl))
  | lockConfig crc =>
    rw [PlainCall.packet, opLock_eq] at hpacket
    obtain rfl := Option.some.inj hpacket
    exact wp_send_unknown_emulation hlayer [] (.inr (.inr rfl))
  | lockData crc =>
    rw [PlainCall.packet, opLock_eq] at hpacket
    obtain rfl := Option.some.inj hpacket
    exact wp_send_unknown_emulation hlayer [] (.inr (.inr rfl))

/-- The prologue of a call leaves an emulated device with the same data for it. -/
theorem prologue_emulation {call : PlainCall} (h : ¬ call.Refused) {s₁ : St σ}
    (hrun : (call.prologue env).run s = .ok .ok s₁) : s₁.handle.bottomLayer = .emulation ∧
      ∀ data, EmulatedData s₁.handle data call → EmulatedData s.handle data call := by
  have hwake : (wake env).run s = .ok .ok s₁ → s₁.handle.bottomLayer = .emulation ∧
      ∀ data, EmulatedData s₁.handle data call → EmulatedData s.handle data call := by
    intro hwake
    rw [wake_run_emulation hlayer] at hwake
    obtain ⟨-, rfl⟩ := EStateM.Result.ok.inj hwake
    exact ⟨hlayer, fun _ hdata => hdata⟩
  match call with
  | .respond .hmac slotNumber challenge useSn =>
    have hbytes : challenge.bytes = 32 := not_not.mp fun hne => h (.inr hne)
    obtain ⟨s₀, hwake, hnonce⟩ := (run_prologue_hmac_iff _ _ _ _ _).mp hrun
    rw [wake_run_emulation hlayer] at hwake
    obtain ⟨-, rfl⟩ := EStateM.Result.ok.inj hwake
    rw [loadNonce, hbytes] at hnonce
    have hkept := ((@wp_nonceExchange σ env (flagged true s) hlayer challenge.data).of_run hnonce).2
    exact ⟨hkept.bottomLayer.trans hlayer, fun _ hdata => hdata⟩
  | .respond .mac .. | .random | .slotRead _ | .confRead _ | .otpRead _ | .write .. |
    .lockConfig _ | .lockData _ => exact hwake hrun

/-- An emulated device delivers the data it has for a call. -/
theorem delivered_emulation {call : PlainCall} (h : ¬ call.Refused) {answer : Block}
    {s₁ s₂ : St σ} (hdelivered : Delivered env (call.prologue env) call.packet s answer s₁ s₂) :
    ∃ data, answer = answerPacket data ∧ EmulatedData s.handle data call := by
  obtain ⟨hbefore, bytes, hpacket, hsend⟩ := hdelivered
  obtain ⟨hlayer₁, hsame⟩ := prologue_emulation hlayer h hbefore
  obtain ⟨data, hanswer, hdata⟩ := (wp_send_emulation hlayer₁ h hpacket).of_run hsend rfl
  exact ⟨data, Option.some.inj hanswer, hsame data hdata⟩

/-- Of the configuration, an emulated device has the first word only, and gives 32 bytes
for it.
SOURCE: api.c:697-733, emulation.c:285-347 -/
theorem wp_confRead_emulation (address : UInt8) (number : AtshaBigInt) :
    wp (atshaRawConfRead env address number)
      (AfterRead (if address = 0 then (storedSn s.handle).map withHole else none) s)
      (fun _ => (if address = 0 then (storedSn s.handle).map withHole else none) = none) s := by
  have hstored : storedData s.handle (getZoneConfig ioMemConfig ioRwNonEnc ioRw4Bytes) address =
      (if address = 0 then (storedSn s.handle).map withHole else none).map id := by
    rw [storedData, if_pos (by decide), Option.map_id_fun, id]
  have hlen : ∀ data, (if address = 0 then (storedSn s.handle).map withHole else none) = some data →
      data.length = 32 := by
    intro data hdata
    split at hdata
    · obtain ⟨sn, hsn, rfl⟩ := Option.map_eq_some_iff.mp hdata
      exact withHole_length (storedSn_length hsn)
    · cases hdata
  rw [atshaRawConfRead, opRawRead_eq]
  refine wp_readSession (fun _ => rfl) hlayer hstored (fun data hdata => ?_) fun data hdata s => ?_
  · have := hlen data hdata
    omega
  · exact wp_opRawReadRecv_answer (hlen data hdata).le number.data s

end Emulation

end Atsha204.Analysis
