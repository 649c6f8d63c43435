import Atsha204.Analysis.NativeSessions
import Atsha204.Interface.Alarm

/-!
# How often a call waits for the device

A wake or a command that goes well has waited once or more, and exactly once where its first
attempt is accepted (`wake_at_once`, `send_at_once`). So a call that succeeds has waited for its
wake and for each of its commands, whatever the bus does, and leaves the device asleep
(`plainCall_rests`).
-/

set_option autoImplicit false

namespace Atsha204.Analysis

open Atsha204.Library
open Atsha204.Model
open Atsha204.Interface

variable {σ α : Type} {env : Env σ}

/-! ## Counting -/

/-- An event is a wait or it is not. -/
theorem ni2cWaits_exchanged (s : St σ) (bus : σ) (e : Event σ) :
    (s.exchanged bus e).ni2cWaits = s.ni2cWaits + if e.ni2cWait then 1 else 0 := by
  rw [St.ni2cWaits, St.exchanged_trace, List.countP_append, List.countP_singleton]
  rfl

/-- Lines given to the log are no waits. -/
theorem ni2cWaits_after (s : St σ) (bus : σ) (events : List (Event σ)) (messages : List String) :
    (s.after bus events messages).ni2cWaits = s.ni2cWaits + events.countP Event.ni2cWait := by
  have hmessages : (messages.map (Event.message (σ := σ))).countP Event.ni2cWait = 0 := by
    rw [List.countP_map]
    exact List.countP_false ▸ rfl
  rw [St.ni2cWaits, St.after_trace, List.countP_append, List.countP_append, hmessages]
  rfl

/-- An attempt that brings a frame has waited once. -/
def WaitsOnce (exchange : σ → Option Frame × σ) (events : σ → List (Event σ)) : Prop :=
  ∀ b, (exchange b).1.isSome → (events b).countP Event.ni2cWait = 1

/-- An attempt to wake that brings a frame has waited once. -/
theorem wakeEvents_waits (bus : I2cBus σ) : WaitsOnce (wakeExchange bus) (wakeEvents bus) := by
  intro b hframe
  simp only [wakeExchange, wakeEvents] at hframe ⊢
  split_ifs at hframe ⊢
  · rfl
  all_goals cases hframe

/-- So has an attempt to send a command. -/
theorem commandEvents_waits (bus : I2cBus σ) (packet : Block) :
    WaitsOnce (commandExchange bus packet) (commandEvents bus packet) := by
  intro b hframe
  simp only [commandExchange, commandEvents] at hframe ⊢
  split_ifs at hframe ⊢ with hwritten
  · rw [hwritten]
    rfl
  · cases hframe

/-- The idle byte is not waited for. -/
theorem ni2cWaits_idle (s : St σ) (handle : AtshaHandle) (bus : σ) (ok : Bool) (before : σ) :
    St.ni2cWaits { s.exchanged bus (.written [atsha204I2cWaIdle] ok before) with
      handle := handle } = s.ni2cWaits := by
  change (s.exchanged bus _).ni2cWaits = _
  rw [ni2cWaits_exchanged]
  cases ok <;> rfl

/-! ## At once -/

/-- What is accepted at once is accepted. -/
theorem AtOnce.accepts {exchange : σ → Option Frame × σ}
    {judge : Frame → Option (Verdict AtshaErr Block)} {b b' : σ} {answer : Block}
    (h : AtOnce exchange judge b answer b') :
    Accepts (linkAttempt exchange judge) maxAttempts .ok b answer b' := by
  obtain ⟨frame, hexchange, hjudge⟩ := h
  refine .here ?_
  rw [linkAttempt_run, hexchange]
  simp only [hjudge]

/-- A loop whose first attempt is accepted ends with it. -/
theorem retry_at_once {handle : AtshaHandle} {attempt : Reply → Prog σ (Verdict Reply Reply)}
    {exchange : σ → Option Frame × σ} {judge : Frame → Option (Verdict AtshaErr Block)}
    {events : σ → List (Event σ)} (hspec : AttemptSpec handle attempt exchange judge events)
    (hwaits : WaitsOnce exchange events) {s : St σ} (hs : s.handle = handle) {answer : Block}
    {b' : σ} (h : AtOnce exchange judge s.bus answer b') :
    ∃ s', (retry attempt maxAttempts (.ok, none)).run s = .ok (.ok (.ok, some answer)) s' ∧
      s'.handle = s.handle ∧ s'.bus = b' ∧ s'.ni2cWaits = s.ni2cWaits + 1 := by
  obtain ⟨frame, hexchange, hjudge⟩ := h
  have hattempt : wp (attempt (.ok, none)) (fun v s' => v = .accept (.ok, some answer) ∧
      s'.handle = s.handle ∧ s'.bus = b' ∧ s'.ni2cWaits = s.ni2cWaits + 1)
      (fun _ => False) s := by
    refine hspec s hs .ok _ _ fun messages => .of_accept (by rw [hexchange]) hjudge ?_
    refine ⟨rfl, rfl, by rw [St.after_bus, hexchange], ?_⟩
    rw [ni2cWaits_after, hwaits s.bus (by rw [hexchange]; rfl)]
  obtain ⟨_, s', hrun, rfl, hs'⟩ := (wp_returns_iff _ _ _).mp hattempt
  refine ⟨s', ?_, hs'⟩
  rw [show maxAttempts = 6 + 1 from rfl, retry, run_bind_of_run hrun]
  rfl

section AtOnce

variable {s : St σ} (hlayer : s.handle.bottomLayer = .ni2c)
include hlayer

/-- A wake that is confirmed at once. -/
theorem wake_at_once (hasleep : s.handle.wakeIsExpected = false) {answer : Block} {b' : σ}
    (h : AtOnce (wakeExchange env.bus) judgeWake s.bus answer b') :
    ∃ s', (wake env).run s = .ok .ok s' ∧
      s'.handle = { s.handle with wakeIsExpected := true } ∧ s'.bus = b' ∧
      s'.ni2cWaits = s.ni2cWaits + 1 := by
  obtain ⟨s', hrun, hhandle, hbus, hwaits⟩ :=
    retry_at_once (wakeAttempt_spec hlayer) (wakeEvents_waits env.bus) rfl h
  refine ⟨{ s' with handle := { s'.handle with wakeIsExpected := true } }, ?_, ?_, hbus, hwaits⟩
  · rw [wake_run hasleep, hrun]
    rfl
  · rw [← hhandle]

/-- A command that is answered at once. -/
theorem send_at_once {packet answer : Block} (hpacket : Framed packet) {b' : σ}
    (h : AtOnce (commandExchange env.bus packet) judgeCommand s.bus answer b') :
    ∃ s', (send env packet).run s = .ok (.ok, some answer) s' ∧ s'.handle = s.handle ∧
      s'.bus = b' ∧ s'.ni2cWaits = s.ni2cWaits + 1 := by
  obtain ⟨s', hrun, hs'⟩ := retry_at_once
    (@commandAttempt_spec σ env _ hlayer (nestedSlotRead env) _ _ (sentBytes_of_framed hpacket))
    (commandEvents_waits env.bus packet) rfl h
  refine ⟨s', ?_, hs'⟩
  rw [send, command_run, hrun]
  rfl

end AtOnce

/-! ## At least -/

/-- The handle is on the native layer, the device is not expected to be awake, and since the
earlier state the library has waited so often or more. -/
structure Rested (n : ℕ) (s s' : St σ) : Prop where
  layer : s'.handle.bottomLayer = .ni2c
  asleep : s'.handle.wakeIsExpected = false
  waits : s.ni2cWaits + n ≤ s'.ni2cWaits

/-- The waits of two parts add up. -/
theorem Rested.trans {n m : ℕ} {s s₁ s' : St σ} (h : Rested n s s₁) (h' : Rested m s₁ s') :
    Rested (n + m) s s' :=
  ⟨h'.layer, h'.asleep, by have := h.waits; have := h'.waits; omega⟩

/-- No wait is taken back. -/
theorem ni2cWaits_trail {P : Event σ → Prop} {s s' : St σ} (h : Trail P s s') :
    s.ni2cWaits ≤ s'.ni2cWaits := by
  obtain ⟨events, htrace, -⟩ := h
  rw [St.ni2cWaits, St.ni2cWaits, htrace, List.countP_append]
  exact Nat.le_add_right _ _

/-- No exchange takes a wait back. -/
theorem undisturbed_waits (bus : I2cBus σ) (such : Block → Prop) (n : ℕ) :
    Undisturbed bus such fun s => n ≤ s.ni2cWaits where
  handles := fun _ _ hn => hn
  logged := by
    rintro s _ ⟨messages, rfl⟩ hn
    rw [ni2cWaits_after]
    exact hn
  wakes := fun s hn => by
    rw [ni2cWaits_after]
    exact hn.trans (Nat.le_add_right _ _)
  commands := fun packet s _ hn => by
    rw [ni2cWaits_after]
    exact hn.trans (Nat.le_add_right _ _)
  idles := fun s hn => by
    rw [ni2cWaits_exchanged]
    exact hn.trans (Nat.le_add_right _ _)

/-- A program that, where it ends well, has waited so often or more. -/
def Waits (n : ℕ) (x : Prog σ (AtshaErr × α)) : Prop :=
  ∀ s, s.handle.bottomLayer = .ni2c → wp x (fun r s' => s'.handle.bottomLayer = .ni2c ∧
    (r.1 = .ok → s.ni2cWaits + n ≤ s'.ni2cWaits)) (fun _ => True) s

/-- A loop that ends well has waited once or more. -/
theorem retry_waits {exchange : σ → Option Frame × σ}
    {judge : Frame → Option (Verdict AtshaErr Block)} (hjudge : GivesUpBadly judge)
    {attempt : Reply → Prog σ (Verdict Reply Reply)} {events : σ → List (Event σ)} {s : St σ}
    (hspec : AttemptSpec s.handle attempt exchange judge events)
    (hwaits : WaitsOnce exchange events) :
    wp (retry attempt maxAttempts (.ok, none)) (fun r s' => s'.handle = s.handle ∧
      ((loopReply r).1 = .ok → s.ni2cWaits + 1 ≤ s'.ni2cWaits)) (fun _ => True) s := by
  refine wp_retry_link hjudge hspec (fun _ s' => s.ni2cWaits ≤ s'.ni2cWaits) ?_ ?_ rfl
    (Nat.le_refl _)
  · intro n s₁ messages hs₁ hle
    have hafter : (s₁.after (exchange s₁.bus).2 (events s₁.bus) messages).ni2cWaits =
        s₁.ni2cWaits + (events s₁.bus).countP Event.ni2cWait := ni2cWaits_after ..
    have hagain : s.ni2cWaits ≤
        (s₁.after (exchange s₁.bus).2 (events s₁.bus) messages).ni2cWaits := by
      rw [hafter]
      exact hle.trans (Nat.le_add_right _ _)
    unfold AfterAttempt
    cases hframe : (exchange s₁.bus).1 with
    | none => exact hagain
    | some frame =>
      dsimp only
      cases hverdict : judge frame with
      | none => trivial
      | some verdict =>
        cases verdict with
        | accept answer =>
          refine ⟨hs₁, fun _ => ?_⟩
          rw [hafter, hwaits s₁.bus (by rw [hframe]; rfl)]
          exact Nat.add_le_add_right hle 1
        | again status => exact hagain
        | abort status =>
          exact ⟨hs₁, fun hok => absurd hok (hjudge frame status (.inr hverdict)).ne_ok⟩
  · exact fun status s₁ hstatus hs₁ _ => ⟨hs₁, fun hok => absurd hok hstatus.ne_ok⟩

/-- A command that is answered has waited once or more. -/
theorem send_waits {packet : Block} (hframed : Framed packet) :
    Waits 1 (send env packet) := by
  intro s hlayer
  rw [send, wp_command]
  refine wp_mono (retry_waits judgeCommand_givesUpBadly
    (commandAttempt_spec hlayer (sentBytes_of_framed hframed)) (commandEvents_waits env.bus packet))
    ?_ fun _ _ => trivial
  rintro r s' ⟨hhandle, hwaits⟩
  exact ⟨by rw [hhandle]; exact hlayer, hwaits⟩

/-- What keeps the waits where it ends well. -/
theorem Waits.of_keeps {x : Prog σ (AtshaErr × α)}
    (h : ∀ n, Keeps (Native fun s : St σ => n ≤ s.ni2cWaits) x) : Waits 0 x := by
  intro s hlayer
  have hkeeps := h s.ni2cWaits s ⟨hlayer, Nat.le_refl _⟩
  exact wp_mono hkeeps (fun _ _ hs' => ⟨hs'.layer, fun _ => hs'.kept⟩) fun _ _ => trivial

/-- One program, and another one where it ends well. -/
theorem Waits.andThen {β : Type} {n m : ℕ} {x : Prog σ (AtshaErr × α)}
    {f : α → Prog σ (AtshaErr × β)} (hx : Waits n x) (hf : ∀ a, Waits m (f a))
    {out : β} : Waits (n + m) (do
      let (status, a) ← x
      if status ≠ .ok then
        return (status, out)
      f a) := by
  intro s hlayer
  simp only [wp_bind]
  refine wp_mono (hx s hlayer) ?_ fun _ _ => trivial
  rintro ⟨status, a⟩ s₁ ⟨hlayer₁, hwaits₁⟩
  dsimp only
  split
  · rename_i hbad
    exact ⟨hlayer₁, fun hok => absurd hok hbad⟩
  · rename_i hgood
    refine wp_mono (hf a s₁ hlayer₁) ?_ fun _ _ => trivial
    rintro r s₂ ⟨hlayer₂, hwaits₂⟩
    refine ⟨hlayer₂, fun hok => ?_⟩
    have := hwaits₁ (not_not.mp hgood)
    have := hwaits₂ hok
    omega

/-- An exchange. -/
theorem exchange_waits {packet : Option Block}
    (hpacket : ∀ bytes, packet = some bytes → Framed bytes) (out : α)
    {decode : Block → Prog σ (AtshaErr × α)} (hdecode : ∀ answer, Waits 0 (decode answer)) :
    Waits 1 (exchange (send env) packet out decode) := by
  cases hbuilt : packet with
  | none => exact fun _ _ => trivial
  | some bytes =>
    have hanswer : ∀ answer : Option Block, Waits 0 (do decode (← access answer)) := by
      intro answer s hlayer
      cases answer with
      | none => trivial
      | some answer => exact hdecode answer s hlayer
    exact (send_waits (hpacket bytes hbuilt)).andThen hanswer

/-- A session that ends well has waited for its wake besides. -/
theorem session_rests (out : α) {body : Prog σ (AtshaErr × α)} {n : ℕ} (hbody : Waits n body)
    {s : St σ} (hlayer : s.handle.bottomLayer = .ni2c)
    (hasleep : s.handle.wakeIsExpected = false) :
    wp (session env out body) (fun r s' => r.1 = .ok → Rested (n + 1) s s') (fun _ => True) s := by
  rw [wp_session, wp_wake hasleep]
  refine wp_mono (retry_waits judgeWake_givesUpBadly (wakeAttempt_spec hlayer)
    (wakeEvents_waits env.bus)) ?_ fun _ _ => trivial
  rintro r s₁ ⟨hhandle, hwoken⟩
  split
  · rename_i hok
    have hlayer₁ : s₁.handle.bottomLayer = .ni2c := by rw [hhandle]; exact hlayer
    refine wp_mono (hbody _ hlayer₁) ?_ fun _ _ => trivial
    rintro r s₂ ⟨hlayer₂, hdone⟩
    split
    · rename_i hended
      intro _
      refine ⟨by rw [idled_handle]; exact hlayer₂, by rw [idled_handle], ?_⟩
      have hidle : (idled env s₂).ni2cWaits = s₂.ni2cWaits := by
        rw [idled_ni2c hlayer₂]
        exact ni2cWaits_idle s₂ _ _ _ _
      have hwoken := hwoken hok
      have hdone : s₁.ni2cWaits + n ≤ s₂.ni2cWaits := hdone hended
      omega
    · exact fun hok => absurd hok (by assumption)
  · exact fun hok => absurd hok (by assumption)

/-- How often a call has waited at least when it ends well: behind its wake and behind each of its
commands. -/
def PlainCall.leastWaits : PlainCall → ℕ
  | .respond .hmac .. => 3
  | _ => 2

/-- A call that ends well.
SOURCE: api.c:349-883 -/
theorem plainCall_rests (call : PlainCall) (number : AtshaBigInt) {s : St σ}
    (hlayer : s.handle.bottomLayer = .ni2c) (hasleep : s.handle.wakeIsExpected = false) :
    wp (call.run env number) (fun r s' => r.1 = .ok → Rested (PlainCall.leastWaits call) s s')
      (fun _ => True) s := by
  by_cases hrefused : call.Refused
  · refine wp_mono (plainCall_refused hrefused number s) ?_ fun _ _ => trivial
    rintro _ s' ⟨rfl, -⟩ hok
    cases hok
  have hdecode : ∀ asked number answer, Waits 0 (decode (σ := σ) asked number answer) :=
    fun asked number answer => .of_keeps fun n =>
      decode_native (undisturbed_waits env.bus (fun _ => True) n) asked number answer
  have hrequest : Waits 1 (exchange (send env) call.packet number (decode call.asked number)) :=
    exchange_waits (fun _ => framed_packet) number (hdecode _ _)
  rw [plainCall_run hrefused]
  cases call with
  | respond kind slotNumber challenge useSn =>
    cases kind with
    | hmac =>
      have hnonce : Waits 1 (loadNonce env challenge) := by
        refine exchange_waits (fun _ => framed_nonce) () fun answer => .of_keeps fun n => ?_
        exact decodeStatus_native (undisturbed_waits env.bus (fun _ => True) n) answer
      exact session_rests number (hnonce.andThen fun _ => hrequest) hlayer hasleep
    | mac => exact session_rests number hrequest hlayer hasleep
  | _ => exact session_rests number hrequest hlayer hasleep

end Atsha204.Analysis
