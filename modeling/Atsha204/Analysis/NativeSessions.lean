import Atsha204.Analysis.ApiSessions

/-!
# What the operations keep on the native layer

What every exchange on the bus keeps, the operations of a native handle keep, however they end.
`Undisturbed` says what is asked of the exchanges: of the wakes, of the idle byte, and of the
commands with such packets as the operations send.
-/

set_option autoImplicit false

namespace Atsha204.Analysis

open Atsha204.Library
open Atsha204.Model
open Atsha204.Interface

variable {σ α : Type} {env : Env σ}

/-- What no exchange on the bus disturbs, as long as the packets are such, nor any line of the
log. It says nothing of the handle. -/
structure Undisturbed (bus : I2cBus σ) (such : Block → Prop) (I : St σ → Prop) : Prop where
  handles : ∀ s handle, I s → I { s with handle := handle }
  logged : ∀ s s', Logged s s' → I s → I s'
  wakes : ∀ s, I s → I (s.after (wakeExchange bus s.bus).2 (wakeEvents bus s.bus) [])
  commands : ∀ packet s, such packet → I s →
    I (s.after (commandExchange bus packet s.bus).2 (commandEvents bus packet s.bus) [])
  idles : ∀ s, I s → I (s.exchanged (bus.write [atsha204I2cWaIdle] s.bus).2
    (.written [atsha204I2cWaIdle] (bus.write [atsha204I2cWaIdle] s.bus).1 s.bus))

/-- Fewer packets disturb no more. -/
theorem Undisturbed.mono {bus : I2cBus σ} {such such' : Block → Prop} {I : St σ → Prop}
    (h : Undisturbed bus such I) (hsuch : ∀ packet, such' packet → such packet) :
    Undisturbed bus such' I :=
  { h with commands := fun packet s hpacket => h.commands packet s (hsuch packet hpacket) }

/-- The handle is on the native layer, and the state is as it should be. -/
structure Native (I : St σ → Prop) (s : St σ) : Prop where
  layer : s.handle.bottomLayer = .ni2c
  kept : I s

/-- Exchanges, and then lines of the log. -/
theorem logged_after (s : St σ) (bus : σ) (events : List (Event σ)) (messages : List String) :
    Logged (s.after bus events []) (s.after bus events messages) :=
  ⟨messages, by simp [St.after]⟩

/-- Something about the state of the bus. -/
theorem undisturbed_of_bus {bus : I2cBus σ} {such : Block → Prop} {I : σ → Prop}
    (hwakes : ∀ b, I b → I (wakeExchange bus b).2)
    (hcommands : ∀ packet b, such packet → I b → I (commandExchange bus packet b).2)
    (hidles : ∀ b, I b → I (bus.write [atsha204I2cWaIdle] b).2) :
    Undisturbed bus such fun s => I s.bus where
  handles := fun _ _ hI => hI
  logged := by
    rintro s _ ⟨messages, rfl⟩ hI
    exact hI
  wakes := fun s hI => hwakes s.bus hI
  commands := fun packet s hsuch hI => hcommands packet s.bus hsuch hI
  idles := fun s hI => hidles s.bus hI

/-- A kind of events, of which the exchanges are. -/
theorem undisturbed_of_trail {bus : I2cBus σ} {such : Block → Prop} {P : Event σ → Prop}
    (hwakes : ∀ e, OfWake e → P e)
    (hcommands : ∀ packet, such packet → ∀ e, OfCommand packet e → P e)
    (hidles : ∀ ok b, P (.written [atsha204I2cWaIdle] ok b)) (s₀ : St σ) :
    Undisturbed bus such (Trail P s₀) where
  handles := fun _ _ htrail => htrail
  logged := by
    rintro s _ ⟨messages, rfl⟩ htrail
    refine htrail.trans ⟨messages.map .message, by simp, fun e he => ?_⟩
    obtain ⟨text, -, rfl⟩ := List.mem_map.mp he
    exact hwakes _ trivial
  wakes := fun s htrail => htrail.trans ⟨wakeEvents bus s.bus, by simp,
    fun e he => hwakes e (ofWake_wakeEvents bus s.bus e he)⟩
  commands := fun packet s hsuch htrail => htrail.trans ⟨commandEvents bus packet s.bus, by simp,
    fun e he => hcommands packet hsuch e (ofCommand_commandEvents bus packet s.bus e he)⟩
  idles := fun s htrail => htrail.trans (.exchanged s _ (hidles _ _))

/-! ## Exchanges and sessions -/

section Sessions

variable {such : Block → Prop} {I : St σ → Prop} (h : Undisturbed env.bus such I)
include h

/-- Lines of the log disturb nothing. -/
theorem native_logged {s s' : St σ} (hlogged : Logged s s') (hs : Native I s) : Native I s' :=
  ⟨by rw [hlogged.handle]; exact hs.layer, h.logged s s' hlogged hs.kept⟩

/-- One line disturbs nothing. -/
theorem logMessage_native (text : String) : Keeps (Native I) (logMessage text) :=
  fun s hs => native_logged h (.message s text) hs

omit h in
/-- Nor does a partial access. -/
theorem access_native (o : Option α) : Keeps (Native I) (access o) := Keeps.orFault _ o

/-- A line for the log, and then a value. -/
theorem logged_native (text : String) (a : α) :
    Keeps (Native I) (do logMessage text; return a) :=
  (logMessage_native h text).bind fun _ => .pure a

/-- What every exchange of a loop keeps, the loop keeps. -/
theorem retry_keeps {exchange : σ → Option Frame × σ}
    {judge : Frame → Option (Verdict AtshaErr Block)} (hjudge : GivesUpBadly judge)
    {attempt : Reply → Prog σ (Verdict Reply Reply)} {events : σ → List (Event σ)} {s : St σ}
    (hspec : AttemptSpec s.handle attempt exchange judge events)
    (hexchange : ∀ s, I s → I (s.after (exchange s.bus).2 (events s.bus) []))
    (hs : Native I s) :
    wp (retry attempt maxAttempts (.ok, none)) (fun _ s' => Native I s') (Native I) s := by
  refine wp_retry_link hjudge hspec (fun _ s' => Native I s') ?_ (fun _ _ _ _ h => h) rfl hs
  rintro n s₁ messages - ⟨hlayer, hI⟩
  have hafter : Native I (s₁.after (exchange s₁.bus).2 (events s₁.bus) messages) :=
    native_logged h (logged_after ..) ⟨hlayer, hexchange s₁ hI⟩
  unfold AfterAttempt
  cases (exchange s₁.bus).1 with
  | none => exact hafter
  | some frame =>
    dsimp only
    cases judge frame with
    | none => exact hafter
    | some verdict => cases verdict <;> exact hafter

/-- What every wake keeps, all the attempts to wake keep. -/
theorem wake_native : Keeps (Native I) (wake env) := by
  intro s hs
  by_cases hflag : s.handle.wakeIsExpected = true
  · simp only [wake, wp_bind, wp_getHandle, hflag, if_true, wp_pure]
    exact hs
  · rw [wp_wake (by simpa using hflag)]
    refine wp_mono (retry_keeps h judgeWake_givesUpBadly (wakeAttempt_spec hs.layer) h.wakes hs)
      ?_ fun _ h => h
    exact fun _ s' hs' => ⟨hs'.layer, h.handles s' _ hs'.kept⟩

/-- What every such command keeps, all the attempts to send it keep. -/
theorem send_native {packet : Block} (hframed : Framed packet) (hsuch : such packet) :
    Keeps (Native I) (send env packet) := by
  intro s hs
  rw [send, wp_command]
  exact retry_keeps h judgeCommand_givesUpBadly
    (commandAttempt_spec hs.layer (sentBytes_of_framed hframed))
    (fun s => h.commands packet s hsuch) hs

/-- Letting the device idle. -/
theorem idled_native {s : St σ} (hs : Native I s) : Native I (idled env s) := by
  refine ⟨by rw [idled_handle]; exact hs.layer, ?_⟩
  rw [idled_ni2c hs.layer]
  exact h.handles _ _ (h.idles s hs.kept)

/-- A session keeps what its body keeps, and the wakes and the idle byte. -/
theorem session_native (out : α) {body : Prog σ (AtshaErr × α)} (hbody : Keeps (Native I) body) :
    Keeps (Native I) (session env out body) := by
  intro s hs
  rw [wp_session]
  refine wp_mono (wake_native h s hs) ?_ fun _ hE => hE
  intro status s₁ hs₁
  split
  · refine wp_mono (hbody s₁ hs₁) ?_ fun _ hE => hE
    intro r s₂ hs₂
    split
    · exact idled_native h hs₂
    · exact hs₂
  · exact hs₁

/-- Such a packet is sent, and its answer decoded. -/
theorem exchange_native {packet : Option Block}
    (hpacket : ∀ bytes, packet = some bytes → Framed bytes ∧ such bytes) (out : α)
    {decode : Block → Prog σ (AtshaErr × α)}
    (hdecode : ∀ answer, Keeps (Native I) (decode answer)) :
    Keeps (Native I) (exchange (send env) packet out decode) := by
  cases hbuilt : packet with
  | none => exact .throw _
  | some bytes =>
    obtain ⟨hframed, hsuch⟩ := hpacket bytes hbuilt
    apply (send_native h hframed hsuch).bind
    rintro ⟨status, answer⟩
    dsimp only
    split
    · exact .pure _
    · exact (access_native _).bind hdecode

/-- Decoding data disturbs nothing. -/
theorem readLongData_native (answer : Block) (buffer : List.Vector UInt8 atshaMaxDataSize) :
    Keeps (Native I) (readLongData answer buffer) := by
  unfold readLongData
  apply (access_native _).bind
  intro count
  dsimp only
  split
  · exact logged_native h _ _
  · exact (access_native _).bind fun _ => (access_native _).bind fun _ => .pure _

omit h in
/-- Nor does decoding data into a number. -/
theorem decodeData_native {recv : DataRecv σ}
    (hrecv : ∀ answer buffer, Keeps (Native I) (recv answer buffer)) (number : AtshaBigInt)
    (answer : Block) : Keeps (Native I) (decodeData recv number answer) := by
  apply (hrecv answer number.data).bind
  rintro ⟨size, data⟩
  dsimp only
  split
  · exact .pure _
  · exact .pure _

/-- Nor does decoding a status. -/
theorem decodeStatus_native (answer : Block) : Keeps (Native I) (decodeStatus answer) := by
  have hstatus : Keeps (Native I) (justCheckStatus answer) := by
    apply (access_native _).bind
    intro status
    split
    · exact .pure _
    · exact logged_native h _ _
  exact hstatus.bind fun _ => .pure _

/-- Nor does any decoder of a plain call. -/
theorem decode_native (asked : Option ℕ) (number : AtshaBigInt) (answer : Block) :
    Keeps (Native I) (decode asked number answer) := by
  cases asked with
  | some n => exact decodeData_native (readLongData_native h) number answer
  | none => exact (decodeStatus_native h answer).bind fun _ => .pure _

/-- What the exchanges with its packets keep, a plain call keeps.
SOURCE: api.c:349-883 -/
theorem plainCall_native (call : PlainCall)
    (hpacket : ¬ call.Refused → ∀ bytes, call.packet = some bytes → such bytes)
    (hnonce : ∀ slotNumber challenge useSn, call = .respond .hmac slotNumber challenge useSn →
      ¬ call.Refused → ∀ bytes, opNonce challenge.bytes challenge.data.val = some bytes →
        such bytes) (number : AtshaBigInt) : Keeps (Native I) (call.run env number) := by
  by_cases hrefused : call.Refused
  · intro s hs
    exact wp_mono (plainCall_refused hrefused number s)
      (fun _ s' hs' => native_logged h hs'.2 hs) fun _ hF => hF.elim
  · rw [plainCall_run hrefused]
    have hrequest := exchange_native h (fun bytes hbytes =>
      ⟨framed_packet hbytes, hpacket hrefused bytes hbytes⟩) number (decode_native h call.asked number)
    apply session_native h
    cases call with
    | respond kind slotNumber challenge useSn =>
      cases kind with
      | hmac =>
        apply (exchange_native h (fun bytes hbytes => ⟨framed_nonce hbytes,
          hnonce _ _ _ rfl hrefused bytes hbytes⟩) () (decodeStatus_native h)).bind
        rintro ⟨status, _⟩
        dsimp only
        split
        · exact .pure _
        · exact hrequest
      | mac => exact hrequest
    | _ => exact hrequest

end Sessions

end Atsha204.Analysis
