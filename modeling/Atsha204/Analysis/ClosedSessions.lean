import Atsha204.Analysis.ApiSessions

/-!
# Sessions are closed by success only

`wake` sets the flag and only the `idle` at the end of a session that went well clears it;
every early return leaves it set. A call therefore closes the session it opened exactly
when the device does its part in every exchange of it (`session_closed_iff`); reading the
revision of an emulated device, which knows no such command, leaves the flag set
(`session_closed_fails`).
-/

set_option autoImplicit false

namespace Atsha204.Analysis

open Atsha204.Library
open Atsha204.Model
open Atsha204.Interface

variable {σ α : Type} {env : Env σ}

/-- The program returns with the device not expected to be awake. -/
def EndsAsleep (x : Prog σ α) (s : St σ) : Prop :=
  wp x (fun _ s' => s'.handle.wakeIsExpected = false) (fun _ => False) s

/-- A call closes its session when it returns with the device asleep. -/
theorem closes_iff (call : ApiCall) (number : AtshaBigInt) (revision : UInt32) (s : St σ) :
    Closes env call number revision s ↔ EndsAsleep (call.run env number revision) s :=
  (wp_returns_iff _ _ _).symm

/-- The value that a program returns makes no difference to that. -/
theorem endsAsleep_map {β : Type} (f : α → β) (x : Prog σ α) (s : St σ) :
    EndsAsleep (f <$> x) s ↔ EndsAsleep x s := wp_map f x _ _ s

/-! ## Over the link -/

/-- The program leaves the handle as it is, wherever it returns. -/
def KeepsHandle (x : Prog σ α) (s : St σ) : Prop :=
  wp x (fun _ s' => s'.handle = s.handle) (fun _ => True) s

section Link

variable {s : St σ} (hlayer : s.handle.bottomLayer = .ni2c)
include hlayer

/-- A session that does not go well leaves the device expected to be awake. -/
theorem wp_session_awake {out : α} {body : Prog σ (AtshaErr × α)}
    (hbody : ∀ s₁ : St σ, s₁.handle.bottomLayer = .ni2c → KeepsHandle body s₁) :
    wp (session env out body) (fun r s' => r.1 ≠ .ok → s'.handle.wakeIsExpected = true)
      (fun _ => True) s := by
  rw [wp_session]
  refine wp_mono (wp_wake_trace hlayer) ?_ fun _ _ => trivial
  rintro status s₁ ⟨hhandle, -⟩
  have hlayer₁ : s₁.handle.bottomLayer = .ni2c := by rw [hhandle]; exact hlayer
  have hawake : s₁.handle.wakeIsExpected = true := by rw [hhandle]
  by_cases hstatus : status = .ok
  · rw [if_pos hstatus]
    refine wp_mono (hbody s₁ hlayer₁) ?_ fun _ _ => trivial
    intro r s₂ hkept
    by_cases hr : r.1 = .ok
    · rw [if_pos hr]
      exact fun hne => absurd rfl hne
    · rw [if_neg hr]
      intro _
      rw [hkept]
      exact hawake
  · rw [if_neg hstatus]
    exact fun _ => hawake

/-- A session ends asleep exactly when it goes well. -/
theorem endsAsleep_session_iff {out : α} {body : Prog σ (AtshaErr × α)}
    (hbody : ∀ s₁ : St σ, s₁.handle.bottomLayer = .ni2c → KeepsHandle body s₁) :
    EndsAsleep (session env out body) s ↔ ∃ a s', (session env out body).run s = .ok (.ok, a) s' := by
  constructor
  · intro h
    obtain ⟨⟨status, a⟩, s', hrun, hasleep⟩ := (wp_returns_iff _ _ _).mp h
    have hawake := (@wp_session_awake σ α env s hlayer out body hbody).of_run hrun
    by_cases hstatus : status = .ok
    · exact ⟨a, s', by rw [hrun, hstatus]⟩
    · rw [hawake hstatus] at hasleep
      cases hasleep
  · rintro ⟨a, s', hrun⟩
    obtain ⟨_, s₂, -, -, rfl⟩ := (run_session_ok_iff _ _ _ _ _).mp hrun
    exact (wp_of_run hrun _ _).mpr rfl

/-- An exchange leaves the handle as it is. -/
theorem exchange_keepsHandle {packet : Option Block} (hframed : ∀ bytes, packet = some bytes →
      Framed bytes) {out : α} {decode : Block → Prog σ (AtshaErr × α)}
    (hdecode : ∀ answer s, KeepsHandle (decode answer) s) :
    KeepsHandle (exchange (send env) packet out decode) s := by
  unfold KeepsHandle
  rw [exchange, wp_bind, wp_access]
  cases packet with
  | none => trivial
  | some bytes =>
    simp only [wp_bind]
    refine wp_mono (wp_command_trace hlayer (sentBytes_of_framed (hframed bytes rfl))) ?_
      fun _ _ => trivial
    rintro reply s₁ ⟨hhandle, -⟩
    by_cases hreply : reply.1 = .ok
    · simp only [hreply, ne_eq, not_true_eq_false, if_false, wp_bind, wp_access]
      cases reply.2 with
      | none => trivial
      | some answer =>
        refine wp_mono (hdecode answer s₁) ?_ fun _ h => h
        intro _ s₂ hkept
        rw [hkept, hhandle]
    · simp only [hreply, ne_eq, not_false_eq_true, if_true, wp_pure]
      exact hhandle

end Link

/-- Returning a value keeps the handle. -/
theorem keepsHandle_pure (a : α) (s : St σ) : KeepsHandle (pure a) s := rfl

/-- So does a partial access. -/
theorem keepsHandle_access (o : Option α) (s : St σ) : KeepsHandle (access o) s := by
  unfold KeepsHandle
  rw [wp_access]
  cases o <;> trivial

/-- What both parts of a sequence keep, the sequence keeps. -/
theorem KeepsHandle.bind {β : Type} {x : Prog σ α} {f : α → Prog σ β} {s : St σ}
    (h : KeepsHandle x s) (hf : ∀ a s', KeepsHandle (f a) s') : KeepsHandle (x >>= f) s := by
  unfold KeepsHandle
  rw [wp_bind]
  refine wp_mono h ?_ fun _ h => h
  intro a s₁ hhandle
  refine wp_mono (hf a s₁) ?_ fun _ h => h
  intro b s₂ hhandle'
  rw [hhandle', hhandle]

/-- Decoding data keeps the handle. -/
theorem readLongData_keepsHandle (answer : Block) (buffer : List.Vector UInt8 atshaMaxDataSize)
    (s : St σ) : KeepsHandle (readLongData answer buffer) s := by
  refine (keepsHandle_access _ s).bind fun count s₁ => ?_
  dsimp only
  split
  · exact rfl
  · refine (keepsHandle_access _ s₁).bind fun bytes s₂ => ?_
    exact (keepsHandle_access _ s₂).bind fun data s₃ => keepsHandle_pure _ s₃

/-- So does decoding data into a number, if the decoder does. -/
theorem decodeData_keepsHandle {recv : DataRecv σ} (hrecv : ∀ answer buffer s,
      KeepsHandle (recv answer buffer) s) (number : AtshaBigInt) (answer : Block) (s : St σ) :
    KeepsHandle (decodeData recv number answer) s := by
  refine (hrecv answer number.data s).bind fun r s₁ => ?_
  dsimp only
  split <;> exact rfl

/-- So does decoding a status. -/
theorem decodeStatus_keepsHandle (answer : Block) (s : St σ) :
    KeepsHandle (decodeStatus answer) s := by
  refine KeepsHandle.bind ?_ fun status s₁ => keepsHandle_pure _ s₁
  refine (keepsHandle_access _ s).bind fun status s₁ => ?_
  split <;> exact rfl

/-- So does every decoder of a plain call. -/
theorem decode_keepsHandle (asked : Option ℕ) (number : AtshaBigInt) (answer : Block) (s : St σ) :
    KeepsHandle (decode asked number answer) s := by
  cases asked with
  | some n => exact decodeData_keepsHandle readLongData_keepsHandle number answer s
  | none => exact (decodeStatus_keepsHandle answer s).bind fun r s₁ => keepsHandle_pure _ s₁

section Link

variable {s : St σ} (hlayer : s.handle.bottomLayer = .ni2c)
include hlayer

/-- The body of a plain call leaves the handle as it is. -/
theorem plainBody_keepsHandle (number : AtshaBigInt) (call : PlainCall) :
    KeepsHandle (plainBody env number call) s := by
  have hrequest : ∀ s : St σ, s.handle.bottomLayer = .ni2c → KeepsHandle
      (exchange (send env) call.packet number (decode call.asked number)) s := fun s hlayer =>
    exchange_keepsHandle hlayer (fun _ => framed_packet) (decode_keepsHandle call.asked number)
  match call with
  | .respond .hmac slotNumber challenge useSn =>
    have hnonce : KeepsHandle (loadNonce env challenge) s :=
      exchange_keepsHandle hlayer (fun _ => framed_nonce) decodeStatus_keepsHandle
    unfold KeepsHandle at hnonce hrequest ⊢
    rw [plainBody, wp_bind]
    refine wp_mono hnonce ?_ fun _ h => h
    intro r s₁ hhandle
    by_cases hr : r.1 = .ok
    · simp only [hr, ne_eq, not_true_eq_false, if_false]
      refine wp_mono (hrequest s₁ (by rw [hhandle]; exact hlayer)) ?_ fun _ h => h
      intro _ s₂ hhandle'
      rw [hhandle', hhandle]
    · simp only [hr, ne_eq, not_false_eq_true, if_true, wp_pure]
      exact hhandle
  | .respond .mac .. | .random | .slotRead _ | .confRead _ | .otpRead _ | .write .. |
    .lockConfig _ | .lockData _ => exact hrequest s hlayer

/-- A plain call that is not refused ends asleep exactly when the link leads it to an answer
that its decoder takes. -/
theorem plainCall_endsAsleep_ni2c {call : PlainCall} (h : ¬ call.Refused) (number : AtshaBigInt)
    (hasleep : s.handle.wakeIsExpected = false) :
    EndsAsleep (call.run env number) s ↔ (ApiCall.plain call).ServedOver env.bus s.bus := by
  have hsession : call.run env number = _ := plainCall_run h number
  have hends := @endsAsleep_session_iff σ _ env s hlayer number (plainBody env number call)
    fun s₁ hlayer₁ => plainBody_keepsHandle hlayer₁ number call
  rw [← hsession] at hends
  rw [hends]
  constructor
  · rintro ⟨r, s', hrun⟩
    obtain ⟨answer, s₁, s₂, s₃, hdelivered, hdecode, -⟩ :=
      (plainCall_ok_iff h number r s s').mp hrun
    obtain ⟨b₁, bytes, b₂, hbefore, hpacket, hanswers⟩ :=
      (delivered_iff hlayer call answer).mp ⟨s₁, s₂, hdelivered⟩
    obtain ⟨hframed, hlen⟩ := framed_of_answers hanswers
    rw [hasleep] at hbefore
    exact ⟨b₁, bytes, answer, b₂, hbefore, hpacket, hanswers,
      ((decode_ok_iff _ number r hframed hlen s₂ s₃).mp hdecode).1⟩
  · rintro ⟨b₁, bytes, answer, b₂, hbefore, hpacket, hanswers, htakes⟩
    obtain ⟨hframed, hlen⟩ := framed_of_answers hanswers
    rw [← hasleep] at hbefore
    obtain ⟨s₁, s₂, hdelivered⟩ :=
      (delivered_iff hlayer call answer).mpr ⟨b₁, bytes, b₂, hbefore, hpacket, hanswers⟩
    have hdecode := (decode_ok_iff call.asked number _ hframed hlen s₂ s₂).mpr ⟨htakes, rfl, rfl⟩
    exact ⟨_, _, (plainCall_ok_iff h number _ s _).mpr
      ⟨answer, s₁, s₂, s₂, hdelivered, hdecode, rfl⟩⟩

section Exchange

variable {bytes : Block} (hbytes : Framed bytes) {out : α} {decode : Block → Prog σ (AtshaErr × α)}
  {D : Block → α → Prop}
  (hdecode : ∀ answer, Framed answer → 3 ≤ answer.length → ∀ (a : α) (s s' : St σ),
    (decode answer).run s = .ok (.ok, a) s' ↔ D answer a ∧ s' = s)
  (hasleep : s.handle.wakeIsExpected = false)
include hbytes hdecode hasleep

/-- A session of one exchange that goes well, over the link. -/
theorem exchanges_of_run {a : α} {s' : St σ}
    (hrun : (session env out (exchange (send env) (some bytes) out decode)).run s =
      .ok (.ok, a) s') :
    ∃ answer, Exchanges env.bus bytes s.bus answer s'.bus ∧ D answer a ∧ s'.handle = s.handle := by
  obtain ⟨s₁, s₂, hwake, hbody, rfl⟩ := (run_session_ok_iff _ _ _ _ _).mp hrun
  obtain ⟨_, answer, s₃, hpacket, hsend, hd⟩ := (run_exchange_ok_iff _ _ _ _ _ _ _).mp hbody
  obtain rfl := Option.some.inj hpacket
  have hhandle₁ := ((wp_wake_trace hlayer).of_run hwake).1
  have hlayer₁ : s₁.handle.bottomLayer = .ni2c := by rw [hhandle₁]; exact hlayer
  obtain ⟨b₂, hanswers, hhandle, rfl⟩ := (send_ok_iff hlayer₁ hbytes answer
    fun handle b => handle = s₃.handle ∧ b = s₃.bus).mp ⟨s₃, hsend, rfl, rfl⟩
  obtain ⟨hframed, hlen⟩ := framed_of_answers hanswers
  obtain ⟨hD, rfl⟩ := (hdecode answer hframed hlen a s₃ s₂).mp hd
  obtain ⟨b₁, hconfirms, rfl⟩ := (wake_ok_iff hlayer hasleep
    fun _ b => b = s₁.bus).mp ⟨s₁, hwake, rfl⟩
  have hlayer₂ : s₂.handle.bottomLayer = .ni2c := by rw [← hhandle]; exact hlayer₁
  refine ⟨answer, ⟨s₁.bus, s₂.bus, hconfirms, hanswers, ?_⟩, hD, ?_⟩
  · rw [idled_ni2c hlayer₂]
    rfl
  · rw [idled_handle, ← hhandle, hhandle₁, ← hasleep]

/-- A session that is served over the link, with an answer that its decoder takes, goes well. -/
theorem run_of_exchanges {answer : Block} {a : α} {b' : σ}
    (hexchanges : Exchanges env.bus bytes s.bus answer b') (hD : D answer a) :
    ∃ s', (session env out (exchange (send env) (some bytes) out decode)).run s =
      .ok (.ok, a) s' ∧ s'.handle = s.handle ∧ s'.bus = b' := by
  obtain ⟨b₁, b₂, hconfirms, hanswers, rfl⟩ := hexchanges
  obtain ⟨hframed, hlen⟩ := framed_of_answers hanswers
  obtain ⟨s₁, hwake, hhandle₁, rfl⟩ := (wake_ok_iff hlayer hasleep
    fun handle b => handle = { s.handle with wakeIsExpected := true } ∧ b = b₁).mpr
      ⟨b₁, hconfirms, rfl, rfl⟩
  have hlayer₁ : s₁.handle.bottomLayer = .ni2c := by rw [hhandle₁]; exact hlayer
  obtain ⟨s₂, hsend, hhandle₂, rfl⟩ := (send_ok_iff hlayer₁ hbytes answer
    fun handle b => handle = s₁.handle ∧ b = b₂).mpr ⟨b₂, hanswers, rfl, rfl⟩
  have hlayer₂ : s₂.handle.bottomLayer = .ni2c := by rw [hhandle₂]; exact hlayer₁
  refine ⟨idled env s₂, (run_session_ok_iff _ _ _ _ _).mpr ⟨s₁, s₂, hwake, ?_, rfl⟩, ?_, ?_⟩
  · exact (run_exchange_ok_iff _ _ _ _ _ _ _).mpr ⟨bytes, answer, s₂, rfl, hsend,
      (hdecode answer hframed hlen a s₂ s₂).mpr ⟨hD, rfl⟩⟩
  · rw [idled_handle, hhandle₂, hhandle₁, ← hasleep]
  · rw [idled_ni2c hlayer₂]
    rfl

/-- A session of one exchange ends asleep exactly when the link answers its packet with what
its decoder takes. -/
theorem endsAsleep_exchange_iff (hkeeps : ∀ answer s, KeepsHandle (decode answer) s) :
    EndsAsleep (session env out (exchange (send env) (some bytes) out decode)) s ↔
      ∃ answer b', Exchanges env.bus bytes s.bus answer b' ∧ ∃ a, D answer a := by
  rw [endsAsleep_session_iff hlayer fun s₁ hlayer₁ => exchange_keepsHandle hlayer₁
    (fun _ h => Option.some.inj h ▸ hbytes) hkeeps]
  constructor
  · rintro ⟨a, s', hrun⟩
    obtain ⟨answer, hexchanges, hD, -⟩ := exchanges_of_run hlayer hbytes hdecode hasleep hrun
    exact ⟨answer, _, hexchanges, a, hD⟩
  · rintro ⟨answer, b', hexchanges, a, hD⟩
    obtain ⟨s', hrun, -⟩ := @run_of_exchanges _ _ env _ hlayer _ hbytes out _ _ hdecode hasleep _ _ _
      hexchanges hD
    exact ⟨a, s', hrun⟩

end Exchange

/-- Reading the revision takes an answer of five bytes or more.
SOURCE: api.c:316-347, operations.c:65-75 -/
theorem devRev_endsAsleep_ni2c (revision : UInt32) (hasleep : s.handle.wakeIsExpected = false) :
    EndsAsleep (atshaDevRev env revision) s ↔ ApiCall.devRev.ServedOver env.bus s.bus := by
  let decode : Block → Prog σ (AtshaErr × UInt32) := fun answer =>
    access (opDevRevRecv answer) >>= fun revision => pure (.ok, revision)
  have hsession : atshaDevRev env revision =
      session env revision (exchange (send env) opDevRev revision decode) := rfl
  have hdecode : ∀ answer, Framed answer → 3 ≤ answer.length → ∀ (a : UInt32) (s s' : St σ),
      (decode answer).run s = .ok (.ok, a) s' ↔ opDevRevRecv answer = some a ∧ s' = s := by
    intro answer _ _ a s s'
    simp only [decode]
    rw [run_eq_ok_iff, wp_bind, wp_access]
    cases opDevRevRecv answer with
    | none => simp
    | some revision => simp [eq_comm]
  have hlen : ∀ answer, (∃ a, opDevRevRecv answer = some a) ↔ 5 ≤ answer.length := by
    intro answer
    match answer with
    | [] | [_] | [_, _] | [_, _, _] | [_, _, _, _] => simp [opDevRevRecv, peek]
    | _ :: b0 :: b1 :: b2 :: b3 :: rest => exact iff_of_true ⟨_, rfl⟩ (by simp)
  rw [hsession, opDevRev_eq, endsAsleep_exchange_iff hlayer (framed_commandPacket _ _ _ (by decide))
    hdecode hasleep fun answer s => (keepsHandle_access _ s).bind fun _ s₁ => keepsHandle_pure _ s₁]
  simp only [hlen]
  constructor
  · rintro ⟨answer, b', hexchanges, hfive⟩
    exact ⟨_, answer, b', opDevRev_eq, hexchanges, hfive⟩
  · rintro ⟨packet, answer, b', hpacket, hexchanges, hfive⟩
    rw [opDevRev_eq] at hpacket
    obtain rfl := Option.some.inj hpacket
    exact ⟨answer, b', hexchanges, hfive⟩

omit hlayer in
/-- The serial number of the chip is taken out of an answer of fourteen bytes or more.
SOURCE: operations.c:171-185 -/
theorem decodeSerial_ok_iff (number : AtshaBigInt) (answer : Block) (_ : Framed answer)
    (_ : 3 ≤ answer.length) (a : AtshaBigInt) (s s' : St σ) :
    (decodeData opSerialNumberRecv number answer).run s = .ok (.ok, a) s' ↔
      (14 ≤ answer.length ∧ a = ⟨9, filled number.data
        ((answer.drop 1).take 4 ++ (answer.drop 9).take 5)⟩) ∧ s' = s := by
  rw [decodeData, run_eq_ok_iff, wp_bind, wp_opSerialNumberRecv]
  by_cases hlen : 14 ≤ answer.length
  · have hnine : (9 : Int).toNat = 9 := rfl
    simp only [hlen, if_true, hnine, true_and]
    rw [if_neg (by decide), wp_pure]
    simp [eq_comm]
  · simp [hlen]

/-- Reading the serial number of the chip takes an answer of fourteen bytes or more.
SOURCE: api.c:620-656, operations.c:171-185 -/
theorem chipSerialNumber_endsAsleep_ni2c (number : AtshaBigInt)
    (hasleep : s.handle.wakeIsExpected = false) :
    EndsAsleep (atshaChipSerialNumber env number) s ↔
      ApiCall.chipSerialNumber.ServedOver env.bus s.bus := by
  have hrecv : ∀ (answer : Block) (buffer : List.Vector UInt8 atshaMaxDataSize) (s : St σ),
      KeepsHandle (opSerialNumberRecv answer buffer) s := fun answer buffer s =>
    (keepsHandle_access _ s).bind fun bytes s₁ =>
      (keepsHandle_access _ s₁).bind fun data s₂ => keepsHandle_pure _ s₂
  rw [atshaChipSerialNumber, dataExchange_eq, opSerialNumber_eq, endsAsleep_exchange_iff hlayer
    (framed_commandPacket _ _ _ (by decide)) (decodeSerial_ok_iff number) hasleep
    (decodeData_keepsHandle hrecv number)]
  constructor
  · rintro ⟨answer, b', hexchanges, _, hfourteen, -⟩
    exact ⟨_, answer, b', opSerialNumber_eq, hexchanges, hfourteen⟩
  · rintro ⟨packet, answer, b', hpacket, hexchanges, hfourteen⟩
    rw [opSerialNumber_eq] at hpacket
    obtain rfl := Option.some.inj hpacket
    exact ⟨answer, b', hexchanges, _, hfourteen, rfl⟩

end Link

/-! ## One session behind another -/

/-- A call that goes on where its first session went well, and otherwise returns at once,
still expecting the device to be awake. -/
theorem endsAsleep_bind_iff {x : Prog σ (AtshaErr × α)} {β : Type} {out : AtshaErr → β}
    {rest : α → Prog σ β} {s : St σ}
    (hawake : wp x (fun r s' => r.1 ≠ .ok → s'.handle.wakeIsExpected = true) (fun _ => True) s) :
    EndsAsleep (x >>= fun r => if r.1 ≠ .ok then pure (out r.1) else rest r.2) s ↔
      ∃ a s', x.run s = .ok (.ok, a) s' ∧ EndsAsleep (rest a) s' := by
  unfold EndsAsleep
  rw [wp_bind, wp_returns_iff]
  constructor
  · rintro ⟨⟨status, a⟩, s', hrun, h⟩
    by_cases hstatus : status = .ok
    · subst hstatus
      simp only [ne_eq, not_true_eq_false, if_false] at h
      exact ⟨a, s', hrun, h⟩
    · simp only [hstatus, ne_eq, not_false_eq_true, if_true, wp_pure] at h
      rw [hawake.of_run hrun hstatus] at h
      cases h
  · rintro ⟨a, s', hrun, h⟩
    exact ⟨_, s', hrun, h⟩

/-- An access to something that is there may be left out. -/
theorem endsAsleep_access {β : Type} {o : Option α} {a : α} (h : o = some a) (rest : α → Prog σ β)
    (s : St σ) : EndsAsleep (access o >>= rest) s ↔ EndsAsleep (rest a) s := by
  unfold EndsAsleep
  rw [wp_bind, wp_access, h]

/-- An OTP read is a session of one exchange. -/
theorem otpRead_eq (address : UInt8) (number : AtshaBigInt) : atshaRawOtpRead env address number =
    session env number (exchange (send env) (some (otpReadPacket address)) number
      (decode (some 4) number)) := by
  rw [atshaRawOtpRead, opRawRead_eq]
  rfl

/-- So is a read of the configuration zone. -/
theorem confRead_eq (address : UInt8) (number : AtshaBigInt) : atshaRawConfRead env address number =
    session env number (exchange (send env) (some (confReadPacket address)) number
      (decode (some 4) number)) := by
  rw [atshaRawConfRead, opRawRead_eq]
  rfl

/-- So is a write to the configuration zone. -/
theorem confWrite_eq (address : UInt8) (data : AtshaBigInt) : atshaRawConfWrite env address data =
    session env () (exchange (send env)
      (opRawWrite (getZoneConfig ioMemConfig ioRwNonEnc ioRw4Bytes) address data.bytes
        data.data.val) () decodeStatus) := rfl

/-- The decoder of four bytes takes exactly what it is said to take. -/
theorem decode_takes_iff (number : AtshaBigInt) (answer : Block) (hframed : Framed answer)
    (hlen : 3 ≤ answer.length) (a : AtshaBigInt) (s s' : St σ) :
    (decode (some 4) number answer).run s = .ok (.ok, a) s' ↔
      (Takes (some 4) answer ∧ a = taken (some 4) number answer) ∧ s' = s := by
  rw [decode_ok_iff _ _ _ hframed hlen, and_assoc]

/-- The packet of an OTP read begins with its length. -/
theorem framed_otpReadPacket (address : UInt8) : Framed (otpReadPacket address) :=
  framed_commandPacket _ _ _ (by decide)

/-- So does the one of a configuration read. -/
theorem framed_confReadPacket (address : UInt8) : Framed (confReadPacket address) :=
  framed_commandPacket _ _ _ (by decide)

/-- The end of reading the serial number, behind its second word. -/
def serialEnd (data : List.Vector UInt8 atshaMaxDataSize) (front : Block) (part : AtshaBigInt) :
    Prog σ (AtshaErr × AtshaBigInt) :=
  access (overwrite data (front ++ part.data.val.take 4)) >>= fun data => pure (.ok, ⟨8, data⟩)

/-- The rest of reading the serial number, behind its first word. -/
def serialBack (env : Env σ) (number part : AtshaBigInt) : Prog σ (AtshaErr × AtshaBigInt) :=
  access (overwrite number.data (part.data.val.take 4)) >>= fun data =>
    atshaRawOtpRead env atsha204OtpMemoryMapSerialNumber part >>= fun r =>
      if r.1 ≠ .ok then pure (r.1, { number with data := data })
      else serialEnd data (part.data.val.take 4) r.2

/-- A serial number is a read of one OTP word, and then of the next one. -/
theorem atshaSerialNumber_eq (number : AtshaBigInt) : atshaSerialNumber env number =
    atshaRawOtpRead env atsha204OtpMemoryMapRevNumber (env.uninitBigInt .serialNumberPart) >>=
      fun r => if r.1 ≠ .ok then pure (r.1, number) else serialBack env number r.2 := rfl

/-- A word has no more than four bytes. -/
theorem firstWord_length (part : AtshaBigInt) : (part.data.val.take 4).length ≤ 4 :=
  List.length_take_le _ _

/-- Putting the two words together neither fails nor sends anything. -/
theorem endsAsleep_serialEnd (data : List.Vector UInt8 atshaMaxDataSize) {front : Block}
    (hfront : front.length ≤ 4) (part : AtshaBigInt) (s : St σ) :
    EndsAsleep (serialEnd data front part) s ↔ s.handle.wakeIsExpected = false := by
  have hboth : (front ++ part.data.val.take 4).length ≤ 32 := by
    have := firstWord_length part
    rw [List.length_append]
    omega
  exact endsAsleep_access (overwrite_filled data hboth) _ s

section Link

variable {s : St σ} (hlayer : s.handle.bottomLayer = .ni2c)
  (hasleep : s.handle.wakeIsExpected = false)
include hlayer hasleep

omit hlayer hasleep in
/-- Two exchanges, the second of which begins where the first one ends. -/
theorem served_twice_iff {first : Block → σ → Prop} {taken taken' : Block → Prop}
    {second : Block → σ → Block → σ → Prop} :
    (∃ answer b₁, first answer b₁ ∧ taken answer ∧
        ∃ answer' b₂, second answer b₁ answer' b₂ ∧ taken' answer') ↔
      ∃ answer answer' b₁ b₂, first answer b₁ ∧ taken answer ∧ second answer b₁ answer' b₂ ∧
        taken' answer' := by
  constructor
  · rintro ⟨answer, b₁, hfirst, htaken, answer', b₂, hsecond, htaken'⟩
    exact ⟨answer, answer', b₁, b₂, hfirst, htaken, hsecond, htaken'⟩
  · rintro ⟨answer, answer', b₁, b₂, hfirst, htaken, hsecond, htaken'⟩
    exact ⟨answer, b₁, hfirst, htaken, answer', b₂, hsecond, htaken'⟩

/-- A read of four bytes, and what is done behind it where it goes well. -/
theorem endsAsleep_read_iff {β : Type} {packet : Block} (hpacket : Framed packet)
    (number : AtshaBigInt) {out : AtshaErr → β} {rest : AtshaBigInt → Prog σ β}
    {served : Block → σ → Prop}
    (hrest : ∀ answer s₁, Takes (some 4) answer → s₁.handle = s.handle →
      (EndsAsleep (rest (taken (some 4) number answer)) s₁ ↔ served answer s₁.bus)) :
    EndsAsleep (session env number (exchange (send env) (some packet) number
        (decode (some 4) number)) >>= fun r => if r.1 ≠ .ok then pure (out r.1) else rest r.2) s ↔
      ∃ answer b', Exchanges env.bus packet s.bus answer b' ∧ Takes (some 4) answer ∧
        served answer b' := by
  rw [endsAsleep_bind_iff (wp_session_awake hlayer fun _ hlayer₁ => exchange_keepsHandle hlayer₁
    (fun _ h => Option.some.inj h ▸ hpacket) (decode_keepsHandle (some 4) number))]
  constructor
  · rintro ⟨part, s₁, hrun, hends⟩
    obtain ⟨answer, hexchanges, ⟨htakes, rfl⟩, hhandle⟩ := exchanges_of_run hlayer hpacket
      (decode_takes_iff number) hasleep hrun
    exact ⟨answer, s₁.bus, hexchanges, htakes, (hrest answer s₁ htakes hhandle).mp hends⟩
  · rintro ⟨answer, b', hexchanges, htakes, hover⟩
    obtain ⟨s₁, hrun, hhandle, rfl⟩ := run_of_exchanges hlayer hpacket
      (decode_takes_iff number) hasleep hexchanges ⟨htakes, rfl⟩
    exact ⟨_, s₁, hrun, (hrest answer s₁ htakes hhandle).mpr hover⟩

/-- Reading the serial number is two sessions, each of which has to go well.
SOURCE: api.c:658-678 -/
theorem serialNumber_endsAsleep_ni2c (number : AtshaBigInt) :
    EndsAsleep (atshaSerialNumber env number) s ↔
      ApiCall.serialNumber.ServedOver env.bus s.bus := by
  have hback : ∀ part (s₁ : St σ), s₁.handle = s.handle →
      (EndsAsleep (serialBack env number part) s₁ ↔ ∃ answer b',
        Exchanges env.bus (otpReadPacket atsha204OtpMemoryMapSerialNumber) s₁.bus answer b' ∧
          Takes (some 4) answer) := by
    intro part s₁ hhandle
    have hfront := firstWord_length part
    have hdata := overwrite_filled number.data (hfront.trans (by decide))
    have hend := fun answer => @endsAsleep_serialEnd σ (filled number.data (part.data.val.take 4)) _
      hfront (taken (some 4) part answer)
    have hread := @endsAsleep_read_iff σ env s₁ (by rw [hhandle]; exact hlayer)
      (by rw [hhandle]; exact hasleep) _ _
      (framed_otpReadPacket atsha204OtpMemoryMapSerialNumber) part
      (fun status => (status, { number with data := filled number.data (part.data.val.take 4) }))
      (serialEnd (filled number.data (part.data.val.take 4)) (part.data.val.take 4))
      (fun _ _ => True) fun answer s₂ _ hhandle₂ => by
        rw [hend answer s₂, hhandle₂, hhandle]
        exact iff_of_true hasleep trivial
    simp only [and_true] at hread
    rw [serialBack, endsAsleep_access hdata, otpRead_eq]
    exact hread
  have hread := @endsAsleep_read_iff σ env s hlayer hasleep _ _
    (framed_otpReadPacket atsha204OtpMemoryMapRevNumber) (env.uninitBigInt .serialNumberPart)
    (fun status => (status, number)) (serialBack env number)
    (fun _ b => ∃ answer b', Exchanges env.bus (otpReadPacket atsha204OtpMemoryMapSerialNumber) b
      answer b' ∧ Takes (some 4) answer)
    fun answer s₁ _ hhandle => hback _ s₁ hhandle
  rw [atshaSerialNumber_eq, otpRead_eq]
  exact hread.trans served_twice_iff

end Link

/-- The rest of a change of address, behind the read. -/
def writeAddress (env : Env σ) (address : UInt8) (line : AtshaBigInt) : Prog σ (AtshaErr × Unit) :=
  access (overwrite line.data [address <<< 1]) >>= fun data =>
    atshaRawConfWrite env atsha204CnfMemoryMapI2cAddress { line with data := data }

/-- No address is refused.
SOURCE: api.c:680-695 -/
theorem atshaChangeAddress_eq (address : UInt8) : atshaChangeAddress env address =
    atshaRawConfRead env atsha204CnfMemoryMapI2cAddress (env.uninitBigInt .changeAddressLine) >>=
      fun r => if r.1 ≠ .ok then pure (r.1, ()) else writeAddress env address r.2 := by
  have hnone : ¬ (address < 1 ∧ address > 0x7E) := by
    rintro ⟨hlow, hhigh⟩
    rw [gt_iff_lt, UInt8.lt_iff_toNat_lt, show (0x7E : UInt8).toNat = 126 from rfl] at hhigh
    rw [UInt8.lt_iff_toNat_lt, show (1 : UInt8).toNat = 1 from rfl] at hlow
    omega
  rw [atshaChangeAddress, if_neg hnone]
  rfl

/-- The word that is written is the one that was read, with another first byte. -/
theorem addressPacket_eq (address : UInt8) {number : AtshaBigInt} {answer : Block}
    (htakes : Takes (some 4) answer) :
    opRawWrite (getZoneConfig ioMemConfig ioRwNonEnc ioRw4Bytes) atsha204CnfMemoryMapI2cAddress
        (payload answer).length
        (filled (filled number.data (payload answer)) [address <<< 1]).val =
      some (addressPacket address answer) := by
  obtain ⟨hmin, hmax⟩ := htakes
  have hlen : (payload answer).length = answer.length - 3 := payload_length (by omega)
  have hmod : (payload answer).length % 256 = (payload answer).length := Nat.mod_eq_of_lt (by omega)
  have hfits : (payload answer).length ≤ 32 := by omega
  have hread := filled_take number.data hfits
  have hone : [address <<< 1].length ≤ 32 := by simp
  have hcells : (filled (filled number.data (payload answer)) [address <<< 1]).val =
      address <<< 1 :: (filled number.data (payload answer)).val.drop 1 := by
    obtain ⟨line, hline, hval⟩ := overwrite_of_le (filled number.data (payload answer)) hone
    rw [filled, hline]
    exact hval
  have hbuilt := @opRawWrite_eq (getZoneConfig ioMemConfig ioRwNonEnc ioRw4Bytes)
    atsha204CnfMemoryMapI2cAddress (payload answer).length _
    (filled (filled number.data (payload answer)) [address <<< 1]).property (by omega)
  have htail : ∀ (x : UInt8) (buffer : Block) (n : ℕ), 0 < n →
      (x :: buffer.drop 1).take n = x :: (buffer.take n).tail := by
    intro x buffer n hpos
    obtain ⟨n, rfl⟩ := Nat.exists_eq_add_one_of_ne_zero hpos.ne'
    rw [List.take_succ_cons, ← List.drop_one, List.drop_take, Nat.add_sub_cancel]
  rw [hbuilt, hmod, hcells, addressPacket, htail _ _ _ (by omega), hread]

/-- The packet that writes an address begins with its length. -/
theorem framed_addressPacket (address : UInt8) {answer : Block} (htakes : Takes (some 4) answer) :
    Framed (addressPacket address answer) := by
  refine framed_commandPacket _ _ _ ?_
  obtain ⟨hmin, hmax⟩ := htakes
  rw [List.length_cons, List.length_tail, payload_length (by omega)]
  omega

section Link

variable {s : St σ} (hlayer : s.handle.bottomLayer = .ni2c)
  (hasleep : s.handle.wakeIsExpected = false)
include hlayer hasleep

/-- Writing the address back is one session.
SOURCE: api.c:690-694, api.c:735-769 -/
theorem endsAsleep_writeAddress (address : UInt8) (number : AtshaBigInt) {answer : Block}
    (htakes : Takes (some 4) answer) :
    EndsAsleep (writeAddress env address (taken (some 4) number answer)) s ↔
      ∃ answer' b', Exchanges env.bus (addressPacket address answer) s.bus answer' b' ∧
        Takes none answer' := by
  have hone : [address <<< 1].length ≤ 32 := by simp
  have hsession := @endsAsleep_exchange_iff σ _ env s hlayer _ (framed_addressPacket address htakes)
    () decodeStatus _ (fun answer _ _ => decodeStatus_ok_iff answer) hasleep decodeStatus_keepsHandle
  simp only [exists_const] at hsession
  have hpacket := @addressPacket_eq address number answer htakes
  rw [writeAddress, endsAsleep_access (overwrite_filled _ hone), confWrite_eq]
  simp only [taken]
  rw [hpacket]
  exact hsession

/-- A change of address is a read and a write.
SOURCE: api.c:680-695 -/
theorem changeAddress_endsAsleep_ni2c (address : UInt8) :
    EndsAsleep (atshaChangeAddress env address) s ↔
      (ApiCall.changeAddress address).ServedOver env.bus s.bus := by
  have hread := @endsAsleep_read_iff σ env s hlayer hasleep _ _
    (framed_confReadPacket atsha204CnfMemoryMapI2cAddress) (env.uninitBigInt .changeAddressLine)
    (fun status => (status, ())) (writeAddress env address)
    (fun answer b => ∃ answer' b', Exchanges env.bus (addressPacket address answer) b answer' b' ∧
      Takes none answer')
    fun answer s₁ htakes hhandle => endsAsleep_writeAddress (by rw [hhandle]; exact hlayer)
      (by rw [hhandle]; exact hasleep) address _ htakes
  rw [atshaChangeAddress_eq, confRead_eq]
  exact hread.trans served_twice_iff

end Link

/-! ## The emulated device -/

section Emulation

variable {s : St σ} (hlayer : s.handle.bottomLayer = .emulation)

/-- What a read leaves tells whether there was something to read. -/
theorem endsAsleep_of_afterRead {stored : Option Block} {x : Prog σ (AtshaErr × AtshaBigInt)}
    (h : wp x (AfterRead stored s) (fun _ => stored = none) s) :
    EndsAsleep x s ↔ stored.isSome := by
  unfold EndsAsleep
  cases stored with
  | none =>
    refine iff_of_false (fun hends => ?_) (by simp)
    obtain ⟨r, s', hrun, hasleep⟩ := (wp_returns_iff _ _ _).mp hends
    have hkept := (h.of_run hrun).2
    rw [hkept.handle] at hasleep
    cases hasleep
  | some data =>
    refine iff_of_true (wp_mono h ?_ fun _ hnone => by cases hnone) rfl
    rintro r s' ⟨-, -, hkept⟩
    rw [hkept.handle]
    rfl

include hlayer

/-- A session that ends otherwise than well leaves an emulated device awake, too. -/
theorem endsAsleep_of_notImplemented {out : α} {bytes : Option Block}
    {decode : Block → Prog σ (AtshaErr × α)}
    (hsend : ∀ packet, bytes = some packet → ∀ s : St σ, s.handle.bottomLayer = .emulation →
      wp (send env packet) (fun reply s' => reply.1 = .notImplemented ∧ s'.handle = s.handle)
        (fun _ => False) s) :
    ¬ EndsAsleep (session env out (exchange (send env) bytes out decode)) s := by
  unfold EndsAsleep
  rw [wp_session_emulation hlayer, exchange, wp_bind, wp_access]
  cases bytes with
  | none => exact id
  | some packet =>
    simp only [wp_bind]
    intro h
    obtain ⟨reply, s₁, hrun, hafter⟩ := (wp_returns_iff _ _ _).mp h
    obtain ⟨hbad, hhandle⟩ := (hsend packet rfl (flagged true s) hlayer).of_run hrun
    simp only [hbad, ne_eq, reduceCtorEq, not_false_eq_true, if_true, if_false, wp_pure] at hafter
    rw [hhandle] at hafter
    cases hafter

/-- The emulated device goes to sleep behind a random number. -/
theorem random_endsAsleep_emulation (number : AtshaBigInt) :
    EndsAsleep (atshaRandom env number) s := by
  unfold EndsAsleep
  rw [atshaRandom, wp_session_emulation hlayer, opRandom_eq, wp_dataExchange]
  refine wp_mono (@wp_send_random σ env (flagged true s) hlayer) ?_ fun _ h => h
  rintro reply s₁ ⟨data, hlen, rfl, -⟩
  have hanswer := answerPacket_length data
  simp only [if_true, opRandomRecv]
  rw [wp_readLongData (framed_answerPacket (by omega)) (by omega), if_pos (by omega),
    payload_answerPacket, hlen, if_neg (show ¬ ((32 : ℕ) : Int).toNat = 0 by decide)]
  rfl

/-- A challenge is answered, or its digest fails, with the device put to sleep by the read of
its key; it stays awake where there is no key. -/
theorem respond_endsAsleep_emulation {kind : DigestKind} {slotNumber : UInt8}
    {challenge : AtshaBigInt} {useSn : Bool}
    (h : ¬ (PlainCall.respond kind slotNumber challenge useSn).Refused) (number : AtshaBigInt) :
    EndsAsleep ((PlainCall.respond kind slotNumber challenge useSn).run env number) s ↔
      (storedSlot s.handle slotNumber.toNat).isSome ∧ (serialPart useSn s.handle.sn).isSome := by
  have hslot : slotNumber ≤ atsha204MaxSlotNumber := UInt8.not_lt.mp fun hlt => h (.inl hlt)
  have hbytes : challenge.bytes = 32 := not_not.mp fun hne => h (.inr hne)
  have hrun : (PlainCall.respond kind slotNumber challenge useSn).run env number =
      ChallengeRequest.run env slotNumber number ⟨kind, challenge.data, useSn⟩ := by
    obtain ⟨bytes, data⟩ := challenge
    obtain rfl : bytes = 32 := hbytes
    cases kind <;> rfl
  have hchallenge := @wp_challenge_emulation σ env s hlayer slotNumber hslot
    ⟨kind, challenge.data, useSn⟩ number
  unfold EndsAsleep
  rw [hrun]
  cases hstored : storedSlot s.handle slotNumber.toNat with
  | none =>
    rw [hstored] at hchallenge
    refine iff_of_false (fun hends => ?_) (by simp)
    obtain ⟨r, s', hrun, hasleep⟩ := (wp_returns_iff _ _ _).mp hends
    obtain ⟨nonce, -, hkept⟩ := hchallenge.of_run hrun
    rw [hkept.handle] at hasleep
    cases hasleep
  | some key =>
    cases hserial : serialPart useSn s.handle.sn with
    | none =>
      rw [hstored, hserial] at hchallenge
      refine iff_of_false (fun hends => ?_) (by simp)
      obtain ⟨r, s', hrun, -⟩ := (wp_returns_iff _ _ _).mp hends
      obtain ⟨nonce, hF⟩ := hchallenge.of_run hrun
      exact hF
    | some serial =>
      rw [hstored, hserial] at hchallenge
      refine iff_of_true (wp_mono hchallenge ?_ fun _ hnone => ?_) (by simp)
      · rintro r s' ⟨nonce, hkept, -⟩
        rw [hkept.handle]
        rfl
      · rcases hnone with hnone | hnone <;> cases hnone

/-- A plain call that is not refused ends asleep exactly when the emulated device has what it
is about. -/
theorem plainCall_endsAsleep_emulation {call : PlainCall} (h : ¬ call.Refused)
    (number : AtshaBigInt) : EndsAsleep (call.run env number) s ↔ call.StoredIn s.handle := by
  have hunknown : ∀ opcode param1 param2 data, (opcode = atsha204OpcodeDevRev ∨
      opcode = atsha204OpcodeWrite ∨ opcode = atsha204OpcodeLock) → ∀ s : St σ,
      s.handle.bottomLayer = .emulation →
      wp (send env (commandPacket opcode param1 param2 data))
        (fun reply s' => reply.1 = .notImplemented ∧ s'.handle = s.handle) (fun _ => False) s :=
    fun opcode param1 param2 data hopcode s hlayer =>
      wp_send_unimplemented hlayer (peek_opcode ..) hopcode
  have hlock : ∀ lock crc packet, opLock lock crc = some packet → ∀ s : St σ,
      s.handle.bottomLayer = .emulation → wp (send env packet)
        (fun reply s' => reply.1 = .notImplemented ∧ s'.handle = s.handle) (fun _ => False) s := by
    intro lock crc packet hpacket
    rw [opLock_eq] at hpacket
    obtain rfl := Option.some.inj hpacket
    exact hunknown _ _ _ _ (.inr (.inr rfl))
  cases call with
  | random => exact iff_of_true (random_endsAsleep_emulation hlayer number) trivial
  | slotRead slotNumber =>
    exact endsAsleep_of_afterRead
      (wp_slotRead_emulation hlayer (fun _ => rfl) (UInt8.not_lt.mp h) number)
  | confRead address =>
    refine (endsAsleep_of_afterRead (wp_confRead_emulation hlayer address number)).trans ?_
    by_cases hzero : address = 0 <;> simp [PlainCall.StoredIn, hzero]
  | otpRead address => exact endsAsleep_of_afterRead (wp_otpRead_emulation hlayer address number)
  | respond kind slotNumber challenge useSn => exact respond_endsAsleep_emulation hlayer h number
  | write call data =>
    rw [plainCall_run h]
    refine iff_of_false (endsAsleep_of_notImplemented hlayer fun packet hpacket => ?_) id
    obtain ⟨sent, -, rfl⟩ := exists_of_generateCommandPacket data.data.property.le hpacket
    exact hunknown _ _ _ _ (.inr (.inl rfl))
  | lockConfig crc =>
    rw [plainCall_run h]
    exact iff_of_false (endsAsleep_of_notImplemented hlayer (hlock _ _)) id
  | lockData crc =>
    rw [plainCall_run h]
    exact iff_of_false (endsAsleep_of_notImplemented hlayer (hlock _ _)) id

/-- The emulator gives no revision. -/
theorem devRev_endsAsleep_emulation (revision : UInt32) :
    ¬ EndsAsleep (atshaDevRev env revision) s := by
  refine @endsAsleep_of_notImplemented _ _ env s hlayer revision opDevRev _
    fun packet hpacket s hlayer => ?_
  rw [opDevRev_eq] at hpacket
  obtain rfl := Option.some.inj hpacket
  exact wp_send_unimplemented hlayer (peek_opcode ..) (.inl rfl)

/-- The emulated device has no configuration word to read the address from. -/
theorem changeAddress_endsAsleep_emulation (address : UInt8) :
    ¬ EndsAsleep (atshaChangeAddress env address) s := by
  have hread := @wp_confRead_emulation σ env s hlayer atsha204CnfMemoryMapI2cAddress
    (env.uninitBigInt .changeAddressLine)
  rw [if_neg (by decide)] at hread
  intro h
  rw [EndsAsleep, atshaChangeAddress_eq, wp_bind] at h
  obtain ⟨r, s₁, hrun, hends⟩ := (wp_returns_iff _ _ _).mp h
  obtain ⟨hbad, hkept⟩ := hread.of_run hrun
  simp only [hbad, ne_eq, not_false_eq_true, if_true, wp_pure] at hends
  rw [hkept.handle] at hends
  cases hends

end Emulation

/-- A call with a device that is not expected to be awake closes the session it opened exactly
when it is refused, or the device does its part: on the I2C layer, every wake of the call
is confirmed and every packet of it answered with what its decoder takes; an emulated
device has what the call is about.
SOURCE: api.c:316-955, communication.c:41-109 -/
theorem session_closed_iff (env : Env σ) (call : ApiCall) (number : AtshaBigInt)
    (revision : UInt32) (s : St σ) (hasleep : s.handle.wakeIsExpected = false) :
    Closes env call number revision s ↔ call.Refused ∨ call.Served env s := by
  rw [closes_iff]
  cases call with
  | plain call =>
    rw [ApiCall.run, endsAsleep_map]
    by_cases href : call.Refused
    · refine iff_of_true (wp_mono (plainCall_refused href number s) ?_ fun _ hF => hF) (.inl href)
      rintro _ s' ⟨-, hlogged⟩
      rw [hlogged.handle]
      exact hasleep
    · refine Iff.trans ?_ (or_iff_right href).symm
      rw [ApiCall.Served]
      cases hlayer : s.handle.bottomLayer with
      | ni2c => exact plainCall_endsAsleep_ni2c hlayer href number hasleep
      | emulation => exact plainCall_endsAsleep_emulation hlayer href number
  | devRev =>
    rw [ApiCall.run, endsAsleep_map]
    refine Iff.trans ?_ (or_iff_right id).symm
    rw [ApiCall.Served]
    cases hlayer : s.handle.bottomLayer with
    | ni2c => exact devRev_endsAsleep_ni2c hlayer revision hasleep
    | emulation => exact iff_of_false (devRev_endsAsleep_emulation hlayer revision) id
  | chipSerialNumber =>
    rw [ApiCall.run, endsAsleep_map]
    refine Iff.trans ?_ (or_iff_right id).symm
    rw [ApiCall.Served]
    cases hlayer : s.handle.bottomLayer with
    | ni2c => exact chipSerialNumber_endsAsleep_ni2c hlayer number hasleep
    | emulation =>
      exact endsAsleep_of_afterRead (wp_chipSerialNumber_emulation hlayer number)
  | serialNumber =>
    rw [ApiCall.run, endsAsleep_map]
    refine Iff.trans ?_ (or_iff_right id).symm
    rw [ApiCall.Served]
    cases hlayer : s.handle.bottomLayer with
    | ni2c => exact serialNumber_endsAsleep_ni2c hlayer hasleep number
    | emulation => exact endsAsleep_of_afterRead (wp_serialNumber_emulation hlayer number)
  | changeAddress address =>
    rw [ApiCall.run, endsAsleep_map]
    refine Iff.trans ?_ (or_iff_right id).symm
    rw [ApiCall.Served]
    cases hlayer : s.handle.bottomLayer with
    | ni2c => exact changeAddress_endsAsleep_ni2c hlayer hasleep address
    | emulation => exact iff_of_false (changeAddress_endsAsleep_emulation hlayer address) id

/-- A random number of an emulated device closes its session. -/
theorem session_closed_random : Closes (replayEnv) (.plain .random) ⟨0, List.Vector.replicate _ 0⟩ 0
    { replayState [] with handle := callocHandle } :=
  (session_closed_iff replayEnv (.plain .random) _ 0 _ rfl).mpr (.inr trivial)

/-- An emulated device asked for its revision is expected to be awake ever after. -/
theorem session_closed_fails : ¬ ∀ (σ : Type) (env : Env σ) (call : ApiCall)
    (number : AtshaBigInt) (revision : UInt32) (s : St σ), s.handle.wakeIsExpected = false →
      ∀ status s', (call.run env number revision).run s = .ok status s' →
        s'.handle.wakeIsExpected = false := by
  intro h
  have hrun : (match (ApiCall.devRev.run replayEnv ⟨0, List.Vector.replicate _ 0⟩ 0).run
        { replayState [] with handle := callocHandle } with
      | .ok status s' => decide (status = .notImplemented) && s'.handle.wakeIsExpected
      | .error _ _ => false) = true := by decide +kernel
  cases hdevRev : (ApiCall.devRev.run replayEnv ⟨0, List.Vector.replicate _ 0⟩ 0).run
      { replayState [] with handle := callocHandle } with
  | error e s' => simp [hdevRev] at hrun
  | ok status s' =>
    have hasleep := h _ replayEnv .devRev ⟨0, List.Vector.replicate _ 0⟩ 0 _ rfl status s' hdevRev
    simp [hdevRev, hasleep] at hrun

end Atsha204.Analysis
