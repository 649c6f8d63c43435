import Atsha204.Analysis.ApiSessions

/-!
# The shape of an accepted answer

Data and status answers differ in the count byte alone, and neither decoder looks at it:
`read_long_data` takes one to thirty-two bytes, `just_check_status` any answer whose first
byte is the status of success. A success means the shape that was asked for exactly when
no answer of another length goes through to the packet and is taken (`ok_means_shape_iff`).
A status of one byte, as the answer to a slot read, is taken for a key of one byte
(`ok_means_shape_fails`).
-/

set_option autoImplicit false

namespace Atsha204.Analysis

open Atsha204.Library
open Atsha204.Model
open Atsha204.Interface

variable {σ : Type} {env : Env σ}

/-- An answer that is taken, and has the length that was asked for, has the shape. -/
theorem hasShape_taken {asked : Option ℕ} {answer : Block} (number : AtshaBigInt)
    (hframed : Framed answer) (htakes : Takes asked answer)
    (hlen : answer.length = asked.getD 1 + 3) : HasShape asked answer (taken asked number answer) := by
  obtain ⟨count, hpeek, hcount⟩ := framed_peek_zero hframed
  rw [hlen] at hcount
  cases asked with
  | some n =>
    have hcells : (payload answer).length = n := by
      rw [payload_length (htakes.1.trans' (by decide)), hlen, Option.getD_some, Nat.add_sub_cancel]
    have hfits : (payload answer).length ≤ 32 := by
      rw [hcells]
      have hmax : answer.length ≤ 35 := htakes.2
      rw [hlen, Option.getD_some] at hmax
      omega
    have htake := filled_take number.data hfits
    rw [hcells] at htake
    refine ⟨hlen, ?_, hcells, htake⟩
    rw [hpeek, ← UInt8.ofNat_toNat (x := count), hcount]
    rfl
  | none =>
    refine ⟨hlen, ?_, htakes⟩
    rw [hpeek, ← UInt8.ofNat_toNat (x := count), hcount]
    rfl

/-- An answer of the shape that was asked for has the length of it. -/
theorem hasShape_length {asked : Option ℕ} {answer : Block} {number : AtshaBigInt}
    (h : HasShape asked answer number) : answer.length = asked.getD 1 + 3 := by
  cases asked with
  | some n => exact h.1
  | none => exact h.1

/-- A program that succeeds with what is delivered and taken gives the shape that was asked
for exactly when everything that is delivered and taken has the length that was. -/
theorem okMeansShape_iff_delivered {x : Prog σ (AtshaErr × AtshaBigInt)}
    {prologue : Prog σ AtshaErr} {packet : Option Block} {asked : Option ℕ}
    {number : AtshaBigInt} {s : St σ} {finish : St σ → St σ}
    (hok : ∀ r s', x.run s = .ok (.ok, r) s' ↔ ∃ answer s₁ s₂ s₃,
      Delivered env prologue packet s answer s₁ s₂ ∧
        (decode asked number answer).run s₂ = .ok (.ok, r) s₃ ∧ s' = finish s₃)
    (hframed : ∀ answer s₁ s₂, Delivered env prologue packet s answer s₁ s₂ →
      Framed answer ∧ 3 ≤ answer.length) :
    OkMeansShape env x prologue packet asked s ↔ ∀ answer s₁ s₂,
      Delivered env prologue packet s answer s₁ s₂ → Takes asked answer →
        answer.length = asked.getD 1 + 3 := by
  constructor
  · intro h answer s₁ s₂ hdelivered htakes
    obtain ⟨hfr, hlen⟩ := hframed answer s₁ s₂ hdelivered
    have hdecode := (decode_ok_iff asked number _ hfr hlen s₂ s₂).mpr ⟨htakes, rfl, rfl⟩
    have hrun := (hok _ _).mpr ⟨answer, s₁, s₂, s₂, hdelivered, hdecode, rfl⟩
    obtain ⟨answer', s₁', s₂', hdelivered', hshape⟩ := h _ _ hrun
    rw [Delivered.unique hdelivered hdelivered']
    exact hasShape_length hshape
  · intro h r s' hrun
    obtain ⟨answer, s₁, s₂, s₃, hdelivered, hdecode, -⟩ := (hok r s').mp hrun
    obtain ⟨hfr, hlen⟩ := hframed answer s₁ s₂ hdelivered
    obtain ⟨htakes, rfl, -⟩ := (decode_ok_iff asked number r hfr hlen s₂ s₃).mp hdecode
    exact ⟨answer, s₁, s₂, hdelivered,
      hasShape_taken number hfr htakes (h answer s₁ s₂ hdelivered htakes)⟩

/-- Where what is delivered is what the link answers, no answer may misfit. -/
theorem okMeansShape_iff_noMisfit {x : Prog σ (AtshaErr × AtshaBigInt)}
    {prologue : Prog σ AtshaErr} {packet : Option Block} {asked : Option ℕ}
    {number : AtshaBigInt} {s : St σ} {finish : St σ → St σ} {before : σ → Prop}
    (hok : ∀ r s', x.run s = .ok (.ok, r) s' ↔ ∃ answer s₁ s₂ s₃,
      Delivered env prologue packet s answer s₁ s₂ ∧
        (decode asked number answer).run s₂ = .ok (.ok, r) s₃ ∧ s' = finish s₃)
    (hlink : ∀ answer, (∃ s₁ s₂, Delivered env prologue packet s answer s₁ s₂) ↔
      ∃ b₁ bytes b₂, before b₁ ∧ packet = some bytes ∧ Answers env.bus bytes b₁ answer b₂) :
    OkMeansShape env x prologue packet asked s ↔ NoMisfit env.bus before packet asked := by
  have hframed : ∀ answer s₁ s₂, Delivered env prologue packet s answer s₁ s₂ →
      Framed answer ∧ 3 ≤ answer.length := by
    intro answer s₁ s₂ hdelivered
    obtain ⟨b₁, bytes, b₂, -, -, hanswers⟩ := (hlink answer).mp ⟨s₁, s₂, hdelivered⟩
    exact framed_of_answers hanswers
  rw [okMeansShape_iff_delivered hok hframed]
  constructor
  · intro hlen bytes b answer b' hpacket hbefore hanswers htakes
    obtain ⟨s₁, s₂, hdelivered⟩ := (hlink answer).mpr ⟨b, bytes, b', hbefore, hpacket, hanswers⟩
    exact hlen answer s₁ s₂ hdelivered htakes
  · intro hfits answer s₁ s₂ hdelivered htakes
    obtain ⟨b₁, bytes, b₂, hbefore, hpacket, hanswers⟩ := (hlink answer).mp ⟨s₁, s₂, hdelivered⟩
    exact hfits bytes b₁ answer b₂ hpacket hbefore hanswers htakes

/-- On the native layer a call that is not refused is told apart exactly when the device gives no
answer that misfits. -/
theorem plainCall_fits_ni2c {call : PlainCall} (h : ¬ call.Refused) (number : AtshaBigInt)
    {s : St σ} (hlayer : s.handle.bottomLayer = .ni2c) :
    OkMeansShape env (call.run env number) (call.prologue env) call.packet call.asked s ↔
      NoMisfit env.bus (call.Before env.bus s.handle.wakeIsExpected s.bus) call.packet
        call.asked :=
  okMeansShape_iff_noMisfit (plainCall_ok_iff h number · s) (delivered_iff hlayer call)

/-- What the emulated device answers a call with is no longer than 32 bytes. -/
theorem emulatedData_length {handle : AtshaHandle} {data : Block} {call : PlainCall}
    (h : EmulatedData handle data call) : data.length ≤ 32 := by
  cases call with
  | confRead address => exact h.2.2.le
  | random | slotRead _ | respond _ _ _ _ => exact (Option.some.inj h).ge
  | otpRead _ => exact (Option.some.inj h).symm.trans_le (by decide)
  | write _ _ | lockConfig _ | lockData _ => cases h

/-- An emulated device gives another shape to one read only. -/
theorem plainCall_fits_emulation {call : PlainCall} (h : ¬ call.Refused) (number : AtshaBigInt)
    {s : St σ} (hlayer : s.handle.bottomLayer = .emulation) :
    OkMeansShape env (call.run env number) (call.prologue env) call.packet call.asked s ↔
      call.FitsIn s.handle := by
  have hdata := fun answer s₁ s₂ => @delivered_emulation σ env s hlayer call h answer s₁ s₂
  have hframed : ∀ answer s₁ s₂, Delivered env (call.prologue env) call.packet s answer s₁ s₂ →
      Framed answer ∧ 3 ≤ answer.length := by
    intro answer s₁ s₂ hdelivered
    obtain ⟨data, rfl, hd⟩ := hdata answer s₁ s₂ hdelivered
    have hlen := emulatedData_length hd
    exact ⟨framed_answerPacket (by omega), by rw [answerPacket_length]; omega⟩
  rw [okMeansShape_iff_delivered (plainCall_ok_iff h number · s) hframed]
  have hplain : (∀ data, EmulatedData s.handle data call → call.asked = some data.length) →
      ∀ answer s₁ s₂, Delivered env (call.prologue env) call.packet s answer s₁ s₂ →
        Takes call.asked answer → answer.length = call.asked.getD 1 + 3 := by
    intro hasked answer s₁ s₂ hdelivered _
    obtain ⟨data, rfl, hd⟩ := hdata answer s₁ s₂ hdelivered
    rw [answerPacket_length, hasked data hd, Option.getD_some]
  match call with
  | .confRead address =>
    constructor
    · rintro hlen ⟨rfl, hstored⟩
      obtain ⟨sn, hsn⟩ := Option.isSome_iff_exists.mp hstored
      have hread := @wp_confRead_emulation σ env s hlayer 0 number
      rw [if_pos rfl, hsn] at hread
      obtain ⟨r, s', hrun, hok, -⟩ := (wp_returns_iff _ _ _).mp
        (wp_mono hread (fun _ _ h => h) fun _ hnone => by cases hnone)
      obtain ⟨status, r⟩ := r
      obtain rfl : status = .ok := hok
      obtain ⟨answer, s₁, s₂, s₃, hdelivered, hdecode, -⟩ :=
        (plainCall_ok_iff h number r s s').mp hrun
      obtain ⟨hfr, hthree⟩ := hframed answer s₁ s₂ hdelivered
      have hseven := hlen answer s₁ s₂ hdelivered
        ((decode_ok_iff _ number r hfr hthree s₂ s₃).mp hdecode).1
      obtain ⟨data, rfl, -, -, hd⟩ := hdata answer s₁ s₂ hdelivered
      rw [answerPacket_length, hd] at hseven
      cases hseven
    · intro hno answer s₁ s₂ hdelivered _
      obtain ⟨data, -, hzero, hstored, -⟩ := hdata answer s₁ s₂ hdelivered
      exact absurd ⟨hzero, hstored⟩ hno
  | .random | .slotRead _ | .otpRead _ | .respond .. | .write .. | .lockConfig _ | .lockData _ =>
    exact iff_of_true (hplain fun _ hd => hd) trivial

/-- A refused call does not succeed. -/
theorem okMeansShape_of_refused {call : PlainCall} (h : call.Refused) (number : AtshaBigInt)
    (s : St σ) :
    OkMeansShape env (call.run env number) (call.prologue env) call.packet call.asked s := by
  intro r s' hrun
  have hrefused := ((plainCall_refused h number s).of_run hrun).1
  cases (Prod.mk.inj hrefused).1

/-! ## Loading a nonce -/

/-- The load succeeds with what is delivered for it and decoded. -/
theorem loadNonce_delivered_iff (challenge number r : AtshaBigInt) (s s' : St σ) :
    (leaving number (loadNonce env challenge)).run s = .ok (.ok, r) s' ↔
      ∃ answer s₁ s₂ s₃, Delivered env (pure .ok) (opNonce challenge.bytes challenge.data.val) s
          answer s₁ s₂ ∧
        (decode none number answer).run s₂ = .ok (.ok, r) s₃ ∧ s' = id s₃ := by
  have hexchange : leaving number (loadNonce env challenge) = exchange (send env)
      (opNonce challenge.bytes challenge.data.val) number (decode none number) :=
    leaving_exchange number (send env) _
  rw [hexchange, run_exchange_ok_iff]
  constructor
  · rintro ⟨bytes, answer, s₂, hpacket, hsend, hdecode⟩
    exact ⟨answer, s, s₂, s', ⟨rfl, bytes, hpacket, hsend⟩, hdecode, rfl⟩
  · rintro ⟨answer, s₁, s₂, s₃, ⟨hbefore, bytes, hpacket, hsend⟩, hdecode, rfl⟩
    obtain ⟨-, rfl⟩ := EStateM.Result.ok.inj hbefore
    exact ⟨bytes, answer, s₂, hpacket, hsend, hdecode⟩

/-- On the native I2C layer, what is delivered for a nonce is what the link answers. -/
theorem nonce_delivered_iff {challenge : AtshaBigInt} {s : St σ}
    (hlayer : s.handle.bottomLayer = .ni2c) (answer : Block) :
    (∃ s₁ s₂, Delivered env (pure .ok) (opNonce challenge.bytes challenge.data.val) s
        answer s₁ s₂) ↔
      ∃ b₁ bytes b₂, b₁ = s.bus ∧ opNonce challenge.bytes challenge.data.val = some bytes ∧
        Answers env.bus bytes b₁ answer b₂ := by
  have hsends := fun bytes (hpacket : opNonce challenge.bytes challenge.data.val = some bytes) =>
    @send_ok_iff σ env s hlayer bytes (framed_nonce hpacket) answer fun _ _ => True
  simp only [and_true] at hsends
  constructor
  · rintro ⟨s₁, s₂, hbefore, bytes, hpacket, hsend⟩
    obtain ⟨-, rfl⟩ := EStateM.Result.ok.inj hbefore
    obtain ⟨b', hanswers⟩ := (hsends bytes hpacket).mp ⟨s₂, hsend⟩
    exact ⟨s.bus, bytes, b', rfl, hpacket, hanswers⟩
  · rintro ⟨_, bytes, b', rfl, hpacket, hanswers⟩
    obtain ⟨s₂, hsend⟩ := (hsends bytes hpacket).mpr ⟨b', hanswers⟩
    exact ⟨s, s₂, rfl, bytes, hpacket, hsend⟩

/-- An emulated device answers a nonce with the status of success. -/
theorem nonce_delivered_emulation {challenge : AtshaBigInt} {s : St σ}
    (hlayer : s.handle.bottomLayer = .emulation) (answer : Block) (s₁ s₂ : St σ)
    (h : Delivered env (pure .ok) (opNonce challenge.bytes challenge.data.val) s answer s₁ s₂) :
    answer = answerPacket [atsha204StatusSucces] := by
  obtain ⟨hbefore, bytes, hpacket, hsend⟩ := h
  obtain ⟨-, rfl⟩ := EStateM.Result.ok.inj hbefore
  have hanswer := (wp_send_nonce hlayer hpacket).of_run hsend
  exact Option.some.inj (Prod.mk.inj hanswer).2

/-- A nonce is loaded with the status of success only, where the link has no other answer
that begins with this byte. The emulator has none. -/
theorem loadNonce_fits (challenge number : AtshaBigInt) (s : St σ) :
    OkMeansShape env (leaving number (loadNonce env challenge)) (pure .ok)
        (opNonce challenge.bytes challenge.data.val) none s ↔
      (s.handle.bottomLayer = .ni2c → NoMisfit env.bus (· = s.bus)
        (opNonce challenge.bytes challenge.data.val) none) := by
  have hok := fun r s' => @loadNonce_delivered_iff σ env challenge number r s s'
  cases hlayer : s.handle.bottomLayer with
  | ni2c =>
    rw [okMeansShape_iff_noMisfit hok (nonce_delivered_iff hlayer)]
    exact ⟨fun h _ => h, fun h => h rfl⟩
  | emulation =>
    have hsuccess := @nonce_delivered_emulation σ env challenge s hlayer
    rw [okMeansShape_iff_delivered hok fun answer s₁ s₂ h => ?_]
    · refine iff_of_true (fun answer s₁ s₂ h _ => ?_) fun h => by cases h
      rw [hsuccess answer s₁ s₂ h]
      rfl
    · rw [hsuccess answer s₁ s₂ h]
      exact ⟨framed_answerPacket (by decide), by decide⟩

/-- A success means an answer of the shape that was asked for exactly when the call is refused,
or the device gives no answer of another length that goes through and is taken; and so for
loading a nonce.
SOURCE: operations.c:40-59, communication.c:127-165, api.c:394-618, api.c:697-955 -/
theorem ok_means_shape_iff (env : Env σ) :
    (∀ (call : PlainCall) (number : AtshaBigInt) (s : St σ),
      OkMeansShape env (call.run env number) (call.prologue env) call.packet call.asked s ↔
        call.Refused ∨ call.Fits env s) ∧
    ∀ (challenge number : AtshaBigInt) (s : St σ),
      OkMeansShape env (leaving number (loadNonce env challenge)) (pure .ok)
          (opNonce challenge.bytes challenge.data.val) none s ↔
        (s.handle.bottomLayer = .ni2c → NoMisfit env.bus (· = s.bus)
          (opNonce challenge.bytes challenge.data.val) none) := by
  refine ⟨fun call number s => ?_, loadNonce_fits⟩
  by_cases href : call.Refused
  · exact iff_of_true (okMeansShape_of_refused href number s) (.inl href)
  · rw [or_iff_right href, PlainCall.Fits]
    cases hlayer : s.handle.bottomLayer with
    | ni2c => exact plainCall_fits_ni2c href number hlayer
    | emulation => exact plainCall_fits_emulation href number hlayer

/-- A slot read that is answered with a status of one byte succeeds with a key of one byte. -/
theorem ok_means_shape_fails : ¬ ∀ (σ : Type) (env : Env σ) (call : PlainCall)
    (number : AtshaBigInt) (s : St σ),
    OkMeansShape env (call.run env number) (call.prologue env) call.packet call.asked s := by
  intro h
  let frame := frameOf (answerPacket [atsha204StatusCheckMacMiscompare])
  let s := replayState [some wakeOkFrame, some frame]
  have href : ¬ (PlainCall.slotRead 0).Refused := by
    change ¬ atsha204MaxSlotNumber < 0
    decide
  have hfits := (plainCall_fits_ni2c href ⟨0, List.Vector.replicate _ 0⟩ (s := s) rfl).mp
    (h _ replayEnv (.slotRead 0) ⟨0, List.Vector.replicate _ 0⟩ s)
  have hjudge : judgeCommand frame =
      some (.accept (answerPacket [atsha204StatusCheckMacMiscompare])) := by decide +kernel
  have hlen := hfits _ _ _ _ rfl (confirms_wakeOkFrame [some frame])
    (answers_of_judgeCommand hjudge _ [])
    ⟨by decide, by decide⟩
  cases hlen

end Atsha204.Analysis
