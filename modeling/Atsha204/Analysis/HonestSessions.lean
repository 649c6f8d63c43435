import Atsha204.Analysis.DeviceSessions

/-!
# What sessions with an honest device say

A plain call that succeeds has brought the link from one state to another, and taken an answer out
of it (`link_of_plainCall`). Where what goes through the link can be trusted, a request of a user
that succeeds gives what the chip has to answer (`request_honest`), whatever else the link does.
-/

set_option autoImplicit false

namespace Atsha204.Analysis

open Atsha204.Library
open Atsha204.Model
open Atsha204.Interface

variable {σ : Type} {env : Env σ}

/-! ## A plain call -/

/-- What a plain call that succeeds has done over the link. -/
theorem link_of_plainCall {s s' : St σ} (hlayer : s.handle.bottomLayer = .ni2c) (call : PlainCall)
    (h : ¬ call.Refused) {number r : AtshaBigInt}
    (hrun : (call.run env number).run s = .ok (.ok, r) s') :
    ∃ b₁ bytes answer b₂, call.Before env.bus s.handle.wakeIsExpected s.bus b₁ ∧
      call.packet = some bytes ∧ Answers env.bus bytes b₁ answer b₂ ∧ Takes call.asked answer ∧
      r = taken call.asked number answer ∧
      s'.handle = { s.handle with wakeIsExpected := false } ∧
      s'.bus = (env.bus.write [atsha204I2cWaIdle] b₂).2 := by
  obtain ⟨answer, s₁, s₂, s₃, ⟨hprologue, bytes, hpacket, hsend⟩, hdecode, rfl⟩ :=
    (plainCall_ok_iff h number r s s').mp hrun
  obtain ⟨b₁, hbefore, hhandle₁, rfl⟩ := (prologue_ok_iff hlayer call
    fun handle b => handle = s₁.handle ∧ b = s₁.bus).mp ⟨s₁, hprologue, rfl, rfl⟩
  have hlayer₁ : s₁.handle.bottomLayer = .ni2c := by rw [← hhandle₁]; exact hlayer
  obtain ⟨b₂, hanswers, hhandle₂, rfl⟩ := (send_ok_iff hlayer₁ (framed_packet hpacket) answer
    fun handle b => handle = s₂.handle ∧ b = s₂.bus).mp ⟨s₂, hsend, rfl, rfl⟩
  have hlayer₂ : s₂.handle.bottomLayer = .ni2c := by rw [← hhandle₂]; exact hlayer₁
  obtain ⟨hframed, hlen⟩ := framed_of_answers hanswers
  obtain ⟨htakes, rfl, rfl⟩ := (decode_ok_iff call.asked number r hframed hlen s₂ s₃).mp hdecode
  refine ⟨_, bytes, answer, _, hbefore, hpacket, hanswers, htakes, rfl, ?_, ?_⟩
  · rw [idled_handle, ← hhandle₂, ← hhandle₁]
  · rw [idled_ni2c hlayer₂]
    rfl

/-- A run that gives up at a bad status does not end with a good one. -/
theorem ok_of_run_ite {status : AtshaErr} {number r : AtshaBigInt} {s s' : St σ}
    {rest : Prog σ (AtshaErr × AtshaBigInt)}
    (h : (if status ≠ .ok then pure (status, number) else rest).run s = .ok (.ok, r) s') :
    status = .ok := by
  by_contra hbad
  rw [if_pos hbad] at h
  obtain ⟨hstatus, -⟩ := EStateM.Result.ok.inj h
  exact hbad (Prod.mk.inj hstatus).1

/-- A number that holds an OTP word begins with it. -/
theorem take_of_otpWord {chip : Chip} {number : AtshaBigInt} {address : ℕ}
    (h : Holds number (chip.otpWord address)) (haddress : address < 16) :
    number.data.val.take 4 = chip.otpWord address := by
  have htake := h.take_eq
  rwa [otpWord_length chip _ haddress] at htake

section Honest

variable {openssl : OpenSsl} {device : σ → Device} (hhonest : Honest openssl env.bus device)
  {chip : Chip} {s s' : St σ} (hs : Resting device chip s)
include hhonest hs

/-- A device that was woken has the chip that it had. -/
theorem chip_of_wakes {b₁ : σ} (h : Wakes env.bus s.handle.wakeIsExpected s.bus b₁) :
    (device b₁).chip = chip := by
  rw [hs.asleep] at h
  rw [hhonest.wakes _ _ h, hs.chip_eq]

omit hs in
/-- Behind a call that has left the chip as it was, the next call may be made. -/
theorem resting_idled {b₂ : σ} (hlayer : s.handle.bottomLayer = .ni2c)
    (hchip : (device b₂).chip = chip)
    (hhandle : s'.handle = { s.handle with wakeIsExpected := false })
    (hbus : s'.bus = (env.bus.write [atsha204I2cWaIdle] b₂).2) : Resting device chip s' :=
  ⟨by rw [hhandle]; exact hlayer, by rw [hhandle], by rw [hbus, hhonest.idles, hchip]⟩

/-- What an accepted answer to an inquiry says of a chip whose reaction is known. -/
theorem told_honest {inquiry : Inquiry} {reaction : Reaction} {b b' : σ} {answer : Block}
    (hchip : (device b).chip = chip)
    (hreaction : ∀ d : Device, d.chip = chip → d.reaction openssl inquiry = reaction)
    (hanswers : Answers env.bus inquiry.packet b answer b') :
    reaction ≠ .refuses ∧ (∀ data, reaction = .answers data → answer = answerPacket data) ∧
      (reaction ≠ .unsettled → (device b').chip = chip) := by
  have htells := hhonest.answers b b' inquiry answer hanswers
  rw [hreaction _ hchip] at htells
  cases reaction with
  | answers data =>
    refine ⟨by simp, ?_, fun _ => htells.2.1.trans hchip⟩
    rintro data' hdata
    obtain rfl := Reaction.answers.inj hdata
    exact htells.1
  | refuses => exact htells.elim
  | untold => exact ⟨by simp, by simp, fun _ => Eq.trans htells hchip⟩
  | unsettled => exact ⟨by simp, by simp, fun h => absurd rfl h⟩

/-- A call of one inquiry that succeeds: the device does not refuse it, what is taken is what it
answers, and its chip is as it was. -/
theorem call_honest (call : PlainCall) (inquiry : Inquiry) (h : ¬ call.Refused)
    (hbefore : ∀ b', call.Before env.bus s.handle.wakeIsExpected s.bus b' →
      Wakes env.bus s.handle.wakeIsExpected s.bus b')
    (hpacket : call.packet = some inquiry.packet) {n : ℕ} (hasked : call.asked = some n)
    {reaction : Reaction}
    (hreaction : ∀ d : Device, d.chip = chip → d.reaction openssl inquiry = reaction)
    {number r : AtshaBigInt} (hrun : (call.run env number).run s = .ok (.ok, r) s') :
    reaction ≠ .refuses ∧ (∀ data, reaction = .answers data → Holds r data) ∧
      (reaction ≠ .unsettled → Resting device chip s') := by
  obtain ⟨b₁, bytes, answer, b₂, hlink, hbytes, hanswers, -, rfl, hhandle, hbus⟩ :=
    link_of_plainCall hs.layer call h hrun
  obtain rfl := Option.some.inj (hpacket.symm.trans hbytes)
  have hchip₁ := chip_of_wakes hhonest hs (hbefore b₁ hlink)
  obtain ⟨hno, htrue, hchip⟩ := told_honest hhonest hs hchip₁ hreaction hanswers
  refine ⟨hno, ?_, fun h => resting_idled hhonest hs.layer (hchip h) hhandle hbus⟩
  rintro data rfl
  rw [htrue data rfl, hasked]
  exact holds_taken (answered_length_le (hreaction (device b₁) hchip₁)) n number

/-- An OTP word that is read is the one of the chip, where its mode is known.
SOURCE: api.c:771-807 -/
theorem otpRead_honest (hmode : chip.otpMode = atsha204ConfigOtpmodeReadonly) {address : UInt8}
    (haddress : address.toNat < 16) {number r : AtshaBigInt}
    (hrun : (atshaRawOtpRead env address number).run s = .ok (.ok, r) s') :
    Holds r (chip.otpWord address.toNat) ∧ Resting device chip s' := by
  by_cases hlocked : chip.dataLocked = true
  · have hreaction : ∀ d : Device, d.chip = chip → d.reaction openssl (.otpWord address) =
        .answers (chip.otpWord address.toNat) := by
      rintro d rfl
      exact reaction_otpWord hlocked hmode haddress
    obtain ⟨-, htrue, hrest⟩ := call_honest hhonest hs (.otpRead address) (.otpWord address) id
      (fun _ => id) (opRawRead_eq _ _) rfl hreaction hrun
    exact ⟨htrue _ rfl, hrest (by simp)⟩
  · have hreaction : ∀ d : Device, d.chip = chip →
        d.reaction openssl (.otpWord address) = .refuses := by
      rintro d rfl
      exact reaction_otpWord_unlocked (by simpa using hlocked)
    exact absurd rfl (call_honest hhonest hs (.otpRead address) (.otpWord address) id
      (fun _ => id) (opRawRead_eq _ _) rfl hreaction hrun).1

/-- A serial number that is read is the one of the chip. -/
theorem serialNumber_honest (hmode : chip.otpMode = atsha204ConfigOtpmodeReadonly)
    {number r : AtshaBigInt}
    (hrun : (atshaSerialNumber env number).run s = .ok (.ok, r) s') :
    Holds r chip.serial ∧ Resting device chip s' := by
  rw [atshaSerialNumber_eq, run_bind_eq_ok_iff] at hrun
  obtain ⟨⟨status, first⟩, s₁, hfirst, hrun⟩ := hrun
  obtain rfl : status = .ok := ok_of_run_ite hrun
  obtain ⟨hholds₁, hs₁⟩ := otpRead_honest hhonest hs hmode (by decide) hfirst
  have hfront : first.data.val.take 4 = chip.otpWord 0 := take_of_otpWord hholds₁ (by decide)
  rw [if_neg (by simp), serialBack, run_bind_of_run (run_access_some (overwrite_filled number.data
    (by rw [hfront, otpWord_length chip _ (by decide)]; decide)) s₁), run_bind_eq_ok_iff] at hrun
  obtain ⟨⟨status, second⟩, s₂, hsecond, hrun⟩ := hrun
  obtain rfl : status = .ok := ok_of_run_ite hrun
  obtain ⟨hholds₂, hs₂⟩ := otpRead_honest hhonest hs₁ hmode (by decide) hsecond
  have hback : second.data.val.take 4 = chip.otpWord 1 := take_of_otpWord hholds₂ (by decide)
  have hserial : chip.otpWord 0 ++ chip.otpWord 1 = chip.serial := otpWord_serial chip
  have hlen : chip.serial.length = 8 := serial_length chip
  rw [if_neg (by simp), serialEnd, hfront, hback, hserial, run_bind_of_run (run_access_some
    (overwrite_filled _ (by omega)) s₂)] at hrun
  obtain ⟨hr, rfl⟩ := EStateM.Result.ok.inj hrun
  obtain ⟨-, rfl⟩ := Prod.mk.inj hr
  exact ⟨by rw [← hlen]; exact holds_filled _ (by omega), hs₂⟩

/-- A serial number of the chip that is read is the one of the chip. -/
theorem chipSerialNumber_honest {number r : AtshaBigInt}
    (hrun : (atshaChipSerialNumber env number).run s = .ok (.ok, r) s') :
    Holds r chip.ownSerial ∧ Resting device chip s' := by
  have hreaction : ∀ d : Device, d.chip = chip →
      d.reaction openssl .configBlock = .answers (chip.config.val.take 32) := by
    rintro d rfl
    rfl
  rw [atshaChipSerialNumber, dataExchange_eq, opSerialNumber_eq] at hrun
  obtain ⟨answer, ⟨b₁, b₂, hconfirms, hanswers, hbus⟩, ⟨-, rfl⟩, hhandle⟩ :=
    exchanges_of_run hs.layer (framed_inquiry .configBlock) (decodeSerial_ok_iff number) hs.asleep
      hrun
  have hchip₁ : (device b₁).chip = chip := by rw [hhonest.wakes _ _ hconfirms, hs.chip_eq]
  obtain ⟨-, htrue, hchip⟩ := told_honest hhonest hs hchip₁ hreaction hanswers
  rw [htrue _ rfl, ownSerial_of_answer]
  have hown := ownSerial_length chip
  refine ⟨by rw [← hown]; exact holds_filled number.data (by omega), ?_⟩
  exact ⟨by rw [hhandle]; exact hs.layer, by rw [hhandle]; exact hs.asleep,
    by rw [hbus, hhonest.idles, hchip (by simp)]⟩

/-- A digest that is given is the one of the chip.
SOURCE: api.c:492-618 -/
theorem respond_honest {slot : Fin 16} (hcomputes : chip.Computes slot)
    {request : ChallengeRequest} {digest : Block}
    (hdigest : chip.digest openssl (UInt8.ofNat slot) request = some digest)
    {number r : AtshaBigInt}
    (hrun : (request.run env (UInt8.ofNat slot) number).run s = .ok (.ok, r) s') :
    Holds r digest ∧ Resting device chip s' := by
  obtain ⟨kind, challenge, useSn⟩ := request
  have hrefused : ∀ kind,
      ¬ (PlainCall.respond kind (UInt8.ofNat slot) ⟨32, challenge⟩ useSn).Refused := by
    rintro kind (hbig | hbytes)
    · exact absurd (slot_le slot) (UInt8.not_le.mpr hbig)
    · exact hbytes rfl
  cases kind with
  | hmac =>
    obtain ⟨b₂, packet, answer, b₃, hbefore, hpacket, hanswers, -, rfl, hhandle, hbus⟩ :=
      link_of_plainCall hs.layer (.respond .hmac (UInt8.ofNat slot) ⟨32, challenge⟩ useSn)
        (hrefused .hmac) hrun
    obtain ⟨b₁, noncePacket, loaded, hwakes, hnonce, hloaded, -⟩ := hbefore
    obtain rfl := Option.some.inj ((opNonce_eq challenge.property).symm.trans hnonce)
    obtain rfl := Option.some.inj ((opHmac_eq (UInt8.ofNat slot) useSn).symm.trans hpacket)
    have hchip₁ := chip_of_wakes hhonest hs hwakes
    obtain ⟨-, hchip₂, hnonce₂⟩ := hhonest.answers b₁ b₂ (.nonce challenge) loaded hloaded
    rw [hchip₁] at hchip₂
    have htells := hhonest.answers b₂ b₃ (.hmac slot useSn) answer hanswers
    rw [reaction_hmac hnonce₂ (by rw [hchip₂]; exact hcomputes)
      (by rw [hchip₂]; exact hdigest)] at htells
    obtain ⟨rfl, hchip₃, -⟩ := htells
    rw [hchip₂] at hchip₃
    exact ⟨holds_taken (chip_digest_length hdigest).le 32 number,
      resting_idled hhonest hs.layer hchip₃ hhandle hbus⟩
  | mac =>
    have hreaction : ∀ d : Device, d.chip = chip →
        d.reaction openssl (.mac slot challenge useSn) = .answers digest := by
      rintro d rfl
      exact reaction_mac hcomputes hdigest
    obtain ⟨-, htrue, hrest⟩ := call_honest hhonest hs
      (.respond .mac (UInt8.ofNat slot) ⟨32, challenge⟩ useSn) (.mac slot challenge useSn)
      (hrefused .mac) (fun _ => id) (opMac_eq _ _ challenge.property) rfl hreaction hrun
    exact ⟨htrue digest rfl, hrest (by simp)⟩

/-- What a request gives that succeeds is what a chip with the settings of `init` has to answer.
SOURCE: api.c:492-678, api.c:771-807 -/
theorem request_honest (hchip : chip.Provisioned) {request : Request} {bytes : Block}
    (h : request.answer openssl chip = some bytes) {number r : AtshaBigInt}
    (hrun : (request.run env number).run s = .ok (.ok, r) s') :
    Holds r bytes ∧ Resting device chip s' := by
  cases request with
  | otp address =>
    obtain rfl := Option.some.inj h
    have hlt : (UInt8.ofNat address).toNat < 16 := (slot_toNat address).trans_lt address.isLt
    have hread := otpRead_honest hhonest hs hchip.otpMode hlt hrun
    rwa [slot_toNat] at hread
  | serialNumber =>
    obtain rfl := Option.some.inj h
    exact serialNumber_honest hhonest hs hchip.otpMode hrun
  | chipSerialNumber =>
    obtain rfl := Option.some.inj h
    exact chipSerialNumber_honest hhonest hs hrun
  | respond slotNumber request =>
    exact respond_honest hhonest hs (Provisioned.computes hchip slotNumber) h hrun

end Honest

end Atsha204.Analysis
