import Atsha204.Analysis.ClientSessions
import Atsha204.Analysis.HonestSessions

/-!
# Who is accepted by a key server

A device that is opened anew for every challenge answers them all as the server does with its
credential, be it a chip or its copy in a file (`device_authenticated`). And wherever an answer of a
chip is the one that the server expects, the credential is that of the chip, or what the chip took
the HMAC of and what the server took it of differ and collide (`accepted_with_own_credential`).
-/

set_option autoImplicit false

namespace Atsha204.Analysis

open Atsha204.Library
open Atsha204.Model
open Atsha204.Interface

variable {σ τ : Type} {env : Env σ} {device : σ → Device} {chip : Chip}

/-! ## Credentials -/

/-- What the holder of a credential answers is what the chip answers. -/
theorem digest_of_credential {credential : Credential} (h : credential.Of chip) (openssl : OpenSsl)
    (challenge : List.Vector UInt8 32) :
    chip.digest openssl (UInt8.ofNat credential.slot) ⟨.hmac, challenge, true⟩ =
      credential.answer openssl challenge := by
  have hserial : serialPart true (some chip.serial) = some credential.serial.val := by
    rw [h.serial]
    exact copyOut_all credential.serial.property
  rw [Chip.digest, hserial, Option.bind_eq_bind, Option.bind_some, if_pos (slot_le _), slot_toNat,
    h.key]
  rfl

/-- An answer of the chip is a digest under one of its keys. -/
theorem digestAnswer_of_chip {openssl : OpenSsl} {slot : Fin 16}
    {challenge : List.Vector UInt8 32} {bytes : Block}
    (h : chip.digest openssl (UInt8.ofNat slot) ⟨.hmac, challenge, true⟩ = some bytes) :
    digestAnswer openssl (UInt8.ofNat slot) (chip.key slot) chip.serial challenge = some bytes := by
  have hserial : serialPart true (some chip.serial) = some chip.serial :=
    copyOut_all (serial_length chip)
  rw [Chip.digest, hserial, Option.bind_eq_bind, Option.bind_some, if_pos (slot_le _),
    slot_toNat] at h
  exact h

/-- The slot and the serial number can be told from the message. -/
theorem hmacText_inj {slot slot' : UInt8} {serial serial' : Block}
    {challenge : List.Vector UInt8 32} (h : serial.length = 8) (h' : serial'.length = 8)
    (htext : hmacText slot serial challenge = hmacText slot' serial' challenge) :
    slot = slot' ∧ serial = serial' := by
  have htail := List.append_cancel_left htext
  simp only [messageTail, List.cons_append, List.nil_append, List.append_assoc, List.cons.injEq,
    true_and] at htail
  exact ⟨htail.1, (List.append_inj htail.2 (h.trans h'.symm)).1⟩

/-- No two slots are numbered alike. -/
theorem slot_inj {slot slot' : Fin 16} (h : UInt8.ofNat slot = UInt8.ofNat slot') :
    slot = slot' := by
  apply Fin.ext
  rw [← slot_toNat slot, h, slot_toNat]

/-- An answer of the chip that the holder of a credential gives too: the credential is that of the
chip, or the two collide. -/
theorem of_or_collides {openssl : OpenSsl} {credential : Credential} {slot : Fin 16}
    {challenge : List.Vector UInt8 32} {bytes : Block}
    (h : chip.digest openssl (UInt8.ofNat slot) ⟨.hmac, challenge, true⟩ = some bytes)
    (h' : credential.answer openssl challenge = some bytes) :
    credential.Of chip ∨ credential.Collides openssl chip challenge bytes := by
  have hown : openssl.hmac (chip.key slot) (hmacText (UInt8.ofNat slot) chip.serial challenge) =
      some bytes := (Option.filter_eq_some_iff.mp (digestAnswer_of_chip h)).1
  have hkept : openssl.hmac credential.key.val
      (hmacText (UInt8.ofNat credential.slot) credential.serial.val challenge) = some bytes :=
    (Option.filter_eq_some_iff.mp h').1
  by_cases hsame : (chip.key slot, hmacText (UInt8.ofNat slot) chip.serial challenge) =
      (credential.key.val, hmacText (UInt8.ofNat credential.slot) credential.serial.val challenge)
  · obtain ⟨hkey, htext⟩ := Prod.mk.inj hsame
    obtain ⟨hslot, hserial⟩ := hmacText_inj (serial_length chip) credential.serial.property htext
    obtain rfl := slot_inj hslot
    exact .inl ⟨hserial, hkey⟩
  · exact .inr ⟨slot, hsame, hown, hkept⟩

/-! ## Rounds -/

/-- What holds of every round of a run, as long as the state is as it should be. -/
theorem answers_forall {answer : AuthRound → Prog σ PyResult} {I : St σ → Prop}
    {P : AuthRound → PyResult → Prop}
    (hround : ∀ round s, I s → wp (answer round) (fun result s' => P round result ∧ I s')
      (fun _ => True) s) {rounds : List AuthRound} {results : List PyResult} {s s' : St σ}
    (hs : I s) (hrun : (answers answer rounds).run s = .ok results s') :
    List.Forall₂ P rounds results := by
  induction rounds generalizing s results s' with
  | nil =>
    obtain ⟨rfl, -⟩ := EStateM.Result.ok.inj hrun
    exact .nil
  | cons round rounds ih =>
    obtain ⟨result, s₁, hfirst, hrun⟩ := (run_bind_eq_ok_iff _ _ _ _ _).mp hrun
    obtain ⟨rest, s₂, hrest, hrun⟩ := (run_bind_eq_ok_iff _ _ _ _ _).mp hrun
    obtain ⟨rfl, -⟩ := EStateM.Result.ok.inj hrun
    obtain ⟨hP, hs₁⟩ := (hround round s hs).of_run hfirst
    exact .cons hP (ih hs₁ hrest)

/-- Two parties that answer every round alike, whatever state they are in, answer a run alike. -/
theorem answers_alike {answer : AuthRound → Prog σ PyResult} {answer' : AuthRound → Prog τ PyResult}
    {I : St σ → Prop} {rounds : List AuthRound}
    (hround : ∀ round ∈ rounds, ∀ s t, I s → ∃ bytes s' t', bytes.length = 32 ∧
      (answer round).run s = .ok (.ok bytes) s' ∧ I s' ∧
      (answer' round).run t = .ok (.ok bytes) t') {s : St σ} (hs : I s) (t : St τ) :
    ∃ results s' t', (answers answer rounds).run s = .ok results s' ∧
      (answers answer' rounds).run t = .ok results t' ∧
      ∀ result ∈ results, ∃ bytes, result = .ok bytes ∧ bytes.length = 32 := by
  induction rounds generalizing s t with
  | nil => exact ⟨[], s, t, rfl, rfl, by simp⟩
  | cons round rounds ih =>
    obtain ⟨hfirst, hrest⟩ := List.forall_mem_cons.mp hround
    obtain ⟨bytes, s₁, t₁, hlen, hrun, hs₁, hrun'⟩ := hfirst s t hs
    obtain ⟨results, s', t', hruns, hruns', hgood⟩ := ih hrest hs₁ t₁
    refine ⟨.ok bytes :: results, s', t', ?_, ?_, ?_⟩
    · exact (run_bind_of_run hrun).trans (run_bind_of_run hruns)
    · exact (run_bind_of_run hrun').trans (run_bind_of_run hruns')
    · exact List.forall_mem_cons.mpr ⟨⟨bytes, rfl, hlen⟩, hgood⟩

/-- What the server ends a round with is the answer of the holder of the credential. -/
theorem wp_serverAnswer (charSigned : Bool) (dns : Resolution) (credential : Credential)
    (round : AuthRound) (t : St σ) :
    wp (serverAnswer env charSigned dns credential round)
      (fun result _ => ∀ bytes, result = .ok bytes ↔
        credential.answer env.openssl round.challenge = some bytes) (fun _ => False) t := by
  refine wp_mono (wp_emulateHmac charSigned dns (UInt8.ofNat credential.slot)
    (fun _ _ => credential.serial.property.ge) _ _ t) ?_ fun _ h => h
  rintro result t' ⟨hresult, -⟩ bytes
  rw [EmulatedResult, if_neg (not_not.mpr credential.key.property),
    carriedChallenge_eq_some round.challenge.property] at hresult
  simp only [slot_ne_error, UInt8.not_lt.mpr (slot_le credential.slot), if_false] at hresult
  rw [List.take_of_length_le credential.serial.property.le] at hresult
  split at hresult
  · rename_i answer hanswer
    have hanswer : credential.answer env.openssl round.challenge = some answer := hanswer
    rw [hresult, hanswer, Except.ok.injEq, Option.some.injEq]
  · rename_i hnone
    have hnone : credential.answer env.openssl round.challenge = none := hnone
    obtain ⟨status, -, rfl⟩ := hresult
    rw [hnone]
    simp

/-- What stands for a chip answers a round as the holder of its credential.
SOURCE: atsha204.c:66-95 -/
theorem deviceAnswer_run {credential : Credential} (hof : credential.Of chip) {layer : UseLayer}
    {round : AuthRound} (hannouncing : Announcing round.dns (chip.otpWord 2) credential.slot)
    {bytes : Block} (hanswer : credential.answer env.openssl round.challenge = some bytes)
    (charSigned : Bool) {s : St σ} (hstands : StandsFor env device chip s.bus layer) :
    ∃ s', (deviceAnswer env charSigned layer round).run s = .ok (.ok bytes) s' ∧
      StandsFor env device chip s'.bus layer := by
  obtain ⟨I, s₁, hsession, hopen, hs₁, horigin, hstands'⟩ := open_session hstands
  obtain ⟨s', hrun, hs'⟩ := answerChallenge_session hsession charSigned hs₁ horigin hannouncing
    ((digest_of_credential hof _ _).trans hanswer) round.deviceNumbers.1 round.deviceNumbers.2
  refine ⟨s', ?_, (hstands' _ s' hs').1⟩
  rw [deviceAnswer, atshaDoHmac, if_neg (not_not.mpr round.challenge.property),
    run_bind_of_run hopen]
  exact hrun

/-- What stands for a chip and the server that keeps its credential answer a run alike. -/
theorem answers_of_credential {env : Env σ} {env' : Env τ}
    {hmac : List UInt8 → List UInt8 → List.Vector UInt8 32}
    {sha256 : List UInt8 → List.Vector UInt8 32} (henv : env.openssl = totalDigests hmac sha256)
    (henv' : env'.openssl = totalDigests hmac sha256) {credential : Credential}
    (hof : credential.Of chip) {layer : UseLayer} {rounds : List AuthRound}
    (hannouncing : ∀ round ∈ rounds, Announcing round.dns (chip.otpWord 2) credential.slot)
    (charSigned charSigned' : Bool) (dns : Resolution) {s : St σ}
    (hstands : StandsFor env device chip s.bus layer) (t : St τ) :
    ∃ results s' t', (answers (deviceAnswer env charSigned layer) rounds).run s = .ok results s' ∧
      (answers (serverAnswer env' charSigned' dns credential) rounds).run t = .ok results t' ∧
      ∀ result ∈ results, ∃ bytes, result = .ok bytes ∧ bytes.length = 32 := by
  have hround : ∀ round ∈ rounds, ∀ s t, StandsFor env device chip s.bus layer →
      ∃ bytes s' t', bytes.length = 32 ∧
        (deviceAnswer env charSigned layer round).run s = .ok (.ok bytes) s' ∧
        StandsFor env device chip s'.bus layer ∧
        (serverAnswer env' charSigned' dns credential round).run t = .ok (.ok bytes) t' := by
    intro round hround s t hs
    obtain ⟨bytes, hanswer⟩ := digest_total hmac sha256 (UInt8.ofNat credential.slot)
      ⟨.hmac, round.challenge, true⟩ credential.key.val credential.serial.val
    have hdevice : credential.answer env.openssl round.challenge = some bytes := by
      rw [henv]
      exact hanswer
    have hserver : credential.answer env'.openssl round.challenge = some bytes := by
      rw [henv']
      exact hanswer
    obtain ⟨s', hrun, hs'⟩ := deviceAnswer_run hof (hannouncing round hround) hdevice charSigned hs
    obtain ⟨result, t', hrun', hiff⟩ := (wp_returns_iff _ _ _).mp
      (wp_serverAnswer charSigned' dns credential round t)
    obtain rfl := (hiff bytes).mpr hserver
    exact ⟨bytes, s', t', digest_length hanswer, hrun, hs', hrun'⟩
  exact answers_alike hround hstands t

/-- The serial number that is given out is the one of the chip.
SOURCE: atsha204.c:97-123 -/
theorem getSerial_run {layer : UseLayer} {s : St σ}
    (hstands : StandsFor env device chip s.bus layer) (number : AtshaBigInt) :
    ∃ s', (getSerial env layer number).run s = .ok (.ok chip.serial) s' ∧
      StandsFor env device chip s'.bus layer := by
  obtain ⟨I, s₁, hsession, hopen, hs₁, -, hstands'⟩ := open_session hstands
  obtain ⟨r, s', hserial, hholds, hs'⟩ := hsession.requests .serialNumber rfl hs₁ number
  have hbytes : copyOut r.data.val r.bytes = some chip.serial :=
    copyOut_of_holds hholds ((serial_length chip).le.trans (by decide))
  refine ⟨s', ?_, (hstands' _ s' hs').1⟩
  rw [getSerial, run_bind_of_run hopen]
  refine (run_bind_of_run hserial).trans ?_
  dsimp only
  rw [if_neg (by simp), run_bind_of_run (run_access_some hbytes s')]
  rfl

/-- Over a link that can be relied on, or with a copy of the chip in a file, a device gives out the
serial number in its credential, and then answers every round as the server that keeps the
credential does, however many there are; all the answers are digests.
SOURCE: atsha204.c:30-123, api.c:143-156, api.c:485-559, dnsmagic.c:114-137, emulation.c:52-157 -/
theorem device_authenticated (env : Env σ) (env' : Env τ)
    (hmac : List UInt8 → List UInt8 → List.Vector UInt8 32)
    (sha256 : List UInt8 → List.Vector UInt8 32) (charSigned charSigned' : Bool)
    (device : σ → Device) (chip : Chip) (credential : Credential) (layer : UseLayer)
    (dns : Resolution) (number : AtshaBigInt) (rounds : List AuthRound) (s : St σ) (t : St τ)
    (henv : env.openssl = totalDigests hmac sha256)
    (henv' : env'.openssl = totalDigests hmac sha256)
    (hstands : StandsFor env device chip s.bus layer) (hof : credential.Of chip)
    (hannouncing : ∀ round ∈ rounds, Announcing round.dns (chip.otpWord 2) credential.slot) :
    ∃ s₁ s' t' results,
      (getSerial env layer number).run s = .ok (.ok credential.serial.val) s₁ ∧
      (answers (deviceAnswer env charSigned layer) rounds).run s₁ = .ok results s' ∧
      (answers (serverAnswer env' charSigned' dns credential) rounds).run t = .ok results t' ∧
      ∀ result ∈ results, ∃ bytes, result = .ok bytes ∧ bytes.length = 32 := by
  obtain ⟨s₁, hserial, hstands₁⟩ := getSerial_run hstands number
  obtain ⟨results, s', t', hruns, hruns', hgood⟩ := answers_of_credential henv henv' hof hannouncing
    charSigned charSigned' dns hstands₁ t
  rw [hof.serial] at hserial
  exact ⟨s₁, s', t', results, hserial, hruns, hruns', hgood⟩

/-- The credential of a locked chip, with its third slot. -/
def lockedCredential : Credential :=
  ⟨slotOf 3, ⟨lockedChip.serial, serial_length _⟩, ⟨lockedChip.key (slotOf 3), key_length _ _⟩⟩

/-- It is one of that chip. -/
theorem lockedCredential_of : lockedCredential.Of lockedChip := by
  constructor <;> simp only [lockedCredential]

/-- A record that announces the slot behind the origin of its key set. -/
def lockedRecord : TxtRdata :=
  ⟨9, [0x34, 0x38, 0x38, 0x36, 0x34, 0x35, 0x34, 0x31, 0x37], le_rfl⟩

/-- Found by the resolver, the record announces the slot of the credential. -/
theorem lockedRecord_announcing :
    Announcing (.record lockedRecord) (lockedChip.otpWord 2) lockedCredential.slot :=
  ⟨lockedRecord, rfl, by decide, ⟨by decide, by decide +kernel⟩, by decide +kernel⟩

/-- A round with this record; no byte of the challenge is there twice. -/
def lockedRound (first : ℕ) : AuthRound where
  challenge := List.Vector.ofFn fun i => UInt8.ofNat (first + i)
  dns := .record lockedRecord
  deviceNumbers := (zeroNumber, zeroNumber)
  serverNumbers := (zeroNumber, zeroNumber)

/-- What stands for the locked chip over a link without faults. -/
theorem attached_locked :
    Attached goodEnv DeviceLink.device lockedChip (deviceState lockedChip).bus :=
  ⟨goodEnv_reliable, lockedChip_provisioned, rfl, rfl⟩

/-- A locked chip answers two rounds over a link without faults. -/
theorem device_authenticated_locked : ∃ s₁ s' t' results,
    (getSerial goodEnv (.ni2c true) zeroNumber).run (deviceState lockedChip) =
      .ok (.ok lockedCredential.serial.val) s₁ ∧
    (answers (deviceAnswer goodEnv true (.ni2c true)) [lockedRound 1, lockedRound 7]).run s₁ =
      .ok results s' ∧
    (answers (serverAnswer goodEnv true .noContext lockedCredential)
      [lockedRound 1, lockedRound 7]).run (deviceState lockedChip) = .ok results t' ∧
    ∀ result ∈ results, ∃ bytes, result = .ok bytes ∧ bytes.length = 32 :=
  device_authenticated goodEnv goodEnv _ _ true true DeviceLink.device lockedChip lockedCredential
    (.ni2c true) .noContext zeroNumber [lockedRound 1, lockedRound 7] (deviceState lockedChip)
    (deviceState lockedChip) rfl rfl ⟨rfl, attached_locked⟩ lockedCredential_of
    (by simp [lockedRound, lockedRecord_announcing])

/-! ## Devices that can be trusted -/

section Honest

variable {hmac : List UInt8 → List UInt8 → List.Vector UInt8 32}
  {sha256 : List UInt8 → List.Vector UInt8 32}
  (hhonest : Honest (totalDigests hmac sha256) env.bus device) (hchip : chip.Provisioned)
  {s : St σ} (hs : Resting device chip s)
include hhonest hchip hs

/-- Whatever becomes of the question for the slot, where it is answered the caller may go on.
SOURCE: dnsmagic.c:114-137 -/
theorem wp_findSlotNumber_honest (charSigned : Bool) (dns : Resolution) :
    wp (atshaFindSlotNumber env charSigned dns)
      (fun slot s' => slot = dnsErrConst ∨ Resting device chip s') (fun _ => True) s := by
  have hlog : ∀ text, Keeps (Resting device chip) (logMessage text) :=
    fun text s hs => ⟨hs.layer, hs.asleep, hs.chip_eq⟩
  unfold atshaFindSlotNumber
  rw [wp_bind, wp_getHandle]
  split
  · exact .inr hs
  rw [wp_bind]
  refine wp_mono (resolveKey_keeps charSigned dns hlog s hs) ?_ fun _ _ => trivial
  rintro (_ | offset) s₁ hs₁
  · exact .inl rfl
  dsimp only
  split
  · exact .inr hs₁
  rw [wp_bind]
  refine wp_of_runs ?_
  rintro ⟨status, number⟩ s₂ hread
  by_cases hstatus : status = .ok
  · subst hstatus
    have hs₂ := (otpRead_honest hhonest hs₁ hchip.otpMode (by decide) hread).2
    simp only [ne_eq, not_true_eq_false, if_false, wp_bind, wp_access]
    cases uint32From4Bytes number.data.val with
    | none => trivial
    | some keyOrigin => exact .inr ⟨hs₂.layer, hs₂.asleep, hs₂.chip_eq⟩
  · simp only [ne_eq, hstatus, not_false_eq_true, if_true, wp_bind, wp_logMessage, wp_pure, true_or]

/-- A response that is given is a digest of the chip.
SOURCE: api.c:485-559 -/
theorem wp_challengeResponse_honest (charSigned : Bool) (dns : Resolution)
    (challenge : List.Vector UInt8 32) (response : AtshaBigInt) :
    wp (atshaChallengeResponse env charSigned dns ⟨32, challenge⟩ response)
      (fun r _ => r.1 = .ok → ∃ (slot : Fin 16) (bytes : Block), Holds r.2 bytes ∧
        chip.digest (totalDigests hmac sha256) (UInt8.ofNat slot) ⟨.hmac, challenge, true⟩ =
          some bytes)
      (fun _ => True) s := by
  rw [atshaChallengeResponse, withSlotNumber, wp_bind]
  refine wp_mono (wp_findSlotNumber_honest hhonest hchip hs charSigned dns) ?_ fun _ _ => trivial
  rintro slotNumber s₁ hfound
  split
  · exact fun hok => AtshaErr.noConfusion hok
  have hs₁ := hfound.resolve_left ‹_›
  by_cases hbig : slotNumber > atsha204MaxSlotNumber
  · rw [atshaLowChallengeResponse, if_pos hbig]
    exact fun hok => AtshaErr.noConfusion hok
  · obtain ⟨slot, rfl⟩ := exists_slot hbig
    refine wp_of_runs ?_
    rintro ⟨status, r⟩ s₂ hrun rfl
    have hrun : ((⟨.hmac, challenge, true⟩ : ChallengeRequest).run env (UInt8.ofNat slot)
      response).run s₁ = .ok (.ok, r) s₂ := hrun
    obtain ⟨bytes, hdigest⟩ := answer_total hmac sha256 chip
      (.respond slot ⟨.hmac, challenge, true⟩)
    exact ⟨slot, bytes, (respond_honest hhonest hs₁ (Provisioned.computes hchip slot) hdigest
      hrun).1, hdigest⟩

/-- What is given out for a challenge is a digest of the chip.
SOURCE: atsha204.c:84-94 -/
theorem wp_answerChallenge_honest (charSigned : Bool) (dns : Resolution)
    (challenge : List.Vector UInt8 32) (challengeS responseS : AtshaBigInt) :
    wp (answerChallenge env charSigned dns challenge.val challengeS responseS)
      (fun result _ => ∀ bytes, result = .ok bytes → ∃ slot : Fin 16,
        chip.digest (totalDigests hmac sha256) (UInt8.ofNat slot) ⟨.hmac, challenge, true⟩ =
          some bytes)
      (fun _ => True) s := by
  have hcopy : copyOut challenge.val 32 = some challenge.val := copyOut_all challenge.property
  have hfull : overwrite challengeS.data challenge.val = some challenge :=
    overwrite_full _ _ challenge.property
  simp only [answerChallenge, wp_bind, wp_access, hcopy, hfull]
  refine wp_mono (wp_challengeResponse_honest hhonest hchip hs charSigned dns challenge responseS)
    ?_ fun _ _ => trivial
  rintro ⟨status, r⟩ s' hdigest
  apply wp_answerEnd
  · rintro - bytes hbytes
    cases hbytes
  · intro hok
    obtain ⟨slot, bytes, hholds, hdigest⟩ := hdigest hok
    refine ⟨bytes, copyOut_of_holds hholds (chip_digest_length hdigest).le, ?_⟩
    intro bytes' hbytes
    obtain rfl := Except.ok.inj hbytes
    exact ⟨slot, hdigest⟩

end Honest

/-- Over a link that can be trusted and to a device that inquiries leave as it is, what a round is
answered with is a digest of the chip, and the chip stays as it is.
SOURCE: atsha204.c:66-95 -/
theorem wp_deviceAnswer_honest {hmac : List UInt8 → List UInt8 → List.Vector UInt8 32}
    {sha256 : List UInt8 → List.Vector UInt8 32}
    (hhonest : Honest (totalDigests hmac sha256) env.bus device) (hsteady : Steady env.bus device)
    (hchip : chip.Provisioned) (charSigned opened : Bool) (round : AuthRound) {s : St σ}
    (hs : (device s.bus).chip = chip) :
    wp (deviceAnswer env charSigned (.ni2c opened) round) (fun result s' =>
        (∀ bytes, result = .ok bytes → ∃ slot : Fin 16, chip.digest (totalDigests hmac sha256)
          (UInt8.ofNat slot) ⟨.hmac, round.challenge, true⟩ = some bytes) ∧
        (device s'.bus).chip = chip) (fun _ => True) s := by
  rw [deviceAnswer, atshaDoHmac, if_neg (not_not.mpr round.challenge.property), atshaOpen]
  cases opened with
  | false =>
    refine ⟨?_, hs⟩
    rintro bytes hok
    cases hok
  | true =>
    simp only [wp_bind, if_true, wp_modifyHandle, wp_pure, Bool.not_true, Bool.false_eq_true,
      if_false]
    have hresting : Resting device chip { s with handle := openNi2cDev } := ⟨rfl, rfl, hs⟩
    have hkeeps : Keeps (Native fun s => (device s.bus).chip = chip) (answerChallenge env charSigned
        round.dns round.challenge.val round.deviceNumbers.1 round.deviceNumbers.2) := by
      apply (access_native _).bind
      intro bytes
      apply (access_native _).bind
      intro data
      apply (challengeResponse_native (undisturbed_of_steady hsteady chip) _ _ _ _).bind
      rintro ⟨status, r⟩
      dsimp only
      split
      · exact .pure _
      · exact (access_native _).bind fun _ => .pure _
    refine wp_mono (wp_and (wp_answerChallenge_honest hhonest hchip hresting charSigned round.dns
      round.challenge _ _) (hkeeps _ ⟨rfl, hs⟩)) ?_ fun _ _ => trivial
    exact fun result s' h => ⟨h.1, h.2.kept⟩

/-! ## Who is accepted -/

/-- What an entry of one list has to do with the entry of the other. -/
theorem forall₂_getElem? {α β : Type} {P : α → β → Prop} {as : List α} {bs : List β}
    (h : List.Forall₂ P as bs) {k : ℕ} {b : β} (hb : bs[k]? = some b) :
    ∃ a, as[k]? = some a ∧ P a b := by
  induction h generalizing k with
  | nil => simp at hb
  | cons hP _ ih =>
    cases k with
    | zero => exact ⟨_, rfl, Option.some.inj hb ▸ hP⟩
    | succ k => exact ih hb

/-- In a run over a link that can be trusted, however much of it is lost, a round whose answer is the
one that the server expects shows that the credential is the one of the chip, or else that in this
round the chip and the server have taken the same HMAC of different messages or keys.
SOURCE: atsha204.c:30-95, api.c:485-559, dnsmagic.c:114-137, emulation.c:52-157 -/
theorem accepted_with_own_credential (env : Env σ) (env' : Env τ)
    (hmac : List UInt8 → List UInt8 → List.Vector UInt8 32)
    (sha256 : List UInt8 → List.Vector UInt8 32) (charSigned charSigned' opened : Bool)
    (device : σ → Device) (chip : Chip) (credential : Credential) (dns : Resolution)
    (rounds : List AuthRound) (s s' : St σ) (t t' : St τ) (results expected : List PyResult)
    (k : ℕ) (bytes : Block) (henv' : env'.openssl = totalDigests hmac sha256)
    (hhonest : Honest (totalDigests hmac sha256) env.bus device) (hsteady : Steady env.bus device)
    (hprovisioned : chip.Provisioned) (hchip : (device s.bus).chip = chip)
    (hdevice : (answers (deviceAnswer env charSigned (.ni2c opened)) rounds).run s =
      .ok results s')
    (hserver : (answers (serverAnswer env' charSigned' dns credential) rounds).run t =
      .ok expected t')
    (haccepted : results[k]? = some (.ok bytes) ∧ expected[k]? = some (.ok bytes)) :
    ∃ round, rounds[k]? = some round ∧ (credential.Of chip ∨
      credential.Collides (totalDigests hmac sha256) chip round.challenge bytes) := by
  have hof := answers_forall (fun round s hs => wp_deviceAnswer_honest hhonest hsteady hprovisioned
    charSigned opened round hs) hchip hdevice
  have hexpected := answers_forall (fun round (t : St τ) _ => wp_mono
    (@wp_serverAnswer τ env' charSigned' dns credential round t)
    (fun _ _ h => ⟨h, trivial⟩) fun _ _ => trivial) trivial hserver
  obtain ⟨round, hround, hdigests⟩ := forall₂_getElem? hof haccepted.1
  obtain ⟨round', hround', hanswer⟩ := forall₂_getElem? hexpected haccepted.2
  obtain rfl := Option.some.inj (hround.symm.trans hround')
  obtain ⟨slot, hdigest⟩ := hdigests bytes rfl
  have hanswer := (hanswer bytes).mp rfl
  rw [henv'] at hanswer
  exact ⟨round, hround, of_or_collides hdigest hanswer⟩

/-- The second of two answers of a locked chip is accepted. -/
theorem accepted_with_own_credential_locked : ∃ (results expected : List PyResult) (bytes : Block),
    results[1]? = some (.ok bytes) ∧ expected[1]? = some (.ok bytes) ∧
      ∃ round, [lockedRound 1, lockedRound 7][1]? = some round ∧
        (lockedCredential.Of lockedChip ∨
          lockedCredential.Collides mixedDigests lockedChip round.challenge bytes) := by
  have henv : goodEnv.openssl = totalDigests (fun key message => mixed (key ++ message)) mixed := rfl
  have hstands : StandsFor goodEnv DeviceLink.device lockedChip (deviceState lockedChip).bus
      (.ni2c true) := ⟨rfl, attached_locked⟩
  have hannouncing : ∀ round ∈ [lockedRound 1, lockedRound 7],
      Announcing round.dns (lockedChip.otpWord 2) lockedCredential.slot := by
    simp [lockedRound, lockedRecord_announcing]
  obtain ⟨results, s', t', hruns, hruns', hgood⟩ := answers_of_credential henv henv
    lockedCredential_of hannouncing true true .noContext hstands (deviceState lockedChip)
  have hlen := (answers_forall (P := fun _ _ => True) (I := fun _ => True)
    (fun _ _ _ => wp_of_runs fun _ _ _ => ⟨trivial, trivial⟩) trivial hruns).length_eq
  obtain ⟨first, second, rfl⟩ := List.length_eq_two.mp hlen.symm
  obtain ⟨bytes, rfl, -⟩ := hgood second (by simp)
  have haccepted : [first, .ok bytes][1]? = some (.ok bytes : PyResult) := rfl
  exact ⟨_, _, bytes, haccepted, haccepted, accepted_with_own_credential goodEnv goodEnv _ _ true
    true true DeviceLink.device lockedChip lockedCredential .noContext _ (deviceState lockedChip) s'
    (deviceState lockedChip) t' _ _ 1 bytes henv
    (deviceBus_honest mixedDigests (fun _ => goodStep) fun _ => [])
    (deviceBus_steady mixedDigests (fun _ => goodStep) fun _ => []) lockedChip_provisioned rfl
    hruns hruns' ⟨haccepted, haccepted⟩⟩

end Atsha204.Analysis
