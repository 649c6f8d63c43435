import Atsha204.Analysis.ReadingCalls
import Atsha204.Interface.Authentication

/-!
# What programs over the library get

A program opens a device for each thing that it does. Behind the opening it can ask for all that the
chip has an answer to, be it a chip or its copy in a file (`open_session`). A key server opens no
device: what it ends with is a matter of its arguments (`emulate_hmac_ends`).
-/

set_option autoImplicit false

namespace Atsha204.Analysis

open Atsha204.Library
open Atsha204.Model
open Atsha204.Interface

variable {σ : Type} {env : Env σ} {device : σ → Device} {chip : Chip}

/-! ## Opened devices -/

/-- From such a state, with so many waits for the device behind it at the most, every request that
the chip has an answer to is answered, and leads to such a state again; so does a question for the
slot. -/
structure Session (env : Env σ) (chip : Chip) (I : ℕ → St σ → Prop) : Prop where
  requests : ∀ (request : Request) {bytes : Block} {waited : ℕ} {s : St σ},
    request.answer env.openssl chip = some bytes → I waited s → ∀ number, ∃ r s',
      (request.run env number).run s = .ok (.ok, r) s' ∧ Holds r bytes ∧
      I (waited + request.waits) s'
  slots : ∀ (charSigned : Bool) (dns : Resolution) {waited : ℕ} {s : St σ}, I waited s →
    wp (atshaFindSlotNumber env charSigned dns) (fun _ s' => I (waited + 2) s') (I (waited + 2)) s
  relaxes : ∀ {waited waited' : ℕ} {s : St σ}, I waited s → waited ≤ waited' → I waited' s

/-- A caller relies on the device, and has waited for it so often at the most. -/
def ReliesOn (device : σ → Device) (chip : Chip) (waited : ℕ) (s : St σ) : Prop :=
  ∃ n ≤ waited, Relying device chip n s

/-- More time may be taken up. -/
theorem ReliesOn.mono {waited waited' : ℕ} {s : St σ} (h : ReliesOn device chip waited s)
    (hle : waited ≤ waited') : ReliesOn device chip waited' s := by
  obtain ⟨n, hn, hs⟩ := h
  exact ⟨n, hn.trans hle, hs⟩

/-- A device that is attached. -/
theorem session_attached (hreliable : Reliable env.openssl env.bus device)
    (hchip : chip.Provisioned) : Session env chip (ReliesOn device chip) where
  requests := by
    rintro request bytes waited s hanswer ⟨n, hn, hs⟩ number
    obtain ⟨r, s', hrun, hholds, hs'⟩ := request_reliable hreliable hs hchip hanswer number
    exact ⟨r, s', hrun, hholds, _, Nat.add_le_add_right hn _, hs'⟩
  slots := by
    intro charSigned dns waited s hs
    have hlog : ∀ text n, Keeps (ReliesOn device chip n) (logMessage text) := by
      rintro text n s ⟨m, hm, hs⟩
      exact ⟨m, hm, relying_message hs text⟩
    refine wp_findSlotNumber charSigned dns (fun _ hs => hs.mono (Nat.le_add_right _ _))
      (fun text => ⟨hlog text _, hlog text _⟩) ?_ ?_ hs
    · rintro number s ⟨n, hn, hs⟩
      obtain ⟨r, s', hrun, -, hs'⟩ := otpRead_reliable hreliable hs hchip.locked hchip.otpMode
        atsha204OtpMemoryMapOriginKeySet (by decide) number
      exact (wp_of_run hrun _ _).mpr ⟨_, Nat.add_le_add_right hn _, hs'⟩
    · rintro keyOrigin s ⟨n, hn, hs⟩
      exact ⟨n, hn, ⟨hs.layer, hs.asleep, hs.chip_eq⟩, hs.sleeps, hs.waits⟩
  relaxes := ReliesOn.mono

/-- A copy of the chip in a file. -/
theorem session_copy {content : List UInt8} (hcopied : CopiedIn content chip) :
    Session env chip (fun _ s => OfFile content s.handle) where
  requests := by
    intro request bytes waited s hanswer hs number
    have hfile := (fileAnswer_copied hcopied request).trans hanswer
    have hrun := wp_request_file env hs request number
    rw [hfile] at hrun
    obtain ⟨⟨_, r⟩, s', hr, hofFile, -, rfl, hholds⟩ := (wp_returns_iff _ _ _).mp
      (wp_mono hrun (fun _ _ h => h) fun _ hnone => by cases hnone)
    exact ⟨r, s', hr, hholds, hofFile⟩
  slots := by
    intro charSigned dns waited s hs
    refine findSlotNumber_keeps_of (I := fun s => OfFile content s.handle) charSigned dns
      (fun text s hs => hs) ?_ ?_ s hs
    · intro number s hs
      have hword : (StorageRead.otp 2).stored s.handle = some (chip.otpWord 2) :=
        (stored_otp hs.toOverFile 2).trans (hcopied.words 2)
      refine wp_mono (wp_read_file env hs (.otp 2) number) (fun _ _ h => h.ofFile) ?_
      intro _ hnone
      rw [hword] at hnone
      cases hnone
    · exact fun keyOrigin s hs => ⟨⟨hs.layer, hs.device, hs.file⟩, hs.cached⟩
  relaxes := fun hs _ => hs

/-- What stands for a chip can be opened. Then the origin of its key set is known, and it stands for
the chip as long as it is used; of a device it is known how often it was waited for. -/
theorem open_session {layer : UseLayer} {s : St σ} (h : StandsFor env device chip s.bus layer) :
    ∃ (I : ℕ → St σ → Prop) (s₁ : St σ), Session env chip I ∧
      (atshaOpen env layer).run s = .ok true s₁ ∧ I s.ni2cWaits s₁ ∧
      HasOrigin env s₁ (chip.otpWord 2) ∧
      ∀ waited s', I waited s' → StandsFor env device chip s'.bus layer ∧
        ∀ opened, layer = .ni2c opened → s'.ni2cWaits ≤ waited := by
  have hfour : (chip.otpWord 2).length = 4 := otpWord_length chip 2 (by decide)
  cases layer with
  | ni2c opened =>
    obtain ⟨rfl, hreliable, hprovisioned, hchip, hsleeps⟩ := h
    have hs₁ : Relying device chip s.ni2cWaits { s with handle := openNi2cDev } :=
      ⟨⟨rfl, rfl, hchip⟩, hsleeps, rfl⟩
    refine ⟨ReliesOn device chip, _, session_attached hreliable hprovisioned, rfl,
      ⟨_, le_rfl, hs₁⟩, ?_, ?_⟩
    · refine ⟨rfl, hfour, fun hcached => Bool.noConfusion hcached, fun _ => ?_⟩
      obtain ⟨r, s', hrun, hholds, -⟩ := otpRead_reliable hreliable hs₁ hprovisioned.locked
        hprovisioned.otpMode atsha204OtpMemoryMapOriginKeySet (by decide)
        (env.uninitBigInt .findSlotNumber)
      exact ⟨r, s', hrun, hholds⟩
    · rintro waited s' ⟨n, hn, hs'⟩
      exact ⟨⟨rfl, hreliable, hprovisioned, hs'.chip_eq, hs'.sleeps⟩,
        fun _ _ => hs'.waits.le.trans hn⟩
  | emulation file =>
    obtain ⟨content, rfl, hcopied⟩ := h
    obtain ⟨s₁, hrun, hofFile, horigin, -⟩ := openEmulation_ofFile env (opens_copied hcopied) s
    refine ⟨fun _ s => OfFile content s.handle, s₁, session_copy hcopied, hrun, hofFile, ?_,
      fun _ _ _ => ⟨⟨content, rfl, hcopied⟩, fun _ hni2c => by cases hni2c⟩⟩
    have hword : lineBytes content 18 4 = some (chip.otpWord 2) := hcopied.words 2
    refine ⟨hofFile.device, hfour, fun _ => ?_, fun hnot => ?_⟩
    · have horigin := horigin.origin
      rwa [hword] at horigin
    · rw [horigin.cached] at hnot
      cases hnot

/-- No slot is the one that stands for an error. -/
theorem slot_ne_error (slot : Fin 16) : UInt8.ofNat slot ≠ dnsErrConst := by
  intro heq
  have hle := slot_le slot
  rw [heq] at hle
  exact absurd hle (by decide)

/-- A slot that is announced is found. -/
theorem findSlotNumber_announced (charSigned : Bool) {dns : Resolution} {origin : Block}
    {slot : Fin 16} {s : St σ} (horigin : HasOrigin env s origin)
    (hannouncing : Announcing dns origin slot) :
    ∃ s₁, (atshaFindSlotNumber env charSigned dns).run s = .ok (UInt8.ofNat slot) s₁ := by
  obtain ⟨rdata, rfl, hlen, hannounces⟩ := hannouncing
  obtain ⟨slot', s₁, hfound, hvalue, -⟩ :=
    findSlotNumber_run horigin (.inr (Nat.lt_succ_of_le hlen) : LengthRead charSigned rdata)
  obtain rfl : slot' = UInt8.ofNat slot := by
    apply UInt8.toNat_inj.mp
    have hdiff := hannounces.2
    have hlt := (UInt8.ofNat slot).toNat_lt
    omega
  exact ⟨s₁, hfound⟩

section Session

variable {I : ℕ → St σ → Prop} (hsession : Session env chip I) (charSigned : Bool)
  {dns : Resolution} {slot : Fin 16} {waited : ℕ} {s : St σ} (hs : I waited s)
  (horigin : HasOrigin env s (chip.otpWord 2)) (hannouncing : Announcing dns (chip.otpWord 2) slot)
  {challenge : List.Vector UInt8 32} {bytes : Block}
  (hdigest : chip.digest env.openssl (UInt8.ofNat slot) ⟨.hmac, challenge, true⟩ = some bytes)
include hsession hs horigin hannouncing hdigest

/-- A challenge is answered under the key of the slot that the record announces.
SOURCE: api.c:485-559 -/
theorem challengeResponse_session (response : AtshaBigInt) :
    ∃ r s', (atshaChallengeResponse env charSigned dns ⟨32, challenge⟩ response).run s =
      .ok (.ok, r) s' ∧ Holds r bytes ∧ I (waited + 5) s' := by
  obtain ⟨s₁, hfound⟩ := findSlotNumber_announced charSigned horigin hannouncing
  have hs₁ : I (waited + 2) s₁ := (hsession.slots charSigned dns hs).of_run hfound
  obtain ⟨r, s', hrun, hholds, hs'⟩ := hsession.requests
    (.respond slot ⟨.hmac, challenge, true⟩) hdigest hs₁ response
  refine ⟨r, s', ?_, hholds, hs'⟩
  rw [atshaChallengeResponse, withSlotNumber, run_bind_of_run hfound, if_neg (slot_ne_error slot)]
  exact hrun

/-- The bytes of the answer are given out.
SOURCE: atsha204.c:84-94 -/
theorem answerChallenge_session (challengeS responseS : AtshaBigInt) :
    ∃ s', (answerChallenge env charSigned dns challenge.val challengeS responseS).run
      s = .ok (.ok bytes) s' ∧ I (waited + 5) s' := by
  obtain ⟨r, s', hrun, hholds, hs'⟩ := challengeResponse_session hsession charSigned hs horigin
    hannouncing hdigest responseS
  have hbytes : copyOut r.data.val r.bytes = some bytes :=
    copyOut_of_holds hholds (chip_digest_length hdigest).le
  have hchallenge : overwrite challengeS.data challenge.val = some challenge :=
    overwrite_full challengeS.data challenge.val challenge.property
  refine ⟨s', ?_, hs'⟩
  rw [answerChallenge, run_bind_of_run (run_access_some (copyOut_all challenge.property) s)]
  refine (run_bind_of_run (run_access_some hchallenge s)).trans ((run_bind_of_run hrun).trans ?_)
  dsimp only
  rw [if_neg (by simp), run_bind_of_run (run_access_some hbytes s')]
  rfl

end Session

/-! ## The server -/

/-- A challenge of 32 bytes is carried whole. -/
theorem carriedChallenge_eq_some {challenge : Block} (h : challenge.length = 32) :
    carriedChallenge challenge = some ⟨challenge, h⟩ := dif_pos h

section Server

variable {slotId : UInt8} {key sn : Block} {t : St σ}
  (hserver : t.handle.isSrvEmulation = true ∧ t.handle.slotId = slotId)
  (hparty : ∀ slotNumber, Party slotNumber key sn t.handle) (hsn : sn.length = 8)
include hserver hparty hsn

/-- A server answers a challenge with the digest under its key, unless its slot is none.
SOURCE: api.c:485-559, emulation.c:52-157 -/
theorem wp_challengeResponse_server (charSigned : Bool) (dns : Resolution)
    (challenge : List.Vector UInt8 32) (response : AtshaBigInt) :
    wp (atshaChallengeResponse env charSigned dns ⟨32, challenge⟩ response)
      (fun r t' => t'.bus = t.bus ∧
        if slotId = dnsErrConst then r.1 = .dnsGetKey
        else if slotId > atsha204MaxSlotNumber then r.1 = .invalidInput
        else match digestAnswer env.openssl slotId key sn challenge with
          | some bytes => r.1 = .ok ∧ Holds r.2 bytes
          | none => r.1 ≠ .ok)
      (fun _ => False) t := by
  simp only [atshaChallengeResponse, withSlotNumber, atshaFindSlotNumber, wp_bind, wp_getHandle,
    hserver, if_true, wp_pure]
  by_cases hnoSlot : slotId = dnsErrConst
  · simp only [hnoSlot, if_true, wp_pure, and_self]
  by_cases hbig : slotId > atsha204MaxSlotNumber
  · simp only [hnoSlot, hbig, if_false, if_true, atshaLowChallengeResponse, wp_bind, wp_logMessage,
      wp_pure]
    exact ⟨rfl, trivial⟩
  · have hrun := @wp_challenge_emulation σ env t (hparty slotId).layer slotId (UInt8.not_lt.mp hbig)
      ⟨.hmac, challenge, true⟩ response
    have hserial : serialPart true (some sn) = some sn := copyOut_all hsn
    rw [(hparty slotId).key_eq, (hparty slotId).sn_eq, hserial] at hrun
    simp only [hnoSlot, hbig, if_false]
    refine wp_mono hrun ?_ (by simp)
    rintro r t' ⟨nonce, hkept, hresponse⟩
    exact ⟨hkept.bus, hresponse⟩

end Server

/-- A server is opened with the first bytes of the serial number.
SOURCE: api.c:259-291 -/
theorem wp_openServer (slotId : UInt8) {serial key : Block} (hserial : 8 ≤ serial.length)
    (hkey : key.length = 32) (t : St σ) :
    wp (atshaOpenServerEmulation slotId (some serial) (some key)) (fun opened t₁ => opened = true ∧
        t₁.bus = t.bus ∧ (t₁.handle.isSrvEmulation = true ∧ t₁.handle.slotId = slotId) ∧
        ∀ slotNumber, Party slotNumber key (serial.take 8) t₁.handle) (fun _ => False) t := by
  have hsnCopy : copyOut serial (if useOurSn then 2 * atsha204OtpByteLen else atsha204SnByteLen) =
      some (serial.take 8) := copyOut_of_le hserial
  have hkeyCopy : copyOut key atsha204SlotByteLen = some key := copyOut_all hkey
  simp only [atshaOpenServerEmulation, wp_bind, wp_access, hsnCopy, hkeyCopy, wp_modifyHandle,
    wp_pure, true_and]
  exact fun slotNumber => ⟨rfl, hkeyCopy, rfl⟩

/-- The end of an answer, with the status and the response of the operation.
SOURCE: atsha204.c:57-63, atsha204.c:88-94 -/
theorem wp_answerEnd {status : AtshaErr} {response : AtshaBigInt} {Q : PyResult → St σ → Prop}
    {E : St σ → Prop} {s : St σ}
    (hbad : status ≠ .ok → Q (.error (.valueError (atshaErrorName status))) s)
    (hgood : status = .ok → ∃ bytes, copyOut response.data.val response.bytes = some bytes ∧
      Q (.ok bytes) s) :
    wp (if status ≠ .ok then return .error (.valueError (atshaErrorName status))
      else do return .ok (← access (copyOut response.data.val response.bytes))) Q E s := by
  split
  · exact hbad ‹_›
  · obtain ⟨bytes, hbytes, hQ⟩ := hgood (not_not.mp ‹_›)
    rw [wp_bind, wp_access, hbytes]
    exact hQ

/-- A server ends with what its arguments call for, and sends nothing.
SOURCE: atsha204.c:30-64 -/
theorem wp_emulateHmac (charSigned : Bool) (dns : Resolution) (slotId : UInt8)
    {serial key challenge : Block}
    (h : key.length = 32 → challenge.length = 32 → 8 ≤ serial.length)
    (challengeS responseS : AtshaBigInt) (t : St σ) :
    wp (atshaEmulateHmac env charSigned dns slotId serial key challenge challengeS responseS)
      (fun result t' => EmulatedResult env.openssl slotId serial key challenge result ∧
        t'.bus = t.bus) (fun _ => False) t := by
  unfold atshaEmulateHmac EmulatedResult
  by_cases hkey : key.length = 32
  · by_cases hchallenge : challenge.length = 32
    · have hserial := h hkey hchallenge
      have hcopy : copyOut challenge 32 = some challenge := copyOut_all hchallenge
      have hfull : overwrite challengeS.data challenge = some ⟨challenge, hchallenge⟩ :=
        overwrite_full _ _ hchallenge
      simp only [hkey, hchallenge, carriedChallenge_eq_some hchallenge, ne_eq, not_true_eq_false,
        if_false, wp_bind]
      refine wp_mono (wp_openServer slotId hserial hkey t) ?_ fun _ h => h
      rintro opened t₁ ⟨rfl, hbus, hserver, hparty⟩
      simp only [Bool.not_true, Bool.false_eq_true, if_false, answerChallenge, wp_bind, wp_access,
        hcopy, hfull]
      refine wp_mono (wp_challengeResponse_server hserver hparty (List.length_take_of_le hserial)
        charSigned dns ⟨challenge, hchallenge⟩ responseS) ?_ fun _ h => h
      rintro ⟨status, r⟩ t' ⟨hbus', hresponse⟩
      have hsame : t'.bus = t.bus := hbus'.trans hbus
      apply wp_answerEnd
      · intro hbad
        refine ⟨?_, hsame⟩
        split_ifs at hresponse ⊢
        · rw [show status = .dnsGetKey from hresponse]
        · rw [show status = .invalidInput from hresponse]
        · cases hdigest : digestAnswer env.openssl slotId key (serial.take 8)
              ⟨challenge, hchallenge⟩ with
          | none => exact ⟨status, hbad, rfl⟩
          | some bytes =>
            rw [hdigest] at hresponse
            exact absurd hresponse.1 hbad
      · rintro rfl
        split_ifs at hresponse ⊢
        cases hdigest : digestAnswer env.openssl slotId key (serial.take 8)
            ⟨challenge, hchallenge⟩ with
        | none =>
          rw [hdigest] at hresponse
          exact absurd rfl hresponse
        | some bytes =>
          rw [hdigest] at hresponse
          exact ⟨bytes, copyOut_of_holds hresponse.2 (digest_length hdigest).le, rfl, hsame⟩
    · have hnone : carriedChallenge challenge = none := dif_neg hchallenge
      simp only [hkey, hchallenge, hnone, ne_eq, not_true_eq_false, not_false_eq_true, if_true,
        if_false, wp_pure, and_self]
  · simp only [hkey, ne_eq, not_false_eq_true, if_true, wp_pure, and_self]

/-- Whatever the arguments are, `emulate_hmac` ends with the bytes or with the exception that they
call for, and sends nothing; only a serial number of less than eight bytes is read beyond its end,
once the other two lengths are right.
SOURCE: atsha204.c:30-64 -/
theorem emulate_hmac_ends (env : Env σ) (charSigned : Bool) (dns : Resolution) (slotId : UInt8)
    (serial key challenge : Block) (challengeS responseS : AtshaBigInt) (t : St σ) :
    let call := atshaEmulateHmac env charSigned dns slotId serial key challenge challengeS responseS
    if key.length = 32 ∧ challenge.length = 32 ∧ serial.length < 8 then
      ∃ t', call.run t = .error .outOfBounds t'
    else ∃ result t', call.run t = .ok result t' ∧
      EmulatedResult env.openssl slotId serial key challenge result ∧ t'.bus = t.bus := by
  intro call
  split
  · rename_i hshort
    obtain ⟨hkey, hchallenge, hshort⟩ := hshort
    have hnone : copyOut serial (if useOurSn then 2 * atsha204OtpByteLen else atsha204SnByteLen) =
        none := if_neg (Nat.not_le.mpr hshort)
    have hopen : (atshaOpenServerEmulation slotId (some serial) (some key)).run t =
        .error .outOfBounds t := by
      simp only [atshaOpenServerEmulation, hnone]
      rfl
    refine ⟨t, ?_⟩
    simp only [call, atshaEmulateHmac, hkey, hchallenge, ne_eq, not_true_eq_false, if_false]
    rw [EStateM.run_bind, hopen]
  · rename_i hlong
    refine (wp_returns_iff _ _ _).mp (wp_emulateHmac charSigned dns slotId ?_ _ _ t)
    intro hkey hchallenge
    exact Nat.not_lt.mp fun hshort => hlong ⟨hkey, hchallenge, hshort⟩

end Atsha204.Analysis
