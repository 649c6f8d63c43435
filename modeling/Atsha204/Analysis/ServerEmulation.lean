import Atsha204.Analysis.Challenge

/-!
# A server and the device it stands in for

A server is opened with a key and a serial number in memory, the device on a file that
holds them among others. Two emulated parties with the same key in a slot and the same
serial number answer every sequence of challenges alike (`sameResponses_of_parties`), and
opening makes such parties (`server_agrees_with_device`).
-/

set_option autoImplicit false

namespace Atsha204.Analysis

open Atsha204.Library
open Atsha204.Model
open Atsha204.Interface

variable {σ τ : Type}

/-- An emulated party that has a key in a slot and a serial number in its handle. -/
structure Party (slotNumber : UInt8) (key sn : Block) (handle : AtshaHandle) : Prop where
  layer : handle.bottomLayer = .emulation
  key_eq : storedSlot handle slotNumber.toNat = some key
  sn_eq : handle.sn = some sn

/-- What keeps the handle keeps the party, whatever the nonce is. -/
theorem Party.kept {slotNumber : UInt8} {key sn : Block} {s s' : St σ}
    {nonce : List.Vector UInt8 atsha204SlotByteLen} {expected : Bool}
    (h : Party slotNumber key sn s.handle) (hkept : Kept (flagged expected (nonced nonce s)) s') :
    Party slotNumber key sn s'.handle := by
  refine ⟨hkept.bottomLayer.trans h.layer, (hkept.storedSlot _).trans h.key_eq, ?_⟩
  rw [hkept.handle]
  exact h.sn_eq

/-- The digest library always gives a digest. -/
theorem digest_total (hmac : List UInt8 → List UInt8 → List.Vector UInt8 32)
    (sha256 : List UInt8 → List.Vector UInt8 32) (slotNumber : UInt8) (request : ChallengeRequest)
    (key serial : Block) :
    ∃ bytes, request.digest (totalDigests hmac sha256) slotNumber key serial = some bytes := by
  obtain ⟨kind, challenge, useSn⟩ := request
  cases kind with
  | hmac => simp [ChallengeRequest.digest, totalDigests, Option.filter_some]
  | mac => exact ⟨_, rfl⟩

/-- A party answers a challenge with its digest, and stays a party. -/
theorem party_response {env : Env σ} {slotNumber : UInt8} {key sn serial bytes : Block} {s : St σ}
    (h : Party slotNumber key sn s.handle) (hslot : slotNumber ≤ atsha204MaxSlotNumber)
    {request : ChallengeRequest} (hserial : serialPart request.useSnInDigest (some sn) = some serial)
    (hdigest : request.digest env.openssl slotNumber key serial = some bytes)
    (response : AtshaBigInt) :
    ∃ r s', (request.run env slotNumber response).run s = .ok (.ok, r) s' ∧ Holds r bytes ∧
      Party slotNumber key sn s'.handle := by
  have hrun := @wp_challenge_emulation σ env s h.layer slotNumber hslot request response
  rw [h.key_eq, h.sn_eq, hserial] at hrun
  simp only [reduceCtorEq, or_self] at hrun
  obtain ⟨⟨_, r⟩, s', hr, nonce, hkept, hresponse⟩ := (wp_returns_iff _ _ _).mp hrun
  rw [hdigest] at hresponse
  obtain ⟨rfl, hholds⟩ := hresponse
  exact ⟨r, s', hr, hholds, h.kept hkept⟩

/-- Parties with the same key and the same serial number give the same responses. -/
theorem sameResponses_of_parties {env : Env σ} {env' : Env τ}
    {hmac : List UInt8 → List UInt8 → List.Vector UInt8 32}
    {sha256 : List UInt8 → List.Vector UInt8 32} (henv : env.openssl = totalDigests hmac sha256)
    (henv' : env'.openssl = totalDigests hmac sha256) {slotNumber : UInt8}
    (hslot : slotNumber ≤ atsha204MaxSlotNumber) {key sn : Block} (hsn : 8 ≤ sn.length)
    (requests : List (ChallengeRequest × AtshaBigInt × AtshaBigInt)) {s : St σ} {t : St τ}
    (hs : Party slotNumber key sn s.handle) (ht : Party slotNumber key sn t.handle) :
    SameResponses env env' slotNumber requests s t := by
  induction requests generalizing s t with
  | nil => trivial
  | cons head requests ih =>
    obtain ⟨request, response, response'⟩ := head
    obtain ⟨serial, hserial⟩ : ∃ serial, serialPart request.useSnInDigest (some sn) =
        some serial := by
      cases huse : request.useSnInDigest with
      | false => exact ⟨_, rfl⟩
      | true => exact ⟨_, copyOut_of_le hsn⟩
    obtain ⟨bytes, hdigest⟩ := digest_total hmac sha256 slotNumber request key serial
    obtain ⟨r, s', hrun, hholds, hs'⟩ :=
      party_response hs hslot hserial (henv.symm ▸ hdigest) response
    obtain ⟨r', t', hrun', hholds', ht'⟩ :=
      party_response ht hslot hserial (henv'.symm ▸ hdigest) response'
    exact ⟨bytes, r, s', r', t', digest_length hdigest, hrun, hholds, hrun', hholds', ih hs' ht'⟩

/-! ## Opening -/

/-- A server has the key it was opened with in every slot.
SOURCE: api.c:259-291 -/
theorem openServerEmulation_run (slotId : UInt8) {sn key : Block} (hsn : sn.length = 8)
    (hkey : key.length = 32) (t : St τ) :
    ∃ t₁, (atshaOpenServerEmulation slotId (some sn) (some key)).run t = .ok true t₁ ∧
      ∀ slotNumber, Party slotNumber key sn t₁.handle := by
  have hsnCopy : copyOut sn (if useOurSn then 2 * atsha204OtpByteLen else atsha204SnByteLen) =
      some sn := copyOut_all hsn
  have hkeyCopy : copyOut key atsha204SlotByteLen = some key := copyOut_all hkey
  have hopen : wp (atshaOpenServerEmulation slotId (some sn) (some key)) (fun opened t₁ =>
      opened = true ∧ ∀ slotNumber, Party slotNumber key sn t₁.handle) (fun _ => False) t := by
    simp only [atshaOpenServerEmulation, wp_bind, wp_access, hsnCopy, hkeyCopy, wp_modifyHandle,
      wp_pure, true_and]
    exact fun slotNumber => ⟨rfl, hkeyCopy, rfl⟩
  obtain ⟨_, t₁, hrun, rfl, hparty⟩ := (wp_returns_iff _ _ _).mp hopen
  exact ⟨t₁, hrun, hparty⟩

/-- A server opened with the key of a slot and the serial number of a file gives the same
responses as the device opened on the file, to every sequence of challenges, whatever the
digest functions are.
SOURCE: emulation.c:52-262, api.c:208-291, api.c:492-618 -/
theorem server_agrees_with_device (env : Env σ) (env' : Env τ)
    (hmac : List UInt8 → List UInt8 → List.Vector UInt8 32)
    (sha256 : List UInt8 → List.Vector UInt8 32) (layout : ConfigLayout) (slotNumber : Fin 16)
    (s : St σ) (t : St τ) :
    let device : Env σ := { env with openssl := totalDigests hmac sha256 }
    let server : Env τ := { env' with openssl := totalDigests hmac sha256 }
    ∃ s₁ t₁, (atshaOpenEmulation device (some layout.text)).run s = .ok true s₁ ∧
      (atshaOpenServerEmulation (UInt8.ofNat slotNumber)
        (some ((layout.otp 0).bytes ++ (layout.otp 1).bytes))
        (some (layout.keys slotNumber).bytes)).run t = .ok true t₁ ∧
      ∀ requests, SameResponses device server (UInt8.ofNat slotNumber) requests s₁ t₁ := by
  intro device server
  have hnumber : (UInt8.ofNat slotNumber).toNat = slotNumber := ofNat_toNat_of_lt (by omega)
  have hslot : UInt8.ofNat slotNumber ≤ atsha204MaxSlotNumber := by
    rw [UInt8.le_iff_toNat_le, hnumber]
    exact Nat.le_of_lt_succ slotNumber.isLt
  have hsn : ((layout.otp 0).bytes ++ (layout.otp 1).bytes).length = 8 := by simp
  obtain ⟨_, s₁, hopen, rfl, hover, -, hcached⟩ :=
    (wp_returns_iff _ _ _).mp (@wp_openEmulation_layout σ device layout s)
  obtain ⟨t₁, hopen', hparty⟩ := openServerEmulation_run (UInt8.ofNat slotNumber) hsn
    (layoutLine_bytes_length (layout.keys slotNumber)) t
  have hkey : storedSlot s₁.handle (UInt8.ofNat slotNumber).toNat =
      some (layout.keys slotNumber).bytes := by
    rw [hnumber]
    exact storedSlot_layout hover slotNumber
  exact ⟨s₁, t₁, hopen, hopen', fun requests => sameResponses_of_parties rfl rfl hslot hsn.ge
    requests ⟨hover.layer, hkey, hcached⟩ (hparty _)⟩

end Atsha204.Analysis
