import Atsha204.Analysis.EmulatedFile
import Atsha204.Interface.Challenge

/-!
# Challenges to the emulated device

An emulated digest command reads its key in the middle of the command, and answers with
the digest of `ChallengeRequest.digest`; this is what both operations on a challenge give
(`wp_challenge_emulation`).
-/

set_option autoImplicit false

namespace Atsha204.Analysis

open Atsha204.Library
open Atsha204.Model
open Atsha204.Interface

variable {σ τ : Type} {env : Env σ}

/-! ## The message -/

/-- The second byte of the second parameter, of a slot. -/
@[simp] theorem peek_address_high (opcode param1 address : UInt8) (data : Block) :
    peek (commandPacket opcode param1 address.toUInt16 data) 4 = some 0 := by
  have hall : ∀ n : Fin 256, (((UInt8.ofNat n).toUInt16 &&& 0xFF00) >>> 8).toUInt8 = 0 := by
    decide +kernel
  have hhigh := hall ⟨address.toNat, address.toNat_lt⟩
  rw [UInt8.ofNat_toNat] at hhigh
  exact congrArg some hhigh

/-- The mode says whether the serial number is in the digest. -/
theorem usesSn_digestMode (mode : UInt8) (hmode : mode = 0x04 ∨ mode = 0x00) (useSn : Bool) :
    usesSn (digestMode mode useSn) = useSn := by
  rcases hmode with rfl | rfl <;> cases useSn <;> rfl

/-- The serial number is read cell by cell.
SOURCE: emulation.c:87-96 -/
theorem mapM_peekAt_eight (sn : Option Block) :
    ([0, 1, 2, 3, 4, 5, 6, 7] : List Int).mapM (peekAt sn) = sn.bind (copyOut · 8) := by
  match sn with
  | none | some [] | some [_] | some [_, _] | some [_, _, _] | some [_, _, _, _]
  | some [_, _, _, _, _] | some [_, _, _, _, _, _] | some [_, _, _, _, _, _, _]
  | some (_ :: _ :: _ :: _ :: _ :: _ :: _ :: _ :: _) => rfl

/-- The end of the message is made of the mode, the slot number and the serial number. -/
theorem digestTail_eq (opcode command mode slotNumber : UInt8) (data : Block)
    (hmode : mode = 0x04 ∨ mode = 0x00) (useSn : Bool) (sn : Option Block) :
    digestTail opcode (commandPacket command (digestMode mode useSn) slotNumber.toUInt16 data) sn =
      (serialPart useSn sn).map (messageTail opcode (digestMode mode useSn) slotNumber) := by
  have hmodeAt := peek_param1 command (digestMode mode useSn) slotNumber.toUInt16 data
  have hslotAt := peek_address command (digestMode mode useSn) slotNumber data
  have hhighAt := peek_address_high command (digestMode mode useSn) slotNumber data
  rw [show (3 : Int) = positionParam1 + 1 from rfl] at hslotAt
  rw [show (4 : Int) = positionParam1 + 2 from rfl] at hhighAt
  rw [show (2 : Int) = positionParam1 from rfl] at hmodeAt
  simp only [digestTail, hmodeAt, hslotAt, hhighAt, usesSn_digestMode mode hmode, useOurSn,
    mapM_peekAt_eight, serialPart, Option.bind_eq_bind, Option.bind_some, Bool.true_and,
    Bool.not_true, Bool.false_and, Bool.false_eq_true, if_false]
  cases useSn with
  | false => rfl
  | true => cases sn.bind (copyOut · 8) <;> simp [messageTail]

/-! ## An emulated digest -/

/-- What a digest command makes of the key, the serial number and the digest library: a
device that was put to sleep in the middle of the command, or one that is still awake when
there is no key. -/
def AfterDigest (stored serial : Option Block) (digest : Block → Block → Option Block) (s : St σ)
    (reply : Reply) (s' : St σ) : Prop :=
  match stored with
  | none => reply.1 ≠ .ok ∧ Kept (flagged true s) s'
  | some key => match serial with
    | none => False
    | some serial => Kept (flagged false s) s' ∧ ReadReply (digest key serial) reply

/-- The end of an emulated HMAC, with what the digest library returned.
SOURCE: emulation.c:150-157 -/
theorem wp_answerHmac (output : Option (List UInt8)) (s : St σ) :
    wp (match output with
      | none => do
        logMessage "emulation: emul_hmac: Bad status code: HMAC (libopenssl)"
        return (.badCommunicationStatus, none)
      | some output =>
        if output.length ≠ 32 then do
          logMessage "emulation: emul_hmac: Bad status code: HMAC (libopenssl)"
          return (.badCommunicationStatus, none)
        else answerWith output 32)
      (fun r s' => Kept s s' ∧ ReadReply (output.filter (·.length = 32)) r) (fun _ => False) s := by
  cases output with
  | none => exact ⟨Kept.exchanged s _, by simp [ReadReply]⟩
  | some output =>
    by_cases hlen : output.length = 32
    · simp only [hlen, ne_eq, not_true_eq_false, if_false]
      rw [wp_answerWith_all hlen (by decide)]
      rw [Option.filter_some_pos (by simpa using hlen)]
      exact ⟨Kept.refl s, rfl⟩
    · simp only [hlen, ne_eq, not_false_eq_true, if_true, wp_bind, wp_logMessage, wp_pure]
      rw [Option.filter_some_neg (by simpa using hlen)]
      exact ⟨Kept.exchanged s _, by simp [ReadReply]⟩

/-- The end of an emulated MAC.
SOURCE: emulation.c:252-261 -/
theorem wp_answerMac (output : Option (List.Vector UInt8 32)) (s : St σ) :
    wp (match output with
      | none => do
        logMessage "emulation: emul_mac: Bad status code: SHA256 (libopenssl)"
        return (.badCommunicationStatus, none)
      | some output => answerWith output.val 32)
      (fun r s' => Kept s s' ∧ ReadReply (output.map (·.val)) r) (fun _ => False) s := by
  cases output with
  | none => exact ⟨Kept.exchanged s _, by simp [ReadReply]⟩
  | some output =>
    simp only
    rw [wp_answerWith_all output.property (by decide)]
    exact ⟨Kept.refl s, rfl⟩

section Digest

variable {s : St σ} (hlayer : s.handle.bottomLayer = .emulation) {slotNumber : UInt8}
  (hslot : slotNumber ≤ atsha204MaxSlotNumber)
include hlayer hslot

/-- The key is read in the middle of a command.
SOURCE: emulation.c:138-142, emulation.c:164-168 -/
theorem wp_nestedSlotRead (number : AtshaBigInt) :
    wp (nestedSlotRead env slotNumber number) (AfterRead (storedSlot s.handle slotNumber.toNat) s)
      (fun _ => storedSlot s.handle slotNumber.toNat = none) s :=
  wp_slotRead_emulation hlayer (fun _ => rfl) hslot number

/-- A digest begins with its key: without one it ends there, still awake, and with one it goes on.
SOURCE: emulation.c:138-142, emulation.c:164-168 -/
theorem wp_keyRead_then (number : AtshaBigInt) {message : String} {serial : Option Block}
    {digest : Block → Block → Option Block} {E : St σ → Prop}
    {f : AtshaErr × AtshaBigInt → Prog σ Reply}
    (hnone : ∀ s', storedSlot s.handle slotNumber.toNat = none → E s')
    (hgood : ∀ key record s', storedSlot s.handle slotNumber.toNat = some key →
      Holds record key → Kept (flagged false s) s' →
      wp (f (.ok, record)) (AfterDigest (some key) serial digest s) E s') :
    wp (nestedSlotRead env slotNumber number)
      (fun r => wp (if r.1 ≠ .ok then do
          logMessage message
          return (.badCommunicationStatus, none)
        else f r)
        (AfterDigest (storedSlot s.handle slotNumber.toNat) serial digest s) E) E s := by
  refine wp_mono (wp_nestedSlotRead hlayer hslot number) ?_ hnone
  rintro ⟨status, record⟩ s' hr
  cases hstored : storedSlot s.handle slotNumber.toNat with
  | none =>
    rw [hstored] at hr
    obtain ⟨hbad, hkept⟩ := hr
    simp only [hbad, ne_eq, not_false_eq_true, if_true, wp_bind, wp_logMessage, wp_pure]
    exact ⟨by simp, hkept.trans (Kept.exchanged _ _)⟩
  | some key =>
    rw [hstored] at hr
    obtain ⟨rfl, hholds, hkept⟩ := hr
    rw [if_neg (by simp)]
    exact hgood key record s' hstored hholds hkept

/-- An emulated HMAC is over the nonce that was loaded before.
SOURCE: emulation.c:52-157 -/
theorem wp_emulHmac (useSn : Bool) :
    wp (emulHmac env (nestedSlotRead env) (commandPacket atsha204OpcodeHmac
        (digestMode 0x04 useSn) slotNumber.toUInt16 []))
      (AfterDigest (storedSlot s.handle slotNumber.toNat) (serialPart useSn s.handle.sn)
        (ChallengeRequest.digest env.openssl slotNumber ⟨.hmac, s.handle.nonce, useSn⟩) s)
      (fun _ => storedSlot s.handle slotNumber.toNat = none ∨ serialPart useSn s.handle.sn = none)
      s := by
  have htail := digestTail_eq atsha204OpcodeHmac atsha204OpcodeHmac 0x04 slotNumber [] (.inl rfl)
    useSn s.handle.sn
  have hslotIndex : positionParam1 + 1 = 3 := rfl
  simp only [emulHmac, wp_bind, wp_getHandle, wp_access, hmacMessage, htail, hslotIndex,
    peek_address]
  cases hserial : serialPart useSn s.handle.sn with
  | none => simp
  | some serial =>
    simp only [Option.map_some, Option.bind_eq_bind, Option.bind_some]
    refine wp_keyRead_then hlayer hslot _ (fun _ h => .inl h) ?_
    intro key record s' hstored hholds hkept
    have hkey := copyOut_of_holds hholds (storedSlot_length hstored).le
    simp only [wp_bind, wp_access, hkey]
    refine wp_mono (wp_answerHmac _ s') ?_ fun _ hF => hF.elim
    rintro reply s₁ ⟨hkept', hreply⟩
    exact ⟨hkept.trans hkept', hreply⟩

/-- An emulated MAC is over the challenge in its packet.
SOURCE: emulation.c:159-262 -/
theorem wp_emulMac (challenge : List.Vector UInt8 atshaMaxDataSize) (useSn : Bool) :
    wp (emulMac env (nestedSlotRead env) (commandPacket atsha204OpcodeMac
        (digestMode 0x00 useSn) slotNumber.toUInt16 challenge.val))
      (AfterDigest (storedSlot s.handle slotNumber.toNat) (serialPart useSn s.handle.sn)
        (ChallengeRequest.digest env.openssl slotNumber ⟨.mac, challenge, useSn⟩) s)
      (fun _ => storedSlot s.handle slotNumber.toNat = none ∨ serialPart useSn s.handle.sn = none)
      s := by
  have hslotIndex : positionParam1 + 1 = 3 := rfl
  simp only [emulMac, wp_bind, wp_access, hslotIndex, peek_address]
  refine wp_keyRead_then hlayer hslot _ (fun _ h => .inl h) ?_
  intro key record s' hstored hholds hkept
  have hkey : record.data.val = key := val_eq_of_holds hholds (storedSlot_length hstored)
  have hsn : s'.handle.sn = s.handle.sn := by rw [hkept.handle]; rfl
  have hchallenge : copyOut ((commandPacket atsha204OpcodeMac (digestMode 0x00 useSn)
      slotNumber.toUInt16 challenge.val).drop 5) 32 = some challenge.val :=
    copyOut_commandData _ _ _ challenge.property
  have htail := digestTail_eq atsha204OpcodeMac atsha204OpcodeMac 0x00 slotNumber challenge.val
    (.inr rfl) useSn s.handle.sn
  simp only [wp_bind, wp_getHandle, wp_access, macMessage, hsn, hchallenge, htail, hkey]
  cases hserial : serialPart useSn s.handle.sn with
  | none => simp
  | some serial =>
    simp only [Option.map_some, Option.bind_eq_bind, Option.bind_some]
    refine wp_mono (wp_answerMac _ s') ?_ fun _ hF => hF.elim
    rintro reply s₁ ⟨hkept', hreply⟩
    exact ⟨hkept.trans hkept', hreply⟩

end Digest

/-! ## A challenge -/

/-- The state with some nonce in the handle. -/
def nonced (nonce : List.Vector UInt8 atsha204SlotByteLen) (s : St σ) : St σ :=
  { s with handle := { s.handle with nonce := nonce } }

/-- What an operation on a challenge makes of an emulated digest. -/
def AfterResponse (stored serial : Option Block) (digest : Block → Block → Option Block)
    (s : St σ) (r : AtshaErr × AtshaBigInt) (s' : St σ) : Prop :=
  match stored with
  | none => r.1 ≠ .ok ∧ Kept (flagged true s) s'
  | some key => match serial with
    | none => False
    | some serial => Kept (flagged false s) s' ∧ match digest key serial with
      | some bytes => r.1 = .ok ∧ Holds r.2 bytes
      | none => r.1 ≠ .ok

/-- A digest has 32 bytes. -/
theorem digest_length {openssl : OpenSsl} {slotNumber : UInt8} {request : ChallengeRequest}
    {key serial bytes : Block} (h : request.digest openssl slotNumber key serial = some bytes) :
    bytes.length = 32 := by
  obtain ⟨kind, challenge, useSn⟩ := request
  cases kind with
  | hmac =>
    have hfilter := (Option.filter_eq_some_iff.mp h).2
    simpa using hfilter
  | mac =>
    obtain ⟨output, -, rfl⟩ := Option.map_eq_some_iff.mp h
    exact output.property

/-- The exchange of a digest command.
SOURCE: api.c:536-550, api.c:594-608 -/
theorem wp_digestExchange {send : Send σ} {packet : Block} {stored serial : Option Block}
    {digest : Block → Block → Option Block} {s s₁ : St σ} {E : St σ → Prop}
    (hsend : wp (send packet) (AfterDigest stored serial digest s) E s₁)
    (hlen : ∀ key serial bytes, digest key serial = some bytes → bytes.length = 32)
    (number : AtshaBigInt) :
    wp (dataExchange send (some packet) readLongData number)
      (AfterResponse stored serial digest s) E s₁ := by
  rw [wp_dataExchange]
  refine wp_mono hsend ?_ fun _ h => h
  rintro ⟨status, answer⟩ s₂ hafter
  cases stored with
  | none =>
    obtain ⟨hbad, hkept⟩ := hafter
    simp only [hbad, if_false]
    exact ⟨hbad, hkept⟩
  | some key =>
    cases serial with
    | none => exact hafter.elim
    | some serial =>
      obtain ⟨hkept, hreply⟩ := hafter
      cases hdigest : digest key serial with
      | none =>
        rw [hdigest] at hreply
        have hbad : status ≠ .ok := hreply
        simp only [hbad, if_false]
        exact ⟨hkept, by rw [hdigest]; exact hbad⟩
      | some bytes =>
        rw [hdigest] at hreply
        obtain ⟨rfl, rfl⟩ := Prod.mk.inj hreply
        have hbytes := hlen key serial bytes hdigest
        have hanswer := answerPacket_length bytes
        simp only [if_true]
        rw [wp_readLongData (framed_answerPacket (by omega)) (by omega), if_pos (by omega),
          payload_answerPacket]
        have hne : ¬ ((bytes.length : ℕ) : Int).toNat = 0 := by
          rw [Int.toNat_natCast]
          omega
        simp only [hne, if_false]
        exact ⟨hkept, by rw [hdigest]; exact ⟨rfl, holds_filled number.data hbytes.le⟩⟩

/-- A session that ends in a response. -/
theorem afterResponse_session {stored serial : Option Block}
    {digest : Block → Block → Option Block} {s : St σ} (hlayer : s.handle.bottomLayer = .emulation)
    {r : AtshaErr × AtshaBigInt} {s' : St σ} (h : AfterResponse stored serial digest s r s') :
    if r.1 = .ok then AfterResponse stored serial digest s (.ok, r.2) (idled env s')
    else AfterResponse stored serial digest s r s' := by
  by_cases hok : r.1 = .ok
  · rw [if_pos hok]
    cases stored with
    | none => exact absurd hok h.1
    | some key =>
      cases serial with
      | none => exact h.elim
      | some serial =>
        obtain ⟨hkept, hr⟩ := h
        rw [idled_emulation (hkept.bottomLayer.trans hlayer)]
        refine ⟨hkept.flagged false, ?_⟩
        cases hdigest : digest key serial with
        | none =>
          rw [hdigest] at hr
          exact absurd hok hr
        | some bytes =>
          rw [hdigest] at hr
          exact ⟨rfl, hr.2⟩
  · rw [if_neg hok]
    exact h

/-- The outcome of a digest may be told from an earlier state. -/
theorem AfterDigest.of_kept {stored serial : Option Block} {digest : Block → Block → Option Block}
    {s s₁ s' : St σ} {expected : Bool} {reply : Reply} (hkept : Kept (flagged expected s) s₁)
    (h : AfterDigest stored serial digest s₁ reply s') :
    AfterDigest stored serial digest s reply s' := by
  cases stored with
  | none => exact ⟨h.1, (hkept.flagged true).trans h.2⟩
  | some key =>
    cases serial with
    | none => exact h
    | some serial => exact ⟨(hkept.flagged false).trans h.1, h.2⟩

/-- A response from a state in which nothing but the flag and the log has changed. -/
theorem AfterResponse.of_kept {stored serial : Option Block}
    {digest : Block → Block → Option Block} {s s₁ s' : St σ} {expected : Bool}
    {r : AtshaErr × AtshaBigInt} (hkept : Kept (flagged expected s) s₁)
    (h : AfterResponse stored serial digest s₁ r s') :
    AfterResponse stored serial digest s r s' := by
  cases stored with
  | none => exact ⟨h.1, (hkept.flagged true).trans h.2⟩
  | some key =>
    cases serial with
    | none => exact h
    | some serial => exact ⟨(hkept.flagged false).trans h.1, h.2⟩

section Challenge

variable {s : St σ} (hlayer : s.handle.bottomLayer = .emulation)
include hlayer

/-- Loading a nonce into the emulated device.
SOURCE: emulation.c:41-50 -/
theorem wp_nonceExchange (challenge : List.Vector UInt8 atshaMaxDataSize) :
    wp (statusExchange (send env) (opNonce 32 challenge.val) opNonceRecv)
      (fun r s' => r.1 = .ok ∧ Kept (nonced challenge s) s') (fun _ => False) s := by
  have hdata : copyOut ((commandPacket atsha204OpcodeNonce 0x03 0 challenge.val).drop 5)
      atsha204SlotByteLen = some challenge.val := copyOut_commandData _ _ _ challenge.property
  have hnonce : ∀ old : List.Vector UInt8 atsha204SlotByteLen,
      overwrite old challenge.val = some challenge :=
    fun old => overwrite_full old challenge.val challenge.property
  rw [opNonce_eq challenge.property, wp_statusExchange]
  simp only [send]
  rw [wp_command_emulation (peek_opcode ..) hlayer, if_neg (by decide), if_neg (by decide),
    if_neg (by decide), if_pos rfl]
  simp only [emulNonce, wp_bind, wp_access, wp_getHandle, hdata, wp_modifyHandle]
  rw [hnonce]
  simp only
  rw [wp_answerWith_all rfl (by decide), if_pos rfl]
  simp only [opNonceRecv]
  rw [wp_justCheckStatus]
  exact ⟨rfl, rfl, rfl, rfl⟩

/-- A digest command to the emulated device. -/
theorem wp_send_digest {slotNumber : UInt8} (hslot : slotNumber ≤ atsha204MaxSlotNumber)
    (challenge : List.Vector UInt8 atshaMaxDataSize) (useSn : Bool) :
    wp (send env (commandPacket atsha204OpcodeHmac (digestMode 0x04 useSn) slotNumber.toUInt16 []))
      (AfterDigest (storedSlot s.handle slotNumber.toNat) (serialPart useSn s.handle.sn)
        (ChallengeRequest.digest env.openssl slotNumber ⟨.hmac, s.handle.nonce, useSn⟩) s)
      (fun _ => storedSlot s.handle slotNumber.toNat = none ∨ serialPart useSn s.handle.sn = none)
      s ∧
    wp (send env (commandPacket atsha204OpcodeMac (digestMode 0x00 useSn) slotNumber.toUInt16
        challenge.val))
      (AfterDigest (storedSlot s.handle slotNumber.toNat) (serialPart useSn s.handle.sn)
        (ChallengeRequest.digest env.openssl slotNumber ⟨.mac, challenge, useSn⟩) s)
      (fun _ => storedSlot s.handle slotNumber.toNat = none ∨ serialPart useSn s.handle.sn = none)
      s := by
  have hkept : ∀ e : Event σ, Kept (flagged s.handle.wakeIsExpected s) (s.exchanged s.bus e) :=
    fun e => Kept.exchanged s e
  simp only [send]
  constructor
  · rw [wp_command_emulation (peek_opcode ..) hlayer, if_pos rfl]
    have hmac := fun e => @wp_emulHmac σ env (s.exchanged s.bus e) hlayer slotNumber hslot useSn
    exact wp_mono (hmac _) (fun _ _ h => AfterDigest.of_kept (hkept _) h) fun _ h => h
  · rw [wp_command_emulation (peek_opcode ..) hlayer, if_neg (by decide), if_pos rfl]
    have hmac := fun e =>
      @wp_emulMac σ env (s.exchanged s.bus e) hlayer slotNumber hslot challenge useSn
    exact wp_mono (hmac _) (fun _ _ h => AfterDigest.of_kept (hkept _) h) fun _ h => h

/-- What an emulated device makes of a challenge: an HMAC leaves the challenge as the nonce.
SOURCE: api.c:492-618 -/
theorem wp_challenge_emulation {slotNumber : UInt8} (hslot : slotNumber ≤ atsha204MaxSlotNumber)
    (request : ChallengeRequest) (response : AtshaBigInt) :
    wp (request.run env slotNumber response) (fun r s' => ∃ nonce,
        AfterResponse (storedSlot s.handle slotNumber.toNat)
          (serialPart request.useSnInDigest s.handle.sn)
          (request.digest env.openssl slotNumber) (nonced nonce s) r s')
      (fun _ => storedSlot s.handle slotNumber.toNat = none ∨
        serialPart request.useSnInDigest s.handle.sn = none) s := by
  obtain ⟨kind, challenge, useSn⟩ := request
  have hsmall : ¬ slotNumber > atsha204MaxSlotNumber := UInt8.not_lt.mpr hslot
  have hlen : ∀ kind, ∀ key serial bytes, ChallengeRequest.digest env.openssl slotNumber
      ⟨kind, challenge, useSn⟩ key serial = some bytes → bytes.length = 32 :=
    fun _ _ _ _ h => digest_length h
  cases kind with
  | hmac =>
    simp only [ChallengeRequest.run, atshaLowChallengeResponse, hsmall, if_false, ne_eq,
      not_true_eq_false]
    rw [wp_session_emulation hlayer, wp_bind]
    refine wp_mono (@wp_nonceExchange σ env (flagged true s) hlayer challenge) ?_
      fun _ hF => hF.elim
    rintro ⟨_, -⟩ s₁ ⟨rfl, hkept⟩
    have hlayer₁ : s₁.handle.bottomLayer = .emulation := hkept.bottomLayer.trans hlayer
    have hnonce : s₁.handle.nonce = challenge := by rw [hkept.handle]; rfl
    have hsn : s₁.handle.sn = s.handle.sn := by rw [hkept.handle]; rfl
    have hstored : storedSlot s₁.handle slotNumber.toNat = storedSlot s.handle slotNumber.toNat :=
      hkept.storedSlot _
    have hhmac := (@wp_send_digest σ env s₁ hlayer₁ slotNumber hslot challenge useSn).1
    rw [hnonce, hsn, hstored] at hhmac
    have hdigest := wp_digestExchange hhmac (hlen .hmac) response
    simp only [not_true_eq_false, if_false, opHmac_eq]
    refine wp_mono hdigest ?_ fun _ h => h
    intro r s₂ hafter
    have hdone := @afterResponse_session σ env _ _ _ s₁ hlayer₁ _ _ hafter
    split at hdone
    · rw [if_pos ‹_›]
      exact ⟨challenge, hdone.of_kept hkept⟩
    · rw [if_neg ‹_›]
      exact ⟨challenge, hdone.of_kept hkept⟩
  | mac =>
    have hmac := (@wp_send_digest σ env (flagged true s) hlayer slotNumber hslot challenge useSn).2
    have hdigest := wp_digestExchange hmac (hlen .mac) response
    simp only [ChallengeRequest.run, atshaLowChallengeResponseMac, hsmall, if_false, ne_eq,
      not_true_eq_false, opMac_eq slotNumber useSn challenge.property]
    rw [wp_session_emulation hlayer]
    refine wp_mono hdigest ?_ fun _ h => h
    intro r s₂ hafter
    have hdone := @afterResponse_session σ env _ _ _ (flagged true s) hlayer _ _ hafter
    have hkept : Kept (flagged true (nonced s.handle.nonce s)) (flagged true s) := .refl _
    split at hdone
    · rw [if_pos ‹_›]
      exact ⟨s.handle.nonce, hdone.of_kept hkept⟩
    · rw [if_neg ‹_›]
      exact ⟨s.handle.nonce, hdone.of_kept hkept⟩

end Challenge

end Atsha204.Analysis
