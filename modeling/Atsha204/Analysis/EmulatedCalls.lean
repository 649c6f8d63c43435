import Atsha204.Analysis.EmulatedDevice
import Atsha204.Analysis.ServerEmulation

/-!
# An emulated device has no memory

Every operation is made of sessions and exchanges, and an HMAC loads the nonce it is over, so
a call ends in the same way on two states of one device (`publicCall_simulates`). No call
makes another device of it (`publicCall_keeps`). A call therefore gives what it gives on a
handle that was just opened, whatever was called before (`emulation_has_no_memory`).
-/

set_option autoImplicit false

namespace Atsha204.Analysis

open Atsha204.Library
open Atsha204.Model
open Atsha204.Interface

variable {σ α : Type} {env env' : Env σ} {device : AtshaHandle} {loaded : Prop}

/-! ## The operations -/

section Operations

variable (hssl : env.openssl = env'.openssl)
include hssl

/-- A packet that neither loads a nonce nor asks for an HMAC. -/
theorem built_simulates {opcode : UInt8} (hhmac : opcode ≠ atsha204OpcodeHmac)
    (hnonce : opcode ≠ atsha204OpcodeNonce) {param1 : UInt8} {param2 : UInt16} {data : Block}
    (hdata : data.length ≤ 32) {dataCount : UInt8} (bytes : Block)
    (h : generateCommandPacket opcode param1 param2 data dataCount = some bytes) :
    SendsAlike device loaded (send env) (send env') bytes := by
  obtain ⟨sent, -, rfl⟩ := exists_of_generateCommandPacket hdata h
  apply send_simulates hssl
  · exact fun hopcode => absurd (opcode_of_commandPacket hopcode) hhmac
  · exact fun hopcode => absurd (opcode_of_commandPacket hopcode) hnonce

omit hssl in
/-- A session for data in one state of the device goes as in the other. -/
theorem dataSession_simulates {packet : Option Block}
    (hsend : ∀ bytes, packet = some bytes → SendsAlike device loaded (send env) (send env') bytes)
    {recv : DataRecv σ} (hrecv : DecodesAlike device loaded recv) (number number' : AtshaBigInt) :
    Simulates (Alike device loaded) (SameFrom (number = number'))
      (session env number (dataExchange (send env) packet recv number))
      (session env' number' (dataExchange (send env') packet recv number')) :=
  session_simulates (dataExchange_simulates hsend hrecv number number')

omit hssl in
/-- Results that began with the same number are the same. -/
theorem SameFrom.eq {number : AtshaBigInt} (r r' : AtshaErr × AtshaBigInt)
    (h : SameFrom (number = number) r r') : r = r' := Prod.ext h.1 (h.2 rfl)

omit hssl in
/-- So does a session for a status. -/
theorem statusSession_simulates {packet : Option Block}
    (hsend : ∀ bytes, packet = some bytes → SendsAlike device loaded (send env) (send env') bytes)
    {recv : Block → Prog σ AtshaErr}
    (hrecv : ∀ answer, Simulates (Alike device loaded) Eq (recv answer) (recv answer)) :
    Simulates (Alike device loaded) Eq
      (session env () (statusExchange (send env) packet recv))
      (session env' () (statusExchange (send env') packet recv)) :=
  session_same () (statusExchange_simulates hsend hrecv)

/-- So does a slot read. -/
theorem slotRead_simulates (slotNumber : UInt8) (number : AtshaBigInt) :
    Simulates (Alike device loaded) Eq (atshaRawSlotRead env slotNumber number)
      (atshaRawSlotRead env' slotNumber number) := by
  refine (rawSlotRead_simulates slotNumber (fun address => ?_) number number).mono SameFrom.eq
  exact built_simulates hssl (by decide) (by decide) (by decide) _ (generateCommandPacket_nil _ _ _)

/-- So does a read of any zone. -/
theorem rawRead_simulates (zone address : UInt8) (number number' : AtshaBigInt) :
    Simulates (Alike device loaded) (SameFrom (number = number'))
      (session env number (dataExchange (send env) (opRawRead zone address) opRawReadRecv number))
      (session env' number'
        (dataExchange (send env') (opRawRead zone address) opRawReadRecv number')) := by
  apply dataSession_simulates _ readLongData_simulates
  exact built_simulates hssl (by decide) (by decide) (by decide)

/-- So does a write to any zone. -/
theorem rawWrite_simulates (zone address : UInt8) (data : AtshaBigInt) :
    Simulates (Alike device loaded) Eq
      (session env () (statusExchange (send env)
        (opRawWrite zone address data.bytes data.data.val) opRawWriteRecv))
      (session env' () (statusExchange (send env')
        (opRawWrite zone address data.bytes data.data.val) opRawWriteRecv)) := by
  apply statusSession_simulates _ justCheckStatus_simulates
  exact built_simulates hssl (by decide) (by decide) data.data.property.le

/-- So do the writes of the library. -/
theorem writeCall_simulates (call : WriteCall) (data : AtshaBigInt) :
    Simulates (Alike device loaded) Eq (call.run env data) (call.run env' data) := by
  cases call with
  | slot slotNumber =>
    change Simulates _ _ (atshaRawSlotWrite env slotNumber data) (atshaRawSlotWrite env' _ data)
    unfold atshaRawSlotWrite
    split
    · exact logged_simulates Alike.exchanged _ rfl
    · apply statusSession_simulates _ justCheckStatus_simulates
      intro bytes hbytes
      obtain ⟨address, -, hpacket⟩ := Option.bind_eq_some_iff.mp hbytes
      exact built_simulates hssl (by decide) (by decide) data.data.property.le bytes hpacket
  | conf address => exact rawWrite_simulates hssl _ address data
  | otp address => exact rawWrite_simulates hssl _ address data
  | otp32 address =>
    change Simulates _ _ (atshaRawOtp32Write env address data) (atshaRawOtp32Write env' _ data)
    unfold atshaRawOtp32Write
    split
    · exact .pure rfl
    · exact rawWrite_simulates hssl _ address data

/-- So does a lock. -/
theorem lock_simulates (zone : UInt8) (crc : UInt8 × UInt8) :
    Simulates (Alike device loaded) Eq
      (session env () (statusExchange (send env) (opLock zone crc) opLockRecv))
      (session env' () (statusExchange (send env') (opLock zone crc) opLockRecv)) := by
  apply statusSession_simulates _ justCheckStatus_simulates
  exact built_simulates hssl (by decide) (by decide) (by decide)

/-! ### Challenges -/

omit hssl in
/-- What keeps the handle keeps that it resembles the device. -/
theorem Resembles.kept {s s' : St σ} (h : Resembles device loaded s.handle) (hkept : Kept s s') :
    Resembles device loaded s'.handle := by
  rw [hkept.handle]
  exact ⟨h.layer, h.server, hkept.content.trans h.content, h.sn, h.key, h.slotId, h.nonce⟩

omit hssl in
/-- Behind the loading of a nonce the nonces agree.
SOURCE: api.c:518-534 -/
theorem loadNonce_into {challenge : AtshaBigInt} (hbytes : challenge.bytes = 32) :
    SimulatesInto (Alike device False) (Alike { device with nonce := challenge.data } True)
      (fun a b => a.1 = .ok ∧ b.1 = .ok) (loadNonce env challenge) (loadNonce env' challenge) := by
  have hload : ∀ (env : Env σ) (s : St σ), Resembles device False s.handle →
      ∃ r s', (loadNonce env challenge).run s = .ok r s' ∧ r.1 = .ok ∧
        Resembles { device with nonce := challenge.data } True s'.handle := by
    intro env s h
    have hrun := @wp_nonceExchange σ env s h.layer challenge.data
    rw [← hbytes] at hrun
    obtain ⟨r, s', hrun, hok, hkept⟩ := (wp_returns_iff _ _ _).mp hrun
    have hnonced : Resembles { device with nonce := challenge.data } True
        (nonced challenge.data s).handle :=
      ⟨h.layer, h.server, h.content, h.sn, h.key, h.slotId, fun _ => rfl⟩
    exact ⟨r, s', hrun, hok, hnonced.kept hkept⟩
  apply SimulatesInto.of_run
  rintro s t ⟨hs, ht⟩
  obtain ⟨a, s', hx, ha, hs'⟩ := hload env s hs
  obtain ⟨b, t', hy, hb, ht'⟩ := hload env' t ht
  exact ⟨a, s', b, t', hx, hy, ⟨ha, hb⟩, hs', ht'⟩

omit hssl in
/-- Without its nonce it still does. -/
theorem Resembles.forget {nonce : List.Vector UInt8 atsha204SlotByteLen} {handle : AtshaHandle}
    (h : Resembles { device with nonce := nonce } True handle) : Resembles device False handle :=
  ⟨h.layer, h.server, h.content, h.sn, h.key, h.slotId, False.elim⟩

/-- An HMAC loads the nonce that it is over.
SOURCE: api.c:492-561 -/
theorem challengeResponse_simulates (slotNumber : UInt8) (challenge response : AtshaBigInt)
    (useSn : Bool) :
    Simulates (Alike device False) Eq
      (atshaLowChallengeResponse env slotNumber challenge response useSn)
      (atshaLowChallengeResponse env' slotNumber challenge response useSn) := by
  unfold atshaLowChallengeResponse
  split
  · exact logged_simulates Alike.exchanged _ rfl
  · split
    · exact logged_simulates Alike.exchanged _ rfl
    · rename_i hbytes
      have hforget : ∀ s t : St σ, Alike { device with nonce := challenge.data } True s t →
          Alike device False s t := fun s t h => ⟨h.1.forget, h.2.forget⟩
      have hhmac : ∀ bytes, opHmac slotNumber useSn = some bytes →
          SendsAlike { device with nonce := challenge.data } True (send env) (send env') bytes := by
        intro bytes hpacket
        obtain ⟨sent, -, rfl⟩ := exists_of_generateCommandPacket (by decide) hpacket
        apply send_simulates hssl (fun _ => trivial)
        exact fun hopcode => absurd (opcode_of_commandPacket hopcode) (by decide)
      refine Simulates.mono (session_simulates ?_) (@SameFrom.eq response)
      apply (loadNonce_into (not_not.mp hbytes)).bind hforget
      rintro ⟨status, _⟩ ⟨status', _⟩ ⟨hok, hok'⟩
      obtain rfl : status = .ok := hok
      obtain rfl : status' = .ok := hok'
      exact dataExchange_simulates hhmac readLongData_simulates response response

/-- A MAC in one state of the device goes as in the other.
SOURCE: api.c:570-618 -/
theorem challengeResponseMac_simulates (slotNumber : UInt8) (challenge response : AtshaBigInt)
    (useSn : Bool) :
    Simulates (Alike device loaded) Eq
      (atshaLowChallengeResponseMac env slotNumber challenge response useSn)
      (atshaLowChallengeResponseMac env' slotNumber challenge response useSn) := by
  unfold atshaLowChallengeResponseMac
  split
  · exact logged_simulates Alike.exchanged _ rfl
  · split
    · exact logged_simulates Alike.exchanged _ rfl
    · refine (dataSession_simulates ?_ readLongData_simulates response response).mono SameFrom.eq
      exact built_simulates hssl (by decide) (by decide) challenge.data.property.le

/-- So does every plain call, whatever nonces there are. -/
theorem plainCall_simulates (call : PlainCall) (number : AtshaBigInt) :
    Simulates (Alike device False) Eq (call.run env number) (call.run env' number) := by
  cases call with
  | random =>
    refine (dataSession_simulates ?_ readLongData_simulates number number).mono SameFrom.eq
    exact built_simulates hssl (by decide) (by decide) (by decide)
  | slotRead slotNumber => exact slotRead_simulates hssl slotNumber number
  | confRead address => exact (rawRead_simulates hssl _ address number number).mono SameFrom.eq
  | otpRead address => exact (rawRead_simulates hssl _ address number number).mono SameFrom.eq
  | respond kind slotNumber challenge useSn =>
    cases kind with
    | hmac => exact challengeResponse_simulates hssl slotNumber challenge number useSn
    | mac => exact challengeResponseMac_simulates hssl slotNumber challenge number useSn
  | write call data =>
    apply (writeCall_simulates hssl call data).bind_same
    intro r
    exact .pure rfl
  | lockConfig crc =>
    apply (lock_simulates hssl _ crc).bind_same
    intro r
    exact .pure rfl
  | lockData crc =>
    apply (lock_simulates hssl _ crc).bind_same
    intro r
    exact .pure rfl

/-! ### Identification -/

/-- So does the revision.
SOURCE: api.c:316-347 -/
theorem devRev_simulates (revision : UInt32) :
    Simulates (Alike device loaded) Eq (atshaDevRev env revision) (atshaDevRev env' revision) := by
  have hsend : SendsAlike device loaded (send env) (send env') _ :=
    built_simulates hssl (by decide) (by decide) (by decide) _ opDevRev_eq
  unfold atshaDevRev
  rw [opDevRev_eq]
  apply session_same
  apply hsend.bind_same
  rintro ⟨status, answer⟩
  dsimp only
  split
  · exact .pure rfl
  · apply (Simulates.orFault _ _).bind_same
    intro answer
    apply (Simulates.orFault _ _).bind
    rintro revision _ rfl
    exact .pure rfl

omit hssl in
/-- A handle that resembles the device stores the same OTP words. -/
theorem Resembles.storedOtp {handle : AtshaHandle} (h : Resembles device loaded handle)
    (word : ℕ) : storedOtp handle word = Interface.storedOtp device word :=
  storedOtp_congr h.content h.server word

/-- An OTP word gives the same bytes, whatever it is read into. -/
theorem otpRead_simulates (address : UInt8) (number number' : AtshaBigInt) :
    Simulates (Alike device loaded)
      (fun r r' => r.1 = r'.1 ∧ (r.1 = .ok → r.2.data.val.take 4 = r'.2.data.val.take 4))
      (atshaRawOtpRead env address number) (atshaRawOtpRead env' address number') := by
  have hword : ∀ (env : Env σ) (number : AtshaBigInt) {s : St σ}, Resembles device loaded s.handle →
      wp (atshaRawOtpRead env address number) (fun r _ => r.1 = .ok →
        storedOtp device address.toNat = some (r.2.data.val.take 4)) (fun _ => True) s := by
    intro env number s h
    refine wp_mono (wp_otpRead_emulation h.layer address number) ?_ fun _ _ => trivial
    rintro r s' hr hok
    rw [h.storedOtp] at hr
    cases hstored : storedOtp device address.toNat with
    | none =>
      rw [hstored] at hr
      exact absurd hok hr.1
    | some data =>
      rw [hstored] at hr
      have hlen : data.length = 4 := storedOtp_length hstored
      rw [← hlen, hr.2.1.take_eq]
  refine ((rawRead_simulates hssl _ address number number').and_of_wp
    (fun s t h => hword env number h.1) fun s t h => hword env' number' h.2).mono ?_
  rintro r r' ⟨hsame, hr, hr'⟩
  refine ⟨hsame.1, fun hok => ?_⟩
  exact Option.some.inj ((hr hok).symm.trans (hr' (hsame.1 ▸ hok)))

/-- The serial number in one state of the device is read as in the other.
SOURCE: api.c:658-678 -/
theorem serialNumber_simulates (number : AtshaBigInt) :
    Simulates (Alike device loaded) Eq (atshaSerialNumber env number)
      (atshaSerialNumber env' number) := by
  unfold atshaSerialNumber
  have hours : useOurSn = true := rfl
  rw [if_pos hours, if_pos hours]
  apply (otpRead_simulates hssl _ _ _).bind
  rintro ⟨status, part⟩ ⟨_, part'⟩ ⟨rfl, hpart⟩
  dsimp only
  split
  · exact .pure rfl
  · rename_i hok
    have hfront : part.data.val.take 4 = part'.data.val.take 4 := hpart (not_not.mp hok)
    rw [hfront]
    apply (Simulates.orFault _ _).bind_same
    intro data
    apply (otpRead_simulates hssl _ _ _).bind
    rintro ⟨status, back⟩ ⟨_, back'⟩ ⟨rfl, hback⟩
    dsimp only
    split
    · exact .pure rfl
    · rename_i hok'
      have hrest : back.data.val.take 4 = back'.data.val.take 4 := hback (not_not.mp hok')
      rw [hrest]
      apply (Simulates.orFault _ _).bind_same
      intro data
      exact .pure rfl

/-- No configuration word but the first can be read.
SOURCE: api.c:680-695 -/
theorem changeAddress_simulates (address : UInt8) :
    Simulates (Alike device loaded) Eq (atshaChangeAddress env address)
      (atshaChangeAddress env' address) := by
  have hbad : ∀ (env : Env σ) (number : AtshaBigInt) {s : St σ}, Resembles device loaded s.handle →
      wp (atshaRawConfRead env atsha204CnfMemoryMapI2cAddress number) (fun r _ => r.1 ≠ .ok)
        (fun _ => True) s := by
    intro env number s h
    have hread := @wp_confRead_emulation σ env s h.layer atsha204CnfMemoryMapI2cAddress number
    rw [if_neg (by decide)] at hread
    exact wp_mono hread (fun _ _ hr => hr.1) fun _ _ => trivial
  unfold atshaChangeAddress
  split
  · exact .pure rfl
  · apply ((rawRead_simulates hssl _ atsha204CnfMemoryMapI2cAddress _ _).and_of_wp
      (fun s t h => hbad env _ h.1) fun s t h => hbad env' _ h.2).bind
    rintro ⟨status, line⟩ ⟨status', line'⟩ ⟨⟨hsame, -⟩, hstatus, -⟩
    obtain rfl : status = status' := hsame
    dsimp only at hstatus ⊢
    rw [if_pos hstatus, if_pos hstatus]
    exact .pure rfl

/-! ### Automatic operations of a server -/

section Server

variable (hserver : device.isSrvEmulation = true) {charSigned : Bool} (dns : Resolution)
include hserver

omit hssl in
/-- A server does not ask for the slot.
SOURCE: dnsmagic.c:115-117 -/
theorem findSlotNumber_simulates : Simulates (Alike device loaded) Eq
    (atshaFindSlotNumber env charSigned dns) (atshaFindSlotNumber env' charSigned dns) := by
  unfold atshaFindSlotNumber
  apply getHandle_simulates.bind
  rintro g g' ⟨hg, hg'⟩
  rw [hg.server, hg'.server, hg.slotId, hg'.slotId, if_pos hserver, if_pos hserver]
  exact .pure rfl

omit hssl in
/-- So is an operation on the slot that is found, if it is so on every slot. -/
theorem withSlotNumber_simulates {out : α} {operation operation' : UInt8 → Prog σ (AtshaErr × α)}
    (h : ∀ slotNumber, Simulates (Alike device loaded) Eq (operation slotNumber)
      (operation' slotNumber)) :
    Simulates (Alike device loaded) Eq (withSlotNumber env charSigned dns out operation)
      (withSlotNumber env' charSigned dns out operation') := by
  unfold withSlotNumber
  apply (findSlotNumber_simulates hserver dns).bind_same
  intro slotNumber
  split
  · exact .pure rfl
  · exact h slotNumber

end Server

omit hssl in
/-- The output may be given in another form. -/
theorem giving_simulates {R : St σ → St σ → Prop} (output : α → Output)
    {x y : Prog σ (AtshaErr × α)} (h : Simulates R Eq x y) :
    Simulates R Eq (giving output x) (giving output y) := by
  apply h.bind_same
  intro r
  exact .pure rfl

/-- For a server the operations on the slot that is found go alike. -/
theorem automaticOp_simulates (hserver : device.isSrvEmulation = true) (charSigned : Bool)
    (dns : Resolution) (op : AutomaticOp) :
    Simulates (Alike device False) Eq (op.result env charSigned dns)
      (op.result env' charSigned dns) := by
  cases op with
  | slotRead number =>
    apply giving_simulates Output.number
    apply withSlotNumber_simulates hserver
    exact fun slotNumber => slotRead_simulates hssl slotNumber number
  | slotWrite number =>
    have hwrite : Simulates (Alike device False) Eq (atshaSlotWrite env charSigned dns number)
        (atshaSlotWrite env' charSigned dns number) := by
      apply withSlotNumber_simulates hserver
      exact fun slotNumber => writeCall_simulates hssl (.slot slotNumber) number
    exact giving_simulates (fun _ => .nothing) hwrite
  | challengeResponse challenge response =>
    apply giving_simulates Output.number
    apply withSlotNumber_simulates hserver
    exact fun slotNumber => challengeResponse_simulates hssl slotNumber challenge response _
  | challengeResponseMac challenge response =>
    apply giving_simulates Output.number
    apply withSlotNumber_simulates hserver
    exact fun slotNumber => challengeResponseMac_simulates hssl slotNumber challenge response _

/-- A call ends in the same way on two states of one device: any call of a server, and those
that do not ask for the slot on the others. -/
theorem publicCall_simulates (charSigned : Bool) (call : PublicCall)
    (hcall : device.isSrvEmulation = false → call.OnDevice device) :
    Simulates (Alike device False) Eq (call.run env charSigned) (call.run env' charSigned) := by
  cases call with
  | plain call number => exact giving_simulates _ (plainCall_simulates hssl call number)
  | devRev revision => exact giving_simulates _ (devRev_simulates hssl revision)
  | chipSerialNumber number =>
    apply giving_simulates Output.number
    refine (dataSession_simulates ?_ opSerialNumberRecv_simulates number number).mono SameFrom.eq
    exact built_simulates hssl (by decide) (by decide) (by decide)
  | serialNumber number => exact giving_simulates _ (serialNumber_simulates hssl number)
  | changeAddress address =>
    exact giving_simulates (fun _ => .nothing) (changeAddress_simulates hssl address)
  | findSlotNumber dns =>
    obtain hserver | hserver := Bool.eq_false_or_eq_true device.isSrvEmulation
    · apply (findSlotNumber_simulates hserver dns).bind_same
      intro slotNumber
      exact .pure rfl
    · exact absurd hserver (ne_false_of_eq_true (hcall hserver))
  | automatic op dns =>
    obtain hserver | hserver := Bool.eq_false_or_eq_true device.isSrvEmulation
    · exact automaticOp_simulates hssl hserver charSigned dns op
    · exact absurd hserver (ne_false_of_eq_true (hcall hserver))

end Operations

/-! ## No call makes another device -/

/-- The program leaves the device the one it is. -/
def KeepsDevice (device : AtshaHandle) (x : Prog σ α) : Prop :=
  ∀ s, Resembles device False s.handle →
    wp x (fun _ s' => Resembles device False s'.handle)
      (fun s' => Resembles device False s'.handle) s

/-- What goes in one state of the device as in the other stays in such states. -/
theorem KeepsDevice.of_simulates {V : α → α → Prop} {x : Prog σ α}
    (h : Simulates (Alike device False) V x x) : KeepsDevice device x :=
  fun _ hs => Simulates.keeps (I := fun s : St σ => Resembles device False s.handle) h hs

/-- What both parts of a sequence keep, the sequence keeps. -/
theorem KeepsDevice.bind {β : Type} {x : Prog σ α} {f : α → Prog σ β} (h : KeepsDevice device x)
    (hf : ∀ a, KeepsDevice device (f a)) : KeepsDevice device (x >>= f) := Keeps.bind h hf

/-- Returning a value keeps the device. -/
theorem keepsDevice_pure (a : α) : KeepsDevice device (pure a : Prog σ α) := Keeps.pure a

/-- So does an OTP read. -/
theorem otpRead_keeps (env : Env σ) (address : UInt8) (number : AtshaBigInt) :
    KeepsDevice device (atshaRawOtpRead env address number) :=
  .of_simulates (otpRead_simulates rfl address number number)

/-- What the record of the key set comes to, an entry in the log is all that it leaves. -/
theorem resolveKey_keeps {I : St σ → Prop} (charSigned : Bool) (dns : Resolution)
    (hlog : ∀ text, Keeps I (logMessage text)) : Keeps I (resolveKey charSigned dns) := by
  cases dns with
  | noContext => exact (hlog _).bind fun _ => .pure _
  | badConfiguration text => exact (hlog _).bind fun _ => (hlog _).bind fun _ => .pure _
  | failed text => exact (hlog _).bind fun _ => (hlog _).bind fun _ => .pure _
  | noData => exact (hlog _).bind fun _ => .pure _
  | record rdata => exact (Keeps.orFault _ _).bind fun _ => .pure _

/-- Asking for the slot reads the origin once at the most.
SOURCE: dnsmagic.c:66-137 -/
theorem wp_findSlotNumber {I J : St σ → Prop} (charSigned : Bool) (dns : Resolution)
    (hIJ : ∀ s, I s → J s) (hlog : ∀ text, Keeps I (logMessage text) ∧ Keeps J (logMessage text))
    (hread : ∀ number s, I s → wp (atshaRawOtpRead env atsha204OtpMemoryMapOriginKeySet number)
      (fun _ s' => J s') J s)
    (hcache : ∀ keyOrigin, Keeps J (modifyHandle fun h =>
      { h with keyOrigin := keyOrigin, keyOriginCached := true })) {s : St σ} (hs : I s) :
    wp (atshaFindSlotNumber env charSigned dns) (fun _ s' => J s') J s := by
  unfold atshaFindSlotNumber
  rw [wp_bind, wp_getHandle]
  split
  · exact hIJ s hs
  rw [wp_bind]
  refine wp_mono (resolveKey_keeps charSigned dns (fun text => (hlog text).1) s hs) ?_ hIJ
  rintro (_ | offset) s₁ hs₁
  · exact hIJ s₁ hs₁
  dsimp only
  split
  · exact hIJ s₁ hs₁
  rw [wp_bind]
  refine wp_mono (hread _ s₁ hs₁) ?_ fun _ h => h
  rintro ⟨status, number⟩ s₂ hs₂
  have hrest : Keeps J (do
      if status ≠ .ok then
        logMessage "dnsmagic: find_slot_number: read key origin from OTP memory"
        return dnsErrConst
      let keyOrigin ← access (uint32From4Bytes number.data.val)
      modifyHandle fun h => { h with keyOrigin := keyOrigin, keyOriginCached := true }
      return (offset - keyOrigin).toUInt8) := by
    split
    · exact (hlog _).2.bind fun _ => .pure _
    · apply (Keeps.orFault _ _).bind
      intro keyOrigin
      exact (hcache keyOrigin).bind fun _ => .pure _
  exact hrest s₂ hs₂

/-- Asking for the slot keeps what an entry in the log, the read of the origin and the caching
of the origin keep. -/
theorem findSlotNumber_keeps_of {I : St σ → Prop} (charSigned : Bool) (dns : Resolution)
    (hlog : ∀ text, Keeps I (logMessage text))
    (hread : ∀ number, Keeps I (atshaRawOtpRead env atsha204OtpMemoryMapOriginKeySet number))
    (hcache : ∀ keyOrigin, Keeps I (modifyHandle fun h =>
      { h with keyOrigin := keyOrigin, keyOriginCached := true })) :
    Keeps I (atshaFindSlotNumber env charSigned dns) :=
  fun _ hs => wp_findSlotNumber charSigned dns (fun _ h => h) (fun text => ⟨hlog text, hlog text⟩)
    hread hcache hs

/-- Asking for the slot leaves at most the origin in the handle. -/
theorem findSlotNumber_keeps (charSigned : Bool) (dns : Resolution) :
    KeepsDevice device (atshaFindSlotNumber env charSigned dns) := by
  apply findSlotNumber_keeps_of charSigned dns
  · exact fun text _ h => h
  · exact fun number => otpRead_keeps env _ number
  · exact fun keyOrigin _ h => ⟨h.layer, h.server, h.content, h.sn, h.key, h.slotId, h.nonce⟩

/-- So does an operation on the slot that is found. -/
theorem withSlotNumber_keeps (output : α → Output) (charSigned : Bool) (dns : Resolution) {out : α}
    {operation : UInt8 → Prog σ (AtshaErr × α)}
    (h : ∀ slotNumber, Simulates (Alike device False) Eq (operation slotNumber)
      (operation slotNumber)) :
    KeepsDevice device (giving output (withSlotNumber env charSigned dns out operation)) := by
  unfold giving withSlotNumber
  apply KeepsDevice.bind
  · apply (findSlotNumber_keeps charSigned dns).bind
    intro slotNumber
    split
    · exact keepsDevice_pure _
    · exact .of_simulates (h slotNumber)
  · exact fun _ => keepsDevice_pure _

/-- So does every public operation. -/
theorem publicCall_keeps (charSigned : Bool) (call : PublicCall) :
    KeepsDevice device (call.run env charSigned) := by
  cases call with
  | findSlotNumber dns =>
    exact (findSlotNumber_keeps charSigned dns).bind fun _ => keepsDevice_pure _
  | automatic op dns =>
    cases op with
    | slotRead number =>
      exact withSlotNumber_keeps _ charSigned dns fun slot => slotRead_simulates rfl slot number
    | slotWrite number =>
      exact withSlotNumber_keeps (fun _ => .nothing) charSigned dns fun slot =>
        writeCall_simulates rfl (.slot slot) number
    | challengeResponse challenge response =>
      exact withSlotNumber_keeps _ charSigned dns fun slot =>
        challengeResponse_simulates rfl slot challenge response _
    | challengeResponseMac challenge response =>
      exact withSlotNumber_keeps _ charSigned dns fun slot =>
        challengeResponseMac_simulates rfl slot challenge response _
  | plain call number =>
    exact .of_simulates (publicCall_simulates rfl charSigned _ fun _ => trivial)
  | devRev revision =>
    exact .of_simulates (publicCall_simulates rfl charSigned _ fun _ => trivial)
  | chipSerialNumber number =>
    exact .of_simulates (publicCall_simulates rfl charSigned _ fun hserver => hserver)
  | serialNumber number =>
    exact .of_simulates (publicCall_simulates rfl charSigned _ fun _ => trivial)
  | changeAddress address =>
    exact .of_simulates (publicCall_simulates rfl charSigned _ fun _ => trivial)

/-! ## Opening -/

/-- The device that an opening gives a handle on. -/
def openedDevice : Opening → AtshaHandle
  | .emulation none => callocHandle
  | .emulation (some content) =>
    let handle := { callocHandle with file := some ⟨content, content⟩ }
    { handle with sn := storedSerial handle }
  | .server slotId serialNumber key => { callocHandle with
      isSrvEmulation := true
      slotId := slotId
      sn := serialNumber.bind (copyOut · (2 * atsha204OtpByteLen))
      key := key.bind (copyOut · atsha204SlotByteLen) }

/-- The handle is one on the device that the opening is for, and has a serial number cached. -/
def OpenedTo (opening : Opening) (handle : AtshaHandle) : Prop :=
  Resembles (openedDevice opening) False handle ∧ (openedDevice opening).sn.isSome = true

/-- A file is opened to the device that it describes.
SOURCE: api.c:208-257 -/
theorem wp_openEmulation (content : List UInt8) (s : St σ) :
    wp (atshaOpenEmulation env (some content))
      (fun opened s' => opened = true → OpenedTo (.emulation (some content)) s'.handle)
      (fun _ => True) s := by
  unfold atshaOpenEmulation
  simp only [wp_bind, wp_modifyHandle]
  set s₀ : St σ := { s with handle := { callocHandle with file := some ⟨content, content⟩ } }
    with hs₀
  refine wp_mono (@wp_serialNumber_emulation σ env s₀ rfl _) ?_ fun _ _ => trivial
  rintro ⟨status, number⟩ s₁ hafter
  cases hserial : storedSerial s₀.handle with
  | none =>
    rw [hserial] at hafter
    have hbad : status ≠ .ok := hafter.1
    simp only [hbad, ne_eq, not_false_eq_true, if_true, wp_bind, wp_logMessage, wp_pure]
    exact Bool.noConfusion
  | some serial =>
    rw [hserial] at hafter
    obtain ⟨hok, hholds, hkept⟩ := hafter
    have hlen : serial.length ≤ 32 := (Nat.le_of_eq (storedSerial_length hserial)).trans (by decide)
    simp only [show status = .ok from hok, ne_eq, not_true_eq_false, if_false, wp_bind, wp_access,
      copyOut_of_holds hholds hlen, wp_modifyHandle]
    set s₂ : St σ := { s₁ with handle := { s₁.handle with sn := some serial } } with hs₂
    have hopened : Resembles (openedDevice (.emulation (some content))) False s₂.handle := by
      rw [hs₂]
      dsimp only
      rw [hkept.handle]
      exact ⟨rfl, rfl, hkept.content, hserial.symm, rfl, rfl, False.elim⟩
    have horigin := otpRead_keeps env atsha204OtpMemoryMapOriginKeySet number s₂ hopened
    refine wp_mono horigin ?_ fun _ _ => trivial
    rintro ⟨status', number'⟩ s₃ h
    by_cases hstatus : status' = .ok
    · obtain ⟨keyOrigin, hkeyOrigin⟩ := uint32From4Bytes_isSome number'.data
      simp only [hstatus, not_true_eq_false, if_false, wp_bind, wp_access, hkeyOrigin,
        wp_modifyHandle, wp_pure]
      have hcached : (openedDevice (.emulation (some content))).sn = some serial := hserial
      exact fun _ => ⟨⟨h.layer, h.server, h.content, h.sn, h.key, h.slotId, h.nonce⟩, hcached ▸ rfl⟩
    · simp only [hstatus, not_false_eq_true, if_true, wp_bind, wp_logMessage, wp_pure]
      exact Bool.noConfusion

/-- A handle of a server that is opened is that of its slot, serial number and key.
SOURCE: api.c:259-291 -/
theorem wp_openServerEmulation (slotId : UInt8) (serialNumber key : Option Block) (s : St σ) :
    wp (atshaOpenServerEmulation slotId serialNumber key)
      (fun opened s' => opened = true → OpenedTo (.server slotId serialNumber key) s'.handle)
      (fun _ => True) s := by
  unfold atshaOpenServerEmulation
  cases serialNumber with
  | none => exact Bool.noConfusion
  | some serialNumber =>
    cases key with
    | none => exact Bool.noConfusion
    | some key =>
      simp only [wp_bind, wp_access]
      have hours : useOurSn = true := rfl
      rw [if_pos hours]
      cases hsn : copyOut serialNumber (2 * atsha204OtpByteLen) with
      | none => trivial
      | some sn =>
        cases hkey : copyOut key atsha204SlotByteLen with
        | none => trivial
        | some cells =>
          have hcached : (openedDevice (.server slotId (some serialNumber) (some key))).sn =
              some sn := hsn
          exact fun _ =>
            ⟨⟨rfl, rfl, rfl, hsn.symm, hkey.symm, rfl, False.elim⟩, hcached ▸ rfl⟩

/-- A handle that is opened is what it was opened to be. -/
theorem openedTo_of_opened {opening : Opening} {s : St σ} (h : Opened opening s) :
    OpenedTo opening s.handle := by
  obtain ⟨env, before, hrun⟩ := h
  cases opening with
  | emulation file =>
    cases file with
    | none =>
      have hopen : wp (Opening.run env (.emulation none)) (fun opened _ => opened = false)
          (fun _ => True) before := rfl
      cases hopen.of_run hrun
    | some content => exact (wp_openEmulation content before).of_run hrun rfl
  | server slotId serialNumber key =>
    exact (wp_openServerEmulation slotId serialNumber key before).of_run hrun rfl

/-- It resembles the device that it was opened for. -/
theorem opened_resembles {opening : Opening} {s : St σ} (h : Opened opening s) :
    Resembles (openedDevice opening) False s.handle := (openedTo_of_opened h).1

/-- What is cached when a handle is opened has eight bytes.
SOURCE: api.c:228-244, api.c:268-279 -/
theorem openedDevice_sn {opening : Opening} {s : St σ} (h : Opened opening s) :
    ∃ sn, (openedDevice opening).sn = some sn ∧ sn.length = 8 := by
  obtain ⟨sn, hsn⟩ := Option.isSome_iff_exists.mp (openedTo_of_opened h).2
  refine ⟨sn, hsn, ?_⟩
  cases opening with
  | emulation file =>
    cases file with
    | none => cases hsn
    | some content => exact storedSerial_length hsn
  | server slotId serialNumber key =>
    obtain ⟨given, -, hcopy⟩ := Option.bind_eq_some_iff.mp hsn
    exact copyOut_length hcopy

/-- So does every handle that is reached from it by calls. -/
theorem reached_resembles {opening : Opening} {charSigned : Bool} {s₀ s : St σ}
    (hopened : Opened opening s₀) (h : Reached charSigned s₀ s) :
    Resembles (openedDevice opening) False s.handle := by
  induction h with
  | start => exact opened_resembles hopened
  | call _ env call ih => exact (wp_lastState_iff _ _ _).mp (publicCall_keeps charSigned call _ ih)

/-! ## No memory -/

/-- Whatever calls were made on an emulated device since it was opened, in whatever
surroundings and with whatever outcome, the next one gives the status and the output that it
gives on a handle opened anew with the same file or arguments.
SOURCE: communication.c:41-121, emulation.c:41-485, api.c:316-955 -/
theorem emulation_has_no_memory (env env' : Env σ) (hssl : env.openssl = env'.openssl)
    (charSigned : Bool) (opening : Opening) (s₀ s t : St σ) (hopened : Opened opening s₀)
    (hreached : Reached charSigned s₀ s) (hfresh : Opened opening t) (call : PublicCall)
    (hcall : call.OnDevice t.handle) (result : AtshaErr × Output) :
    (∃ s', (call.run env charSigned).run s = .ok result s') ↔
      ∃ t', (call.run env' charSigned).run t = .ok result t' := by
  have hs := reached_resembles hopened hreached
  have ht := opened_resembles hfresh
  have hdevice : call.OnDevice (openedDevice opening) := by
    cases call with
    | findSlotNumber dns => exact ht.server.symm.trans hcall
    | automatic op dns => exact ht.server.symm.trans hcall
    | chipSerialNumber number => exact ht.server.symm.trans hcall
    | plain call number => trivial
    | devRev revision => trivial
    | serialNumber number => trivial
    | changeAddress address => trivial
  have hsame := publicCall_simulates hssl charSigned call fun _ => hdevice
  have hreturns := @Simulates.returns_iff _ _ _ _ _ _ _ _ _ hsame s t ⟨hs, ht⟩
    (fun r _ => r = result) (fun r _ => r = result) (by
      rintro r s' _ t' - rfl -
      exact Iff.rfl)
  constructor
  · rintro ⟨s', hrun⟩
    obtain ⟨r, t', hrun', rfl⟩ := hreturns.mp ⟨result, s', hrun, rfl⟩
    exact ⟨t', hrun'⟩
  · rintro ⟨t', hrun⟩
    obtain ⟨r, s', hrun', rfl⟩ := hreturns.mpr ⟨result, t', hrun, rfl⟩
    exact ⟨s', hrun'⟩

/-- A server for slot three, with zeros for its serial number and its key. -/
def zeroServer : Opening := .server 3 (some (List.replicate 8 0)) (some (List.replicate 32 0))

/-- The state behind the opening of that server. -/
def zeroServerState : St (List (Option Frame)) :=
  ⟨{ callocHandle with
      isSrvEmulation := true
      slotId := 3
      sn := some (List.replicate 8 0)
      key := some (List.replicate 32 0) }, [], []⟩

/-- Behind another call the server still gives its slot. -/
theorem emulation_has_no_memory_server : ∃ s',
    (PublicCall.run replayEnv true (.findSlotNumber .noData)).run
      (lastState ((PublicCall.run replayEnv true (.devRev 0)).run zeroServerState)) =
        .ok (.ok, .slot 3) s' := by
  have hopened : Opened zeroServer zeroServerState := ⟨replayEnv, replayState [], rfl⟩
  exact (emulation_has_no_memory replayEnv replayEnv rfl true zeroServer zeroServerState _
    zeroServerState hopened (.call .start replayEnv (.devRev 0)) hopened (.findSlotNumber .noData)
    rfl (.ok, .slot 3)).mpr ⟨_, rfl⟩

end Atsha204.Analysis
