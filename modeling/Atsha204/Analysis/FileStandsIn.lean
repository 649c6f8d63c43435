import Atsha204.Analysis.DeviceLink
import Atsha204.Analysis.HexText
import Atsha204.Analysis.ProvisioningFile
import Atsha204.Analysis.ServerEmulation
import Atsha204.Analysis.SlotAnnouncement

/-!
# A file stands in for a device

The emulated device answers a request with what its file has for it (`wp_request_file`), which
for a copy of a chip is what the chip has. So a user who relies on the device cannot tell the two
from each other (`file_stands_in`).
-/

set_option autoImplicit false

namespace Atsha204.Analysis

open Atsha204.Library
open Atsha204.Model
open Atsha204.Interface

variable {σ τ : Type} {env : Env σ}

/-! ## What a file answers -/

/-- The handle stands for an emulated device over a file, with the serial number of the file
cached. -/
structure OfFile (content : List UInt8) (handle : AtshaHandle) : Prop extends
    OverFile content handle where
  cached : handle.sn = storedSerial handle

/-- A request has come to what the file answers, and nothing was sent on the bus. -/
structure AfterRequest (content : List UInt8) (answer : Option Block) (s : St σ)
    (r : AtshaErr × AtshaBigInt) (s' : St σ) : Prop where
  ofFile : OfFile content s'.handle
  bus : s'.bus = s.bus
  reply : match answer with
    | some bytes => r.1 = .ok ∧ Holds r.2 bytes
    | none => r.1 ≠ .ok

section File

variable {content : List UInt8}

/-- What keeps the handle keeps it over its file, whatever its nonce is. -/
theorem OfFile.kept {s s' : St σ} {expected : Bool} (h : OfFile content s.handle)
    (nonce : List.Vector UInt8 atsha204SlotByteLen)
    (hkept : Kept (flagged expected (nonced nonce s)) s') :
    OfFile content s'.handle := by
  have hover : OverFile content (nonced nonce s).handle := ⟨h.layer, h.device, h.file⟩
  have hserial : storedSerial s'.handle = storedSerial s.handle := by
    simp only [storedSerial, hkept.storedOtp]
    rfl
  refine ⟨hover.kept hkept, ?_⟩
  rw [hserial, hkept.handle]
  exact h.cached

/-- The first two OTP words of a file are its serial number. -/
theorem fileSerial_of_words {revision serial : Block}
    (hrevision : lineBytes content 16 4 = some revision)
    (hserial : lineBytes content 17 4 = some serial) :
    fileSerial content = some (revision ++ serial) := by
  rw [fileSerial, hrevision, hserial]
  rfl

/-- A handle over the file stores its serial number. -/
theorem storedSerial_file {handle : AtshaHandle} (h : OverFile content handle) :
    storedSerial handle = fileSerial content := by
  have hfirst : storedOtp handle 0 = lineBytes content 16 4 := stored_otp h 0
  have hsecond : storedOtp handle 1 = lineBytes content 17 4 := stored_otp h 1
  rw [storedSerial, hfirst, hsecond]
  rfl

variable {s : St σ}

/-- A read of the emulated device comes to what the file says. -/
theorem wp_read_file (env : Env σ) (hs : OfFile content s.handle) (read : StorageRead)
    (number : AtshaBigInt) :
    wp (read.run env number) (AfterRequest content (read.stored s.handle) s)
      (fun _ => read.stored s.handle = none) s := by
  refine wp_mono (wp_storageRead hs.layer read number) ?_ fun _ h => h
  intro r s' hafter
  cases hstored : read.stored s.handle with
  | none =>
    rw [hstored] at hafter
    exact ⟨hs.kept s.handle.nonce hafter.2, hafter.2.bus, hafter.1⟩
  | some bytes =>
    rw [hstored] at hafter
    exact ⟨hs.kept s.handle.nonce hafter.2.2, hafter.2.2.bus, hafter.1, hafter.2.1⟩

/-- A challenge comes to the digest under the key of the file.
SOURCE: emulation.c:52-262 -/
theorem wp_respond_file (env : Env σ) (hs : OfFile content s.handle) (slotNumber : Fin 16)
    (request : ChallengeRequest) (number : AtshaBigInt) :
    wp (request.run env (UInt8.ofNat slotNumber) number)
      (AfterRequest content ((Request.respond slotNumber request).fileAnswer env.openssl content) s)
      (fun _ => (Request.respond slotNumber request).fileAnswer env.openssl content = none) s := by
  have hstored : storedSlot s.handle slotNumber = lineBytes content slotNumber 32 :=
    stored_slot hs.toOverFile slotNumber
  have hrun := @wp_challenge_emulation σ env s hs.layer _ (slot_le slotNumber) request number
  rw [slot_toNat, hstored, hs.cached, storedSerial_file hs.toOverFile] at hrun
  simp only [Request.fileAnswer, Option.bind_eq_bind]
  refine wp_mono hrun ?_ ?_
  · rintro r s' ⟨nonce, hafter⟩
    cases hkey : lineBytes content slotNumber 32 with
    | none =>
      rw [hkey] at hafter
      exact ⟨hs.kept _ hafter.2, hafter.2.bus, hafter.1⟩
    | some key =>
      cases hserial : serialPart request.useSnInDigest (fileSerial content) with
      | none =>
        rw [hkey, hserial] at hafter
        exact hafter.elim
      | some serial =>
        rw [hkey, hserial] at hafter
        exact ⟨hs.kept _ hafter.1, hafter.1.bus, hafter.2⟩
  · rintro _ (hkey | hserial)
    · rw [hkey]
      rfl
    · rw [hserial]
      cases lineBytes content slotNumber 32 <;> rfl

/-- The emulated device answers a request with what the file has for it, and fails where it has
nothing.
SOURCE: emulation.c:52-451 -/
theorem wp_request_file (env : Env σ) (hs : OfFile content s.handle) (request : Request)
    (number : AtshaBigInt) :
    wp (request.run env number) (AfterRequest content (request.fileAnswer env.openssl content) s)
      (fun _ => request.fileAnswer env.openssl content = none) s := by
  cases request with
  | otp address =>
    have hread := wp_read_file env hs (.otp address) number
    rwa [stored_otp hs.toOverFile] at hread
  | serialNumber =>
    have hread := wp_read_file env hs .serialNumber number
    rwa [show StorageRead.serialNumber.stored s.handle = fileSerial content from
      storedSerial_file hs.toOverFile] at hread
  | chipSerialNumber =>
    have hread := wp_read_file env hs .chipSerialNumber number
    have hstored : StorageRead.chipSerialNumber.stored s.handle = lineBytes content 32 9 := by
      simp only [StorageRead.stored, storedSn, hs.device, Bool.false_eq_true, if_false,
        hs.storedLine]
      rfl
    rwa [hstored] at hread
  | respond slotNumber request => exact wp_respond_file env hs slotNumber request number

end File

/-! ## Opening -/

/-- The first three OTP words of the file can be read. -/
def Opens (content : List UInt8) : Prop :=
  (fileSerial content).isSome ∧ (lineBytes content 18 4).isSome

/-- A line gives as many bytes as were asked for. -/
theorem lineBytes_length {content : List UInt8} {k n : ℕ} {bytes : Block}
    (h : lineBytes content k n = some bytes) : bytes.length = n := by
  obtain ⟨chunk, -, hread⟩ := Option.bind_eq_some_iff.mp h
  exact readPairs_length hread

/-- The origin of the key set is cached, as the file has it. -/
structure OriginCached (content : List UInt8) (handle : AtshaHandle) : Prop where
  cached : handle.keyOriginCached = true
  origin : (lineBytes content 18 4).bind uint32From4Bytes = some handle.keyOrigin

/-- A file is opened exactly when its first three OTP words can be read.
SOURCE: api.c:208-257 -/
theorem wp_openEmulation_file (env : Env σ) (content : List UInt8) (s : St σ) :
    wp (atshaOpenEmulation env (some content))
      (fun opened s' => (opened = true ↔ Opens content) ∧ s'.bus = s.bus ∧
        (opened = true → OfFile content s'.handle ∧ OriginCached content s'.handle))
      (fun _ => ¬ Opens content) s := by
  simp only [atshaOpenEmulation, wp_bind, wp_modifyHandle]
  set s₀ : St σ := { s with handle := { callocHandle with file := some ⟨content, content⟩ } }
  have hover : OverFile content s₀.handle := ⟨rfl, rfl, rfl⟩
  have hread := @wp_serialNumber_emulation σ env s₀ hover.layer
    (env.uninitBigInt .openEmulationNumber)
  rw [storedSerial_file hover] at hread
  cases hserial : fileSerial content with
  | none =>
    have hno : ¬ Opens content := fun h => by simp [Opens, hserial] at h
    rw [hserial] at hread
    refine wp_mono hread ?_ fun _ _ => hno
    rintro ⟨status, number⟩ s₁ ⟨hbad, hkept⟩
    have hbad : status ≠ .ok := hbad
    simp only [hbad, ne_eq, not_false_eq_true, if_true, wp_bind, wp_logMessage, wp_pure]
    exact ⟨by simp [hno], hkept.bus, Bool.noConfusion⟩
  | some serial =>
    have hlen : serial.length ≤ 32 :=
      (storedSerial_length ((storedSerial_file hover).trans hserial)).le.trans (by decide)
    refine wp_mono (wp_read_some hread hserial) ?_ fun _ hF => hF.elim
    rintro ⟨_, number⟩ s₁ ⟨rfl, hholds, hkept⟩
    simp only [ne_eq, not_true_eq_false, if_false, wp_bind, wp_access,
      copyOut_of_holds hholds hlen, wp_modifyHandle]
    set s₂ : St σ := { s₁ with handle := { s₁.handle with sn := some serial } }
    have hover₂ : OverFile content s₂.handle :=
      ⟨(hover.kept hkept).layer, (hover.kept hkept).device, (hover.kept hkept).file⟩
    have hread' := @wp_otpRead_emulation σ env s₂ hover₂.layer atsha204OtpMemoryMapOriginKeySet
      number
    rw [show storedOtp s₂.handle atsha204OtpMemoryMapOriginKeySet.toNat =
      lineBytes content 18 4 from stored_otp hover₂ 2] at hread'
    cases horigin : lineBytes content 18 4 with
    | none =>
      have hno : ¬ Opens content := fun h => by simp [Opens, horigin] at h
      rw [horigin] at hread'
      refine wp_mono hread' ?_ fun _ _ => hno
      rintro ⟨status, number'⟩ s₃ ⟨hbad, hkept'⟩
      have hbad : status ≠ .ok := hbad
      simp only [hbad, not_false_eq_true, if_true, wp_bind, wp_logMessage, wp_pure]
      exact ⟨by simp [hno], hkept'.bus.trans hkept.bus, Bool.noConfusion⟩
    | some origin =>
      have hyes : Opens content := by simp [Opens, hserial, horigin]
      refine wp_mono (wp_read_some hread' horigin) ?_ fun _ hF => hF.elim
      rintro ⟨_, number'⟩ s₃ ⟨rfl, hholds', hkept'⟩
      obtain ⟨keyOrigin, hkeyOrigin⟩ := uint32From4Bytes_isSome number'.data
      have hstored : (lineBytes content 18 4).bind uint32From4Bytes = some keyOrigin := by
        have hfour : origin.length = 4 := lineBytes_length horigin
        rw [horigin, Option.bind_some, ← hkeyOrigin, uint32From4Bytes_take number'.data.val,
          ← hfour, hholds'.take_eq]
      simp only [not_true_eq_false, if_false, wp_bind, wp_access, hkeyOrigin, wp_modifyHandle,
        wp_pure]
      have hover₃ := hover₂.kept hkept'
      have hsn : s₃.handle.sn = some serial := by
        rw [hkept'.handle]
        rfl
      refine ⟨by simp [hyes], hkept'.bus.trans hkept.bus, fun _ =>
        ⟨⟨⟨hover₃.layer, hover₃.device, hover₃.file⟩, ?_⟩, rfl, hstored⟩⟩
      exact hsn.trans ((storedSerial_file
        ⟨hover₃.layer, hover₃.device, hover₃.file⟩).trans hserial).symm

/-- A file that can be opened gives a handle on it. -/
theorem openEmulation_ofFile (env : Env σ) {content : List UInt8} (h : Opens content) (s : St σ) :
    ∃ s₁, (atshaOpenEmulation env (some content)).run s = .ok true s₁ ∧
      OfFile content s₁.handle ∧ OriginCached content s₁.handle ∧ s₁.bus = s.bus := by
  obtain ⟨opened, s₁, hrun, hiff, hbus, hfile⟩ := (wp_returns_iff _ _ _).mp
    (wp_mono (wp_openEmulation_file env content s) (fun _ _ h => h) fun _ hno => hno h)
  obtain rfl := hiff.mpr h
  exact ⟨s₁, hrun, (hfile rfl).1, (hfile rfl).2, hbus⟩

/-- A copy of a chip can be opened. -/
theorem opens_copied {content : List UInt8} {chip : Chip} (h : CopiedIn content chip) :
    Opens content := by
  have horigin : lineBytes content 18 4 = some (chip.otpWord 2) := h.words 2
  simp [Opens, fileSerial_of_words (h.words 0) (h.words 1), horigin]

/-- What a copy of a chip answers is what the chip answers. -/
theorem fileAnswer_copied {openssl : OpenSsl} {content : List UInt8} {chip : Chip}
    (h : CopiedIn content chip) (request : Request) :
    request.fileAnswer openssl content = request.answer openssl chip := by
  have hserial : fileSerial content = some chip.serial :=
    (fileSerial_of_words (h.words 0) (h.words 1)).trans (congrArg some (otpWord_serial chip))
  cases request with
  | otp address => exact h.words address
  | serialNumber => exact hserial
  | chipSerialNumber => exact h.serial
  | respond slotNumber request =>
    simp only [Request.fileAnswer, Request.answer, Chip.digest, h.keys, hserial, slot_le, if_true,
      slot_toNat]
    rfl

/-! ## A copy of a chip -/

/-- A value that is written with spaces fits a line. -/
theorem written_fits {n : ℕ} (hn : n ≤ 42) {value : Block} (h : value.length = n) :
    (renderPairs (TextForm.items ⟨.space, fun _ => .upper⟩ value) ++ [0x0A]).length ≤ 127 := by
  have hlen := text_length_le ⟨.space, fun _ => .upper⟩ value
  rw [TextForm.text] at hlen
  rw [List.length_append, List.length_singleton]
  omega

/-- A line with these bytes, in upper case and with spaces between them. -/
def writtenLine {n : ℕ} (hn : n ≤ 42) (value : Block) (h : value.length = n) : LayoutLine n where
  items := TextForm.items ⟨.space, fun _ => .upper⟩ value
  length_eq := (items_length _ _).trans h
  delims := items_delims _ _
  digits := items_digits _ _
  fits := written_fits hn h

/-- What is written is read again. -/
@[simp] theorem writtenLine_bytes {n : ℕ} (hn : n ≤ 42) (value : Block) (h : value.length = n) :
    (writtenLine hn value h).bytes = value := items_values _ _

/-- A file with what a chip holds. -/
def chipCopy (chip : Chip) : ConfigLayout where
  keys slot := writtenLine (by decide) (chip.key slot) (key_length chip slot)
  otp address := writtenLine (by decide) (chip.otpWord address) (otpWord_length chip _ address.isLt)
  sn := writtenLine (by decide) chip.ownSerial (ownSerial_length chip)

/-- Every chip can be copied into a file. -/
theorem copiedIn_chipCopy (chip : Chip) : CopiedIn (chipCopy chip).text chip where
  keys slot := by rw [lineBytes_keys, chipCopy, writtenLine_bytes]
  words address := by rw [lineBytes_otp, chipCopy, writtenLine_bytes]
  serial := by rw [lineBytes_sn, chipCopy, writtenLine_bytes]

/-! ## Both sides -/

/-- With digests that never fail the chip has an answer to every request. -/
theorem answer_total (hmac : List UInt8 → List UInt8 → List.Vector UInt8 32)
    (sha256 : List UInt8 → List.Vector UInt8 32) (chip : Chip) (request : Request) :
    ∃ bytes, request.answer (totalDigests hmac sha256) chip = some bytes := by
  cases request with
  | otp address => exact ⟨_, rfl⟩
  | serialNumber => exact ⟨_, rfl⟩
  | chipSerialNumber => exact ⟨_, rfl⟩
  | respond slotNumber request =>
    obtain ⟨serial, hserial⟩ : ∃ serial, serialPart request.useSnInDigest (some chip.serial) =
        some serial := by
      cases request.useSnInDigest with
      | false => exact ⟨_, rfl⟩
      | true => exact ⟨_, copyOut_of_le (serial_length chip).ge⟩
    obtain ⟨bytes, hdigest⟩ := digest_total hmac sha256 (UInt8.ofNat slotNumber) request
      (chip.key (UInt8.ofNat slotNumber).toNat) serial
    refine ⟨bytes, Option.bind_eq_some_iff.mpr ⟨serial, hserial, ?_⟩⟩
    rw [if_pos (slot_le slotNumber)]
    exact hdigest

section SameAnswers

variable {env' : Env τ} {hmac : List UInt8 → List UInt8 → List.Vector UInt8 32}
  {sha256 : List UInt8 → List.Vector UInt8 32} (henv' : env'.openssl = totalDigests hmac sha256)
  {device : σ → Device} (hreliable : Reliable (totalDigests hmac sha256) env.bus device)
  {content : List UInt8} {chip : Chip}
include henv' hreliable

/-- One request after the other is answered alike, as long as the alarm leaves time for it. -/
theorem sameAnswers_of_copied (hchip : chip.Provisioned) (hcopied : CopiedIn content chip)
    (requests : List (Request × AtshaBigInt × AtshaBigInt)) {waited : ℕ} {s : St σ} {t : St τ}
    (htime : 2 * (waited + Request.allWaits requests) < waitsUntilAlarm)
    (hs : Relying device chip waited s) (ht : OfFile content t.handle) :
    SameAnswers (totalDigests hmac sha256) chip env env' requests s t := by
  induction requests generalizing s t waited with
  | nil => trivial
  | cons head requests ih =>
    obtain ⟨request, number, number'⟩ := head
    rw [Request.allWaits] at htime
    obtain ⟨bytes, hbytes⟩ := answer_total hmac sha256 chip request
    obtain ⟨r, s', hrun, hholds, hs'⟩ := request_reliable hreliable hs hchip hbytes number
    have hfile := wp_request_file env' ht request number'
    rw [henv', fileAnswer_copied hcopied, hbytes] at hfile
    simp only [reduceCtorEq] at hfile
    obtain ⟨⟨_, r'⟩, t', hrun', ht', -, rfl, hholds'⟩ := (wp_returns_iff _ _ _).mp hfile
    have hintime : InTime 0 s' := by
      rw [InTime, hs'.waits]
      omega
    exact ⟨bytes, r, s', r', t', hbytes, hrun, hholds, hintime, hrun', hholds',
      ih (by omega) hs' ht'⟩

end SameAnswers

/-- Once a chip has been copied into a file, the file stands in for it: it can be opened, and
whatever reads of the OTP words and the serial numbers and whatever challenges follow, in whatever
order, the emulated device and the device behind the bus give the same answers, as long as the
requests leave the native handle the time until its alarm.
SOURCE: mainpage.dox:21-40, emulation.c:52-451, api.c:125-129, api.c:208-257, api.c:492-678 -/
theorem file_stands_in (env : Env σ) (env' : Env τ)
    (hmac : List UInt8 → List UInt8 → List.Vector UInt8 32)
    (sha256 : List UInt8 → List.Vector UInt8 32) (device : σ → Device) (content : List UInt8)
    (chip : Chip) (waited : ℕ) (s : St σ) (t : St τ)
    (henv' : env'.openssl = totalDigests hmac sha256)
    (hreliable : Reliable (totalDigests hmac sha256) env.bus device) (hchip : chip.Provisioned)
    (hcopied : CopiedIn content chip) (hs : Relying device chip waited s) :
    ∃ t₁, (atshaOpenEmulation env' (some content)).run t = .ok true t₁ ∧
      ∀ requests : List (Request × AtshaBigInt × AtshaBigInt),
        2 * (waited + Request.allWaits requests) < waitsUntilAlarm →
        SameAnswers (totalDigests hmac sha256) chip env env' requests s t₁ := by
  obtain ⟨t₁, hopen, ht₁, -, -⟩ := openEmulation_ofFile env' (opens_copied hcopied) t
  exact ⟨t₁, hopen, fun requests htime =>
    sameAnswers_of_copied henv' hreliable hchip hcopied requests htime hs ht₁⟩

/-! ## A chip, and its copy -/

/-- Surroundings with a link to a device. -/
def deviceEnv (openssl : OpenSsl) (script : ℕ → LinkStep) (noise : ℕ → Block) : Env DeviceLink :=
  ⟨deviceBus openssl script noise, openssl, replayEnv.uninit⟩

/-- A new handle on a link to a device with this chip, which sleeps. -/
def deviceState (chip : Chip) : St DeviceLink := ⟨openNi2cDev, ⟨⟨chip, none, 0⟩, none, 0⟩, []⟩

/-- On a new handle nobody waits for the chip. -/
theorem resting_deviceState (chip : Chip) :
    Resting DeviceLink.device chip (deviceState chip) := ⟨rfl, rfl, rfl⟩

/-- The chip sleeps, and nothing of the time is taken up. -/
theorem relying_deviceState (chip : Chip) :
    Relying DeviceLink.device chip 0 (deviceState chip) := ⟨resting_deviceState chip, rfl, rfl⟩

/-- A call without a fault is a good one. -/
theorem goodStep_good : goodStep.Good := ⟨rfl, rfl, _, rfl⟩

/-- A digest that depends on every byte of its text. -/
def mixed (text : Block) : List.Vector UInt8 32 :=
  List.Vector.ofFn fun i => text.foldl (fun sum b => 31 * sum + b) (UInt8.ofNat i)

def mixedDigests : OpenSsl := totalDigests (fun key message => mixed (key ++ message)) mixed

/-- A chip as `init` leaves it: the maker's serial number and revision, the settings, and no byte
of the OTP zone and no key twice. -/
def lockedChip : Chip where
  config := ⟨[0x01, 0x23, 0x4D, 0x57, 0x00, 0x09, 0x04, 0x00, 0x5C, 0x1E, 0x7A, 0x33, 0xEE, 0x00,
    0x01, 0x00, 0xC8, 0x00, 0xAA, 0x00] ++ List.replicate 32 0x80 ++ List.replicate 32 0xFF ++
    [0x00, 0x00, 0x00, 0x00], rfl⟩
  data := List.Vector.ofFn fun i => UInt8.ofNat (7 * i + i / 32)
  otp := List.Vector.ofFn fun i => UInt8.ofNat (3 * i + 5)
  configLocked := true
  dataLocked := true

/-- It has the settings that `init` makes. -/
theorem lockedChip_provisioned : lockedChip.Provisioned :=
  provisioned_of_intended lockedChip (by decide +kernel) rfl rfl

/-- A number of zeros. -/
def zeroNumber : AtshaBigInt := ⟨0, List.Vector.replicate _ 0⟩

/-- Surroundings with a link without faults to a device. -/
def goodEnv : Env DeviceLink := deviceEnv mixedDigests (fun _ => goodStep) fun _ => []

/-- Its link can be relied on. -/
theorem goodEnv_reliable : Reliable mixedDigests goodEnv.bus DeviceLink.device :=
  deviceBus_reliable (fun _ => goodStep_good) mixedDigests fun _ => []

/-- Over a link without faults, to a chip and to its copy: in one handle, as many requests as there
is time for. -/
theorem file_stands_in_locked :
    ∃ t₁, (atshaOpenEmulation goodEnv (some (chipCopy lockedChip).text)).run
        (deviceState lockedChip) = .ok true t₁ ∧
      ∀ requests : List (Request × AtshaBigInt × AtshaBigInt),
        2 * (0 + Request.allWaits requests) < waitsUntilAlarm →
        SameAnswers mixedDigests lockedChip goodEnv goodEnv requests (deviceState lockedChip) t₁ :=
  file_stands_in goodEnv goodEnv _ _ DeviceLink.device (chipCopy lockedChip).text lockedChip 0
    (deviceState lockedChip) (deviceState lockedChip) rfl goodEnv_reliable lockedChip_provisioned
    (copiedIn_chipCopy lockedChip) (relying_deviceState lockedChip)

end Atsha204.Analysis
