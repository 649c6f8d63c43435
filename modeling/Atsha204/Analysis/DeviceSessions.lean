import Atsha204.Analysis.ChipSessions
import Atsha204.Analysis.Waits
import Atsha204.Interface.Device

/-!
# Sessions with a device that can be relied on

What a device answers to an inquiry is read off its chip (`reaction_otpWord` and its siblings). Over
a link that can be relied on an inquiry is answered at once and costs one wait, so a session costs
one wait for its wake and one for each inquiry (`exchange_reliable`, `session_reliable`). The device
goes asleep behind it and its chip stays as it is, and so requests can be made one after the other
(`request_reliable`).
-/

set_option autoImplicit false

namespace Atsha204.Analysis

open Atsha204.Library
open Atsha204.Model
open Atsha204.Interface

variable {σ α : Type}

/-! ## What the chip holds -/

/-- An OTP word has four bytes. -/
theorem otpWord_length (chip : Chip) (address : ℕ) (h : address < 16) :
    (chip.otpWord address).length = 4 := by
  have hotp : chip.otp.val.length = 64 := chip.otp.property
  rw [Chip.otpWord, List.length_take, List.length_drop]
  omega

/-- The serial number has eight bytes. -/
theorem serial_length (chip : Chip) : chip.serial.length = 8 := by
  have hotp : chip.otp.val.length = 64 := chip.otp.property
  rw [Chip.serial, List.length_take]
  omega

/-- It is the first two OTP words. -/
theorem otpWord_serial (chip : Chip) : chip.otpWord 0 ++ chip.otpWord 1 = chip.serial := by
  have htake := List.take_add (l := chip.otp.val) (i := 4) (j := 4)
  exact htake.symm

/-- A key has 32 bytes. -/
theorem key_length (chip : Chip) (slot : Fin 16) : (chip.key slot).length = 32 := by
  have hdata : chip.data.val.length = 512 := chip.data.property
  have hslot := slot.isLt
  rw [Chip.key, List.length_take, List.length_drop]
  omega

/-- Some of the data in an answer. -/
theorem answerPacket_cells {data : Block} {n k : ℕ} (h : n + k ≤ data.length) :
    ((answerPacket data).drop (n + 1)).take k = (data.drop n).take k := by
  have hbehind : (answerPacket data).drop (n + 1) = data.drop n ++
      [(checksum (answerBody data)).1, (checksum (answerBody data)).2] := by
    change (data ++ [(checksum (answerBody data)).1, (checksum (answerBody data)).2]).drop n = _
    exact List.drop_append_of_le_length (by omega)
  rw [hbehind, List.take_append_of_le_length (by rw [List.length_drop]; omega)]

/-- The first block of the configuration zone has 32 bytes. -/
theorem configBlock_length (chip : Chip) : (chip.config.val.take 32).length = 32 := by
  have hlength := length_config chip
  rw [List.length_take]
  omega

/-- The serial number of the chip has nine bytes. -/
theorem ownSerial_length (chip : Chip) : chip.ownSerial.length = 9 := by
  have hlength := length_config chip
  rw [Chip.ownSerial, List.length_append, List.length_take, List.length_take, List.length_drop]
  omega

/-- The serial number of the chip, in the answer with the first configuration words. -/
theorem ownSerial_of_answer (chip : Chip) :
    ((answerPacket (chip.config.val.take 32)).drop 1).take 4 ++
      ((answerPacket (chip.config.val.take 32)).drop 9).take 5 = chip.ownSerial := by
  have hcells := fun n k (h : n + k ≤ 32) =>
    answerPacket_cells ((configBlock_length chip).symm ▸ h : n + k ≤ (chip.config.val.take 32).length)
  rw [hcells 0 4 (by decide), hcells 8 5 (by decide), List.drop_zero, List.take_take,
    List.drop_take, List.take_take]
  rfl

/-- A number taken out of the answer to a request for data holds the data. -/
theorem holds_length_le {number : AtshaBigInt} {bytes : Block} (h : Holds number bytes) :
    bytes.length ≤ 32 := by
  have hlen := congrArg List.length h.take_eq
  rw [List.length_take, show number.data.val.length = 32 from number.data.property] at hlen
  omega

/-- What is taken of an answer are its data. -/
theorem holds_taken {data : Block} (h : data.length ≤ 32) (n : ℕ) (number : AtshaBigInt) :
    Holds (taken (some n) number (answerPacket data)) data := by
  rw [taken, payload_answerPacket]
  exact holds_filled number.data h

/-- What is there is accessed. -/
theorem run_access_some {α : Type} {o : Option α} {a : α} (h : o = some a) (s : St σ) :
    (access o : Prog σ α).run s = .ok a s := by
  rw [h]
  rfl

/-- A digest of the chip has 32 bytes. -/
theorem chip_digest_length {openssl : OpenSsl} {chip : Chip} {slotNumber : UInt8}
    {request : ChallengeRequest} {digest : Block}
    (h : chip.digest openssl slotNumber request = some digest) : digest.length = 32 := by
  obtain ⟨serial, -, h⟩ := Option.bind_eq_some_iff.mp h
  split at h
  · exact digest_length h
  · cases h

/-! ## What the device makes of an inquiry -/

/-- The number of a slot fits a byte. -/
theorem slot_toNat (slot : Fin 16) : (UInt8.ofNat slot).toNat = slot :=
  ofNat_toNat_of_lt (by omega)

/-- It is no larger than the largest one. -/
theorem slot_le (slot : Fin 16) : UInt8.ofNat slot ≤ atsha204MaxSlotNumber := by
  rw [UInt8.le_iff_toNat_le, slot_toNat]
  exact Nat.le_of_lt_succ slot.isLt

/-- Every inquiry begins with its length. -/
theorem framed_inquiry (inquiry : Inquiry) : Framed inquiry.packet := by
  have hchallenge : ∀ challenge : List.Vector UInt8 32, challenge.val.length = 32 :=
    fun challenge => challenge.property
  cases inquiry with
  | nonce challenge => exact framed_commandPacket _ _ _ (by rw [hchallenge]; decide)
  | mac slotNumber challenge useSn =>
    exact framed_commandPacket _ _ _ (by rw [hchallenge]; decide)
  | _ => exact framed_commandPacket _ _ _ (by decide)

/-- A slot read is an inquiry. -/
theorem slotRead_packet (slot : Fin 16) :
    (PlainCall.slotRead (UInt8.ofNat slot)).packet = some (Inquiry.slot slot).packet := by
  rw [PlainCall.packet, getSlotAddress_eq (slot_le slot)]
  exact opRawRead_eq _ _

/-- Under the settings of `init`, every slot works out digests. -/
theorem Provisioned.computes {chip : Chip} (h : chip.Provisioned) (slot : Fin 16) :
    chip.Computes slot := ⟨h.locked, h.slots slot, h.maker⟩

/-- Each byte of the configuration zone is as `init` means it to be. -/
theorem configByte_intended {before chip : Chip}
    (hbytes : chip.config.val = before.config.val.mapIdx intendedByte) {i : ℕ} (h : i < 88) :
    chip.configByte i = intendedByte i (before.configByte i) := by
  have hin : i < before.config.val.length := h.trans_eq before.config.property.symm
  have hget : before.config.val[i]? = some before.config.val[i] := List.getElem?_eq_getElem hin
  simp only [Chip.configByte, hbytes, List.getD_eq_getElem?_getD, List.getElem?_mapIdx, hget,
    Option.map_some, Option.getD_some]

/-- So is the setting of each slot. -/
theorem slotConfig_intended {before chip : Chip}
    (hbytes : chip.config.val = before.config.val.mapIdx intendedByte) (slot : Fin 16) :
    chip.slotConfig slot = slotConfigRead := by
  have hlt := slot.isLt
  rw [Chip.slotConfig, configByte_intended hbytes (by omega), intendedByte, if_neg (by omega),
    if_pos (by omega), if_pos (by omega)]

/-- What `init` makes of the configuration zone, and locks, are these settings.
SOURCE: init.c:72-103 -/
theorem provisioned_of_intended (before : Chip) {chip : Chip}
    (hbytes : chip.config.val = before.config.val.mapIdx intendedByte)
    (hmaker : before.makerBytes = atmelBytes) (hlocked : chip.dataLocked = true) :
    chip.Provisioned where
  locked := hlocked
  otpMode := configByte_intended hbytes (by decide)
  slots := fun slot => by
    rw [slotConfig_intended hbytes slot]
    rfl
  maker := by
    rw [← hmaker]
    simp only [Chip.makerBytes, configByte_intended hbytes (show 0 < 88 by decide),
      configByte_intended hbytes (show 1 < 88 by decide),
      configByte_intended hbytes (show 12 < 88 by decide)]
    rfl

section Reaction

variable {openssl : OpenSsl} {device : Device}

/-- A configuration word is always read. -/
theorem reaction_configWord {address : UInt8} (h : address.toNat < 22) :
    device.reaction openssl (.configWord address) =
      .answers (configWord device.chip.config.val address.toNat) := by
  rw [Device.reaction, if_pos (UInt8.lt_iff_toNat_lt.mpr h)]

/-- An address of an OTP word of a locked chip. -/
theorem otpWord_inside (hlocked : device.chip.dataLocked = true) {address : UInt8}
    (h : address.toNat < 16) : ¬ (address ≥ 16 ∨ device.chip.dataLocked = false) := by
  rintro (hbig | hopen)
  · exact absurd (UInt8.le_iff_toNat_le.mp hbig) (Nat.not_le.mpr h)
  · rw [hlocked] at hopen
    cases hopen

/-- An OTP word is read of a locked chip in the read-only mode. -/
theorem reaction_otpWord (hlocked : device.chip.dataLocked = true)
    (hmode : device.chip.otpMode = atsha204ConfigOtpmodeReadonly) {address : UInt8}
    (h : address.toNat < 16) :
    device.reaction openssl (.otpWord address) =
      .answers (device.chip.otpWord address.toNat) := by
  rw [Device.reaction, if_neg (otpWord_inside hlocked h), if_pos (.inl hmode)]

/-- In the legacy mode the first two words are not read. -/
theorem reaction_otpWord_legacy (hlocked : device.chip.dataLocked = true)
    (hmode : device.chip.otpMode = 0x00) {address : UInt8} (h : address.toNat < 16) :
    device.reaction openssl (.otpWord address) = if address ≥ 2 then
      .answers (device.chip.otpWord address.toNat) else .refuses := by
  have hother : ¬ (0 : UInt8) = atsha204ConfigOtpmodeReadonly := by decide
  rw [Device.reaction, if_neg (otpWord_inside hlocked h)]
  simp only [hmode, hother, true_and, false_or, if_true]

/-- None is read before the chip is locked. -/
theorem reaction_otpWord_unlocked (hopen : device.chip.dataLocked = false) {address : UInt8} :
    device.reaction openssl (.otpWord address) = .refuses := by
  rw [Device.reaction, if_pos (.inr hopen)]

/-- A slot of a locked chip that is not read encrypted is read unless it is secret. -/
theorem reaction_slot_plain (hlocked : device.chip.dataLocked = true) {slot : Fin 16}
    (hplain : device.chip.slotConfig slot &&& 0x40 = 0) :
    device.reaction openssl (.slot slot) = if device.chip.slotConfig slot &&& 0x80 = 0 then
      .answers (device.chip.key slot) else .refuses := by
  rw [Device.reaction, if_neg (by rw [hlocked]; decide), if_neg (not_not.mpr hplain), ite_not]

/-- None is read before the chip is locked. -/
theorem reaction_slot_unlocked (hopen : device.chip.dataLocked = false) {slot : Fin 16} :
    device.reaction openssl (.slot slot) = .refuses := by
  rw [Device.reaction, if_pos hopen]

/-- The two bits of a setting that keep a slot from being read as it is. -/
theorem clear_bits {config : UInt8} (h : config &&& 0xC0 = 0) :
    config &&& 0x40 = 0 ∧ config &&& 0x80 = 0 := by
  have hbits : ∀ mask : UInt8, 0xC0 &&& mask = mask → config &&& mask = 0 := by
    intro mask hmask
    rw [← hmask, ← UInt8.and_assoc, h, UInt8.zero_and]
  exact ⟨hbits 0x40 rfl, hbits 0x80 rfl⟩

/-- And a setting with neither of them has the slot read as it is. -/
theorem clear_of_bits {config : UInt8} (hplain : config &&& 0x40 = 0) (hopen : config &&& 0x80 = 0) :
    config &&& 0xC0 = 0 := by
  apply UInt8.toBitVec_inj.mp
  have hboth : (0xC0 : UInt8).toBitVec = (0x40 : UInt8).toBitVec ||| (0x80 : UInt8).toBitVec := rfl
  rw [UInt8.toBitVec_and, hboth, BitVec.and_or_distrib_left, ← UInt8.toBitVec_and,
    ← UInt8.toBitVec_and, hplain, hopen]
  rfl

/-- A slot is read of a locked chip where its setting says so. -/
theorem reaction_slot (hlocked : device.chip.dataLocked = true) {slot : Fin 16}
    (hclear : device.chip.slotConfig slot &&& 0xC0 = 0) :
    device.reaction openssl (.slot slot) = .answers (device.chip.key slot) := by
  obtain ⟨hplain, hopen⟩ := clear_bits hclear
  rw [reaction_slot_plain hlocked hplain, if_pos hopen]

/-- An HMAC is worked out with the nonce. -/
theorem reaction_hmac {challenge : List.Vector UInt8 32} (hnonce : device.nonce = some challenge)
    {slot : Fin 16} (hcomputes : device.chip.Computes slot) {useSn : Bool} {digest : Block}
    (hdigest : device.chip.digest openssl (UInt8.ofNat slot) ⟨.hmac, challenge, useSn⟩ =
      some digest) :
    device.reaction openssl (.hmac slot useSn) = .answers digest := by
  rw [Device.reaction, hnonce]
  simp only [if_pos hcomputes, hdigest, Reaction.of]

/-- A MAC is worked out with the challenge that comes with it. -/
theorem reaction_mac {slot : Fin 16} (hcomputes : device.chip.Computes slot)
    {challenge : List.Vector UInt8 32} {useSn : Bool} {digest : Block}
    (hdigest : device.chip.digest openssl (UInt8.ofNat slot) ⟨.mac, challenge, useSn⟩ =
      some digest) :
    device.reaction openssl (.mac slot challenge useSn) = .answers digest := by
  rw [Device.reaction, if_pos hcomputes, hdigest, Reaction.of]

/-- What is answered is the status of success, or four or thirty-two bytes. -/
theorem reaction_length {inquiry : Inquiry} {data : Block}
    (h : device.reaction openssl inquiry = .answers data) :
    data = success ∨ data.length = 4 ∨ data.length = 32 := by
  have hof : ∀ {slotNumber : UInt8} {request : ChallengeRequest},
      Reaction.of (device.chip.digest openssl slotNumber request) = .answers data →
        data.length = 32 := by
    intro slotNumber request h
    cases hdigest : device.chip.digest openssl slotNumber request with
    | none => rw [hdigest] at h; cases h
    | some digest =>
      rw [hdigest] at h
      obtain rfl := Reaction.answers.inj h
      exact chip_digest_length hdigest
  cases inquiry with
  | devRev => cases h
  | random => cases h
  | configWord address =>
    rw [Device.reaction] at h
    split_ifs at h with haddress
    obtain rfl := Reaction.answers.inj h
    exact .inr (.inl (length_configWord (length_config _) (UInt8.lt_iff_toNat_lt.mp haddress)))
  | configBlock =>
    obtain rfl := Reaction.answers.inj h
    exact .inr (.inr (configBlock_length device.chip))
  | otpWord address =>
    rw [Device.reaction] at h
    split_ifs at h with hrefused
    obtain rfl := Reaction.answers.inj h
    refine .inr (.inl (otpWord_length _ _ (Nat.lt_of_not_le fun hbig => hrefused (.inl ?_))))
    exact UInt8.le_iff_toNat_le.mpr hbig
  | slot slotNumber =>
    rw [Device.reaction] at h
    split_ifs at h
    obtain rfl := Reaction.answers.inj h
    exact .inr (.inr (key_length device.chip slotNumber))
  | nonce challenge => exact .inl (Reaction.answers.inj h).symm
  | hmac slotNumber useSn =>
    rw [Device.reaction] at h
    cases hnonce : device.nonce with
    | none => rw [hnonce] at h; cases h
    | some challenge =>
      rw [hnonce] at h
      dsimp only at h
      split_ifs at h
      exact .inr (.inr (hof h))
  | mac slotNumber challenge useSn =>
    rw [Device.reaction] at h
    split_ifs at h
    exact .inr (.inr (hof h))

/-- What the device answers an inquiry fits a packet. -/
theorem answered_length_le {inquiry : Inquiry} {data : Block}
    (h : device.reaction openssl inquiry = .answers data) : data.length ≤ 32 := by
  rcases reaction_length h with rfl | hlen | hlen
  · decide
  all_goals omega

end Reaction

/-! ## Sessions -/

/-- The state between two calls: a native handle that does not expect the device to be awake, and
a device with this chip. -/
structure Resting (device : σ → Device) (chip : Chip) (s : St σ) : Prop where
  layer : s.handle.bottomLayer = .ni2c
  asleep : s.handle.wakeIsExpected = false
  chip_eq : (device s.bus).chip = chip

/-- The state of a caller that relies on the device: it sleeps, and so often the library has
waited. -/
structure Relying (device : σ → Device) (chip : Chip) (waited : ℕ) (s : St σ) : Prop extends
    Resting device chip s where
  sleeps : (device s.bus).awake = 0
  waits : s.ni2cWaits = waited

/-- The state inside a session, where the device stays awake for so many more commands. -/
structure Attended (device : σ → Device) (chip : Chip) (commands waited : ℕ) (s : St σ) :
    Prop where
  layer : s.handle.bottomLayer = .ni2c
  chip_eq : (device s.bus).chip = chip
  awake : commands ≤ (device s.bus).awake
  waits : s.ni2cWaits = waited

/-- A message is no wait. -/
theorem relying_message {device : σ → Device} {chip : Chip} {waited : ℕ} {s : St σ}
    (h : Relying device chip waited s) (text : String) :
    Relying device chip waited (s.exchanged s.bus (.message text)) :=
  ⟨⟨h.layer, h.asleep, h.chip_eq⟩, h.sleeps, by
    rw [ni2cWaits_exchanged]
    exact h.waits⟩

section Reliable

variable {env : Env σ} {openssl : OpenSsl} {device : σ → Device}
  (hreliable : Reliable openssl env.bus device) {chip : Chip} {commands waited : ℕ} {s : St σ}
include hreliable

/-- An inquiry is answered at once, and its answer is decoded. -/
theorem exchange_reliable (hs : Attended device chip (commands + 1) waited s) (inquiry : Inquiry)
    {data : Block}
    (hreaction : (device s.bus).reaction openssl inquiry = .answers data) (out a : α)
    {decode : Block → Prog σ (AtshaErr × α)}
    (hdecode : Framed (answerPacket data) → 3 ≤ (answerPacket data).length →
      ∀ s', (decode (answerPacket data)).run s' = .ok (.ok, a) s') :
    ∃ s', (exchange (send env) (some inquiry.packet) out decode).run s = .ok (.ok, a) s' ∧
      Attended device chip commands (waited + 1) s' ∧
      (device s'.bus).nonce = inquiry.nonceAfter := by
  have hawake := hs.awake
  obtain ⟨b', honce, hchip, hnonce, hstill⟩ :=
    hreliable.answers s.bus inquiry data (by omega) hreaction
  obtain ⟨s', hsend, hhandle, rfl, hwaits⟩ :=
    send_at_once hs.layer (framed_inquiry inquiry) honce
  obtain ⟨hframed, hlen⟩ := framed_of_answers (AtOnce.accepts honce)
  refine ⟨s', (run_exchange_ok_iff _ _ _ _ _ _ _).mpr
    ⟨_, _, s', rfl, hsend, hdecode hframed hlen s'⟩, ?_, hnonce⟩
  exact ⟨by rw [hhandle, hs.layer], by rw [hchip, hs.chip_eq], by omega, by rw [hwaits, hs.waits]⟩

/-- A session whose body goes well in every state that the wake can leave. -/
theorem session_reliable (hs : Relying device chip waited s) {out a : α}
    {body : Prog σ (AtshaErr × α)} {waited' : ℕ}
    (hbody : ∀ s₁, Attended device chip 2 (waited + 1) s₁ → ∃ s₂ commands,
      body.run s₁ = .ok (.ok, a) s₂ ∧ Attended device chip commands waited' s₂) :
    ∃ s', (session env out body).run s = .ok (.ok, a) s' ∧ Relying device chip waited' s' := by
  obtain ⟨answer, b₁, honce, hchip, hawake⟩ := hreliable.wakes s.bus hs.sleeps
  obtain ⟨s₁, hwake, hhandle, rfl, hwaits⟩ := wake_at_once hs.layer hs.asleep honce
  have hs₁ : Attended device chip 2 (waited + 1) s₁ :=
    ⟨by rw [hhandle, hs.layer], by rw [hchip, hs.chip_eq], hawake, by rw [hwaits, hs.waits]⟩
  obtain ⟨s₂, commands, hrun, hs₂⟩ := hbody s₁ hs₁
  refine ⟨idled env s₂, (run_session_ok_iff _ _ _ _ _).mpr ⟨s₁, s₂, hwake, hrun, rfl⟩, ?_⟩
  rw [idled_ni2c hs₂.layer]
  exact ⟨⟨hs₂.layer, rfl, by rw [← hs₂.chip_eq]; exact (hreliable.idles s₂.bus).1⟩,
    (hreliable.idles s₂.bus).2, by rw [← hs₂.waits]; exact ni2cWaits_idle ..⟩

/-! ## Requests -/

variable (hs : Relying device chip waited s)
include hs

/-- A session of one inquiry that is answered with data. -/
theorem inquiry_reliable (inquiry : Inquiry) {data : Block}
    (hreaction : ∀ d : Device, d.chip = chip → d.reaction openssl inquiry = .answers data)
    {out a : α} {decode : Block → Prog σ (AtshaErr × α)}
    (hdecode : Framed (answerPacket data) → 3 ≤ (answerPacket data).length →
      ∀ s', (decode (answerPacket data)).run s' = .ok (.ok, a) s') :
    ∃ s', (session env out (exchange (send env) (some inquiry.packet) out decode)).run s =
      .ok (.ok, a) s' ∧ Relying device chip (waited + 2) s' := by
  refine session_reliable hreliable hs fun s₁ hs₁ => ?_
  obtain ⟨s₂, hrun, hs₂, -⟩ :=
    exchange_reliable hreliable hs₁ inquiry (hreaction _ hs₁.chip_eq) out a hdecode
  exact ⟨s₂, _, hrun, hs₂⟩

/-- A read whose inquiry is answered. -/
theorem read_reliable (call : PlainCall) (inquiry : Inquiry) (h : ¬ call.Refused)
    {number : AtshaBigInt} {n : ℕ} (hbody : plainBody env number call =
      exchange (send env) call.packet number (decode (some n) number))
    (hpacket : call.packet = some inquiry.packet) {data : Block}
    (hreaction : ∀ d : Device, d.chip = chip → d.reaction openssl inquiry = .answers data)
    (hdata : 2 ≤ data.length ∧ data.length ≤ 32) :
    ∃ r s', (call.run env number).run s = .ok (.ok, r) s' ∧ Holds r data ∧
      Relying device chip (waited + 2) s' := by
  have hlen := answerPacket_length data
  obtain ⟨s', hrun, hs'⟩ := inquiry_reliable hreliable hs inquiry hreaction fun hframed hmin s' =>
    (decode_ok_iff (some n) number _ hframed hmin s' s').mpr ⟨⟨by omega, by omega⟩, rfl, rfl⟩
  rw [plainCall_run h, hbody, hpacket]
  exact ⟨_, s', hrun, holds_taken hdata.2 n number, hs'⟩

/-- An OTP word is read.
SOURCE: api.c:771-807 -/
theorem otpRead_reliable (hlocked : chip.dataLocked = true)
    (hmode : chip.otpMode = atsha204ConfigOtpmodeReadonly) (address : UInt8)
    (haddress : address.toNat < 16) (number : AtshaBigInt) :
    ∃ r s', (atshaRawOtpRead env address number).run s = .ok (.ok, r) s' ∧
      Holds r (chip.otpWord address.toNat) ∧ Relying device chip (waited + 2) s' := by
  have hlen : (chip.otpWord address.toNat).length = 4 := otpWord_length chip _ haddress
  refine read_reliable hreliable hs (.otpRead address) (.otpWord address) id rfl
    (opRawRead_eq _ _) ?_ (by omega)
  rintro d rfl
  exact reaction_otpWord hlocked hmode haddress

/-- A configuration word is read.
SOURCE: api.c:697-733 -/
theorem confRead_reliable (address : UInt8) (haddress : address.toNat < 22)
    (number : AtshaBigInt) :
    ∃ r s', (atshaRawConfRead env address number).run s = .ok (.ok, r) s' ∧
      Holds r (configWord chip.config.val address.toNat) ∧
      Relying device chip (waited + 2) s' := by
  have hlen := length_configWord (length_config chip) haddress
  refine read_reliable hreliable hs (.confRead address) (.configWord address) id rfl
    (opRawRead_eq _ _) ?_ (by omega)
  rintro d rfl
  exact reaction_configWord haddress

/-- The serial number of the chip is read, out of the first words of the configuration.
SOURCE: api.c:620-656 -/
theorem chipSerialNumber_reliable (number : AtshaBigInt) :
    ∃ r s', (atshaChipSerialNumber env number).run s = .ok (.ok, r) s' ∧ Holds r chip.ownSerial ∧
      Relying device chip (waited + 2) s' := by
  have hlen := configBlock_length chip
  have hanswer := answerPacket_length (chip.config.val.take 32)
  have hown := ownSerial_length chip
  have hreaction : ∀ d : Device, d.chip = chip →
      d.reaction openssl .configBlock = .answers (chip.config.val.take 32) := by
    rintro d rfl
    rfl
  obtain ⟨s', hrun, hs'⟩ := inquiry_reliable hreliable hs .configBlock hreaction
    fun hframed hmin s' => (decodeSerial_ok_iff number _ hframed hmin
      ⟨9, filled number.data chip.ownSerial⟩ s' s').mpr
        ⟨⟨by omega, by rw [ownSerial_of_answer]⟩, rfl⟩
  have hholds := holds_filled number.data (show chip.ownSerial.length ≤ 32 by omega)
  rw [hown] at hholds
  refine ⟨_, s', ?_, hholds, hs'⟩
  rw [atshaChipSerialNumber, dataExchange_eq, opSerialNumber_eq]
  exact hrun

/-- An HMAC: the device takes the challenge as its nonce, and then gives the digest.
SOURCE: api.c:492-559 -/
theorem hmac_reliable {slot : Fin 16} (hcomputes : chip.Computes slot)
    {challenge : List.Vector UInt8 32} {useSn : Bool} {digest : Block}
    (hdigest : chip.digest openssl (UInt8.ofNat slot) ⟨.hmac, challenge, useSn⟩ = some digest)
    (number : AtshaBigInt) :
    ∃ r s', (atshaLowChallengeResponse env (UInt8.ofNat slot) ⟨32, challenge⟩ number useSn).run s =
      .ok (.ok, r) s' ∧ Holds r digest ∧ Relying device chip (waited + 3) s' := by
  have hlen := chip_digest_length hdigest
  have hanswer := answerPacket_length digest
  have hrefused : ¬ (PlainCall.respond .hmac (UInt8.ofNat slot) ⟨32, challenge⟩ useSn).Refused := by
    rintro (hbig | hbytes)
    · exact absurd (slot_le slot) (UInt8.not_le.mpr hbig)
    · exact hbytes rfl
  have hbody : ∀ s₁, Attended device chip 2 (waited + 1) s₁ → ∃ s₂ commands,
      (plainBody env number (.respond .hmac (UInt8.ofNat slot) ⟨32, challenge⟩ useSn)).run s₁ =
        .ok (.ok, taken (some 32) number (answerPacket digest)) s₂ ∧
      Attended device chip commands (waited + 3) s₂ := by
    intro s₁ hs₁
    have haccepted : Framed (answerPacket success) → 3 ≤ (answerPacket success).length →
        ∀ s' : St σ, (decodeStatus (answerPacket success)).run s' = .ok (.ok, ()) s' :=
      fun _ _ s' => (decodeStatus_ok_iff _ _ _ _).mpr ⟨rfl, rfl⟩
    obtain ⟨s₂, hnonce, hs₂, hloaded⟩ :=
      exchange_reliable hreliable hs₁ (.nonce challenge) rfl () () haccepted
    have hload : (loadNonce env ⟨32, challenge⟩).run s₁ = .ok (.ok, ()) s₂ := by
      rw [loadNonce, show opNonceRecv (σ := σ) = justCheckStatus from rfl, statusExchange_eq,
        opNonce_eq challenge.property]
      exact hnonce
    have hreaction : (device s₂.bus).reaction openssl (.hmac slot useSn) = .answers digest := by
      refine reaction_hmac hloaded ?_ ?_
      · rw [hs₂.chip_eq]
        exact hcomputes
      · rw [hs₂.chip_eq]
        exact hdigest
    obtain ⟨s₃, hrun, hs₃, -⟩ := exchange_reliable hreliable hs₂ (.hmac slot useSn) hreaction number
      (taken (some 32) number (answerPacket digest)) fun hframed hmin s' =>
        (decode_ok_iff (some 32) number _ hframed hmin s' s').mpr ⟨⟨by omega, by omega⟩, rfl, rfl⟩
    refine ⟨s₃, _, ?_, hs₃⟩
    rw [plainBody, run_bind_of_run hload, PlainCall.packet, opHmac_eq]
    exact hrun
  obtain ⟨s', hrun, hs'⟩ := session_reliable hreliable hs hbody
  rw [← plainCall_run hrefused] at hrun
  exact ⟨_, s', hrun, holds_taken (by omega) 32 number, hs'⟩

/-- A MAC: the challenge goes with the command.
SOURCE: api.c:561-618 -/
theorem mac_reliable {slot : Fin 16} (hcomputes : chip.Computes slot)
    {challenge : List.Vector UInt8 32} {useSn : Bool} {digest : Block}
    (hdigest : chip.digest openssl (UInt8.ofNat slot) ⟨.mac, challenge, useSn⟩ = some digest)
    (number : AtshaBigInt) :
    ∃ r s', (atshaLowChallengeResponseMac env (UInt8.ofNat slot) ⟨32, challenge⟩ number useSn).run
      s = .ok (.ok, r) s' ∧ Holds r digest ∧ Relying device chip (waited + 2) s' := by
  have hlen := chip_digest_length hdigest
  have hrefused : ¬ (PlainCall.respond .mac (UInt8.ofNat slot) ⟨32, challenge⟩ useSn).Refused := by
    rintro (hbig | hbytes)
    · exact absurd (slot_le slot) (UInt8.not_le.mpr hbig)
    · exact hbytes rfl
  refine read_reliable hreliable hs _ (.mac slot challenge useSn) hrefused rfl
    (opMac_eq _ _ challenge.property) ?_ (by omega)
  rintro d rfl
  exact reaction_mac hcomputes hdigest

/-- The serial number is read, word by word.
SOURCE: api.c:658-678 -/
theorem serialNumber_reliable (hlocked : chip.dataLocked = true)
    (hmode : chip.otpMode = atsha204ConfigOtpmodeReadonly) (number : AtshaBigInt) :
    ∃ r s', (atshaSerialNumber env number).run s = .ok (.ok, r) s' ∧ Holds r chip.serial ∧
      Relying device chip (waited + 4) s' := by
  obtain ⟨first, s₁, hrun₁, hholds₁, hs₁⟩ := otpRead_reliable hreliable hs hlocked hmode
    atsha204OtpMemoryMapRevNumber (by decide) (env.uninitBigInt .serialNumberPart)
  obtain ⟨second, s₂, hrun₂, hholds₂, hs₂⟩ := otpRead_reliable hreliable hs₁ hlocked hmode
    atsha204OtpMemoryMapSerialNumber (by decide) first
  have hfirst : first.data.val.take 4 = chip.otpWord 0 := by
    have hlen := otpWord_length chip 0 (by decide)
    have htake := hholds₁.take_eq
    rwa [show (chip.otpWord atsha204OtpMemoryMapRevNumber.toNat).length = 4 from hlen] at htake
  have hsecond : second.data.val.take 4 = chip.otpWord 1 := by
    have hlen := otpWord_length chip 1 (by decide)
    have htake := hholds₂.take_eq
    rwa [show (chip.otpWord atsha204OtpMemoryMapSerialNumber.toNat).length = 4 from hlen] at htake
  have hserial : chip.otpWord 0 ++ chip.otpWord 1 = chip.serial := otpWord_serial chip
  have hlen : chip.serial.length = 8 := serial_length chip
  have hfront : (chip.otpWord 0).length ≤ 32 := by rw [otpWord_length chip _ (by decide)]; decide
  refine ⟨_, s₂, ?_, holds_filled (filled number.data (chip.otpWord 0)) (by omega), hs₂⟩
  rw [atshaSerialNumber_eq, run_bind_of_run hrun₁, if_neg (by simp), serialBack, hfirst]
  simp only [run_bind_of_run (run_access_some (overwrite_filled number.data hfront) s₁),
    run_bind_of_run hrun₂]
  rw [if_neg (by simp), serialEnd, hsecond, hserial, hlen,
    run_bind_of_run (run_access_some (overwrite_filled _ (by omega)) s₂)]
  rfl

/-- A device with the settings of `init` answers every request that its chip has an answer to.
SOURCE: api.c:492-678, api.c:771-807 -/
theorem request_reliable (hchip : chip.Provisioned) {request : Request} {bytes : Block}
    (h : request.answer openssl chip = some bytes) (number : AtshaBigInt) :
    ∃ r s', (request.run env number).run s = .ok (.ok, r) s' ∧ Holds r bytes ∧
      Relying device chip (waited + request.waits) s' := by
  cases request with
  | otp address =>
    obtain rfl := Option.some.inj h
    have hlt : (UInt8.ofNat address).toNat < 16 := (slot_toNat address).trans_lt address.isLt
    have hread := otpRead_reliable hreliable hs hchip.locked hchip.otpMode _ hlt number
    rwa [slot_toNat] at hread
  | serialNumber =>
    obtain rfl := Option.some.inj h
    exact serialNumber_reliable hreliable hs hchip.locked hchip.otpMode number
  | chipSerialNumber =>
    obtain rfl := Option.some.inj h
    exact chipSerialNumber_reliable hreliable hs number
  | respond slotNumber request =>
    obtain ⟨kind, challenge, useSn⟩ := request
    cases kind with
    | hmac => exact hmac_reliable hreliable hs (Provisioned.computes hchip slotNumber) h number
    | mac => exact mac_reliable hreliable hs (Provisioned.computes hchip slotNumber) h number

end Reliable

end Atsha204.Analysis
