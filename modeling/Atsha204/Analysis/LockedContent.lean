import Atsha204.Analysis.ChipSessions
import Atsha204.Analysis.ProvisioningFile

/-!
# What provisioning locks

`init` keeps an image of the configuration zone beside the zone itself and changes both,
word after word; it locks the zone with the checksum of the image, and later the data
zones with the checksum of what it has read from the file. Whatever the link does, each of
the two locks is sent to a chip that holds what was meant (`locked_content_intended`).

The loops have one invariant: what lies below the next word is as intended, and above it
nothing has changed (`Prepared`). A step that fails leaves the loop, and then nothing but
the trace matters.
-/

set_option autoImplicit false

namespace Atsha204.Analysis

open Atsha204.Library
open Atsha204.Model
open Atsha204.Interface

/-! ## The configuration zone, word by word -/

/-- The configuration zone with the words below `n` as they are meant to be. -/
def preparedConfig (config : Block) (n : ℕ) : Block :=
  config.mapIdx fun i b => if i < 4 * n then intendedByte i b else b

/-- The bytes below the next word are the intended ones. -/
theorem getElem?_preparedConfig (config : Block) (n i : ℕ) : (preparedConfig config n)[i]? =
    config[i]?.map fun b => if i < 4 * n then intendedByte i b else b :=
  List.getElem?_mapIdx

/-- The zone keeps its length. -/
@[simp] theorem preparedConfig_length (config : Block) (n : ℕ) :
    (preparedConfig config n).length = config.length := List.length_mapIdx

/-- Nothing is meant to change in the first four words. -/
theorem intendedByte_of_lt {i : ℕ} (h : i < 16) (b : UInt8) : intendedByte i b = b := by
  rw [intendedByte, if_neg (by omega), if_neg (by omega)]

/-- Nothing is meant to change below word 4. -/
theorem preparedConfig_four (config : Block) : preparedConfig config 4 = config := by
  refine List.ext_getElem? fun i => ?_
  rw [getElem?_preparedConfig]
  cases hi : config[i]? with
  | none => rfl
  | some b =>
    rw [Option.map_some]
    split
    · rw [intendedByte_of_lt (by omega)]
    · rfl

/-- In word 4 it is the OTP mode.
SOURCE: init.c:72-84 -/
theorem preparedConfig_otpMode {config : Block} (h : config.length = 88) :
    config.set 18 atsha204ConfigOtpmodeReadonly = preparedConfig config 5 := by
  refine List.ext_getElem? fun i => ?_
  rw [getElem?_preparedConfig]
  by_cases hi : i = 18
  · subst hi
    rw [List.getElem?_set_self (by omega), List.getElem?_eq_getElem (by omega)]
    rfl
  · rw [List.getElem?_set_ne (by omega)]
    cases config[i]? with
    | none => rfl
    | some b =>
      rw [Option.map_some]
      split
      · rw [intendedByte, if_neg (by omega), if_neg (by omega)]
      · rfl

/-- All the bytes of a slot configuration word are the same. -/
theorem getElem?_slotConfigWord {j : ℕ} (h : j < 4) : slotConfigWord[j]? = some 0x80 := by
  obtain rfl | rfl | rfl | rfl : j = 0 ∨ j = 1 ∨ j = 2 ∨ j = 3 := by omega
  all_goals rfl

/-- In words 5 to 12 it is the slot configuration.
SOURCE: init.c:86-103 -/
theorem preparedConfig_slotConfig {config : Block} (h : config.length = 88) {n : ℕ} (hlow : 5 ≤ n)
    (hhigh : n < 13) :
    splice (preparedConfig config n) (4 * n) slotConfigWord = preparedConfig config (n + 1) := by
  have hword : slotConfigWord.length = 4 := rfl
  refine List.ext_getElem? fun i => ?_
  rw [getElem?_splice (by rw [preparedConfig_length]; omega), getElem?_preparedConfig,
    getElem?_preparedConfig, hword]
  by_cases hbelow : i < 4 * n
  · rw [if_pos hbelow]
    simp only [hbelow, show i < 4 * (n + 1) by omega, if_true]
  rw [if_neg hbelow]
  by_cases hin : i < 4 * n + 4
  · have hbyte : ∀ b, intendedByte i b = 0x80 := by
      intro b
      rw [intendedByte, if_neg (by omega), if_pos (by omega)]
      split <;> rfl
    rw [if_pos hin, getElem?_slotConfigWord (by omega), List.getElem?_eq_getElem (by omega),
      Option.map_some, if_pos (by omega), hbyte]
  · rw [if_neg hin]
    simp only [hbelow, show ¬ i < 4 * (n + 1) by omega, if_false]

/-- Behind word 12 nothing is meant to change. -/
theorem preparedConfig_all (config : Block) :
    preparedConfig config 13 = config.mapIdx intendedByte := by
  refine List.ext_getElem? fun i => ?_
  rw [getElem?_preparedConfig, List.getElem?_mapIdx]
  refine congrArg (config[i]?.map ·) (funext fun b => ?_)
  split
  · rfl
  · rw [intendedByte, if_neg (by omega), if_neg (by omega)]

/-! ## The image and the zone -/

section Configuration

variable {openssl : OpenSsl} {uninit : Uninit} {s : St ChipLink}

/-- The image and the configuration zone of the chip are the same: as the zone was in the state
`s`, with the words below `n` prepared. -/
structure Prepared (s : St ChipLink) (n : ℕ) (image : Block) (s' : St ChipLink) : Prop where
  layer : s'.handle.bottomLayer = .ni2c
  trail : Trail NoLock s s'
  image : image = preparedConfig s.bus.chip.config.val n
  zone : s'.bus.chip.config.val = preparedConfig s.bus.chip.config.val n

/-- The outcome of a step of the preparation. -/
def PreparedTo (s : St ChipLink) (n : ℕ) : Option Block → St ChipLink → Prop
  | some image, s' => Prepared s n image s'
  | none, s' => Trail NoLock s s'

/-- A number that holds a configuration word. -/
theorem holds_configWord {record : AtshaBigInt} {chip : Chip} {address : ℕ}
    (h : Holds record (configWord chip.config.val address)) (haddress : address < 22) :
    record.bytes = 4 ∧ record.data.val.take 4 = configWord chip.config.val address := by
  have hword := length_configWord (length_config chip) haddress
  exact ⟨h.bytes_eq.trans hword, hword ▸ h.take_eq⟩

section Steps

variable {β : Type} {Q : Option β → St ChipLink → Prop} {s₁ : St ChipLink}
  (hgiveUp : ∀ s', Trail NoLock s s' → Q none s') (hlayer : s₁.handle.bottomLayer = .ni2c)
  (htrail : Trail NoLock s s₁)
include hgiveUp hlayer htrail

/-- A step begins with the read of a word: it gives up, or goes on with the word. -/
theorem wp_confRead_then {address : UInt8} (haddress : address.toNat < 22) (number : AtshaBigInt)
    {f : AtshaErr × AtshaBigInt → Prog ChipLink (Option β)}
    (hbad : ∀ status record, status ≠ .ok → f (status, record) = pure none)
    (hgood : ∀ record s₂, s₂.handle.bottomLayer = .ni2c → Trail NoLock s s₂ →
      s₂.bus.chip = s₁.bus.chip →
      Holds record (configWord s₁.bus.chip.config.val address.toNat) →
      wp (f (.ok, record)) Q (Trail NoLock s) s₂) :
    wp (atshaRawConfRead (chipEnv openssl uninit) address number >>= f) Q (Trail NoLock s) s₁ := by
  rw [wp_bind]
  refine wp_mono (wp_confRead_chip hlayer haddress number) ?_ fun _ hE => htrail.trans hE
  rintro ⟨status, record⟩ s₂ ⟨hlayer₂, htrail₂, hok⟩
  by_cases hstatus : status = .ok
  · subst hstatus
    obtain ⟨hchip, hholds⟩ := hok rfl
    exact hgood record s₂ hlayer₂ (htrail.trans htrail₂) hchip hholds
  · rw [hbad status record hstatus, wp_pure]
    exact hgiveUp s₂ (htrail.trans htrail₂)

/-- A step goes on with the write of a word: it gives up, or the word is in the zone. -/
theorem wp_confWrite_then {address : UInt8} (haddress : address.toNat < 22) {number : AtshaBigInt}
    (hbytes : number.bytes = 4) {f : AtshaErr × Unit → Prog ChipLink (Option β)}
    (hbad : ∀ status, status ≠ .ok → f (status, ()) = pure none)
    (hgood : ∀ s₂, s₂.handle.bottomLayer = .ni2c → Trail NoLock s s₂ →
      s₂.bus.chip.config.val = splice s₁.bus.chip.config.val (4 * address.toNat)
        (number.data.val.take 4) → wp (f (.ok, ())) Q (Trail NoLock s) s₂) :
    wp (atshaRawConfWrite (chipEnv openssl uninit) address number >>= f) Q (Trail NoLock s) s₁ := by
  rw [wp_bind]
  refine wp_mono (wp_confWrite_chip hlayer haddress hbytes) ?_ fun _ hE => htrail.trans hE
  rintro ⟨status, _⟩ s₂ ⟨hlayer₂, htrail₂, hok⟩
  by_cases hstatus : status = .ok
  · subst hstatus
    exact hgood s₂ hlayer₂ (htrail.trans htrail₂) (hok rfl)
  · rw [hbad status hstatus, wp_pure]
    exact hgiveUp s₂ (htrail.trans htrail₂)

end Steps

/-- The part of the zone that has been read is in the image.
SOURCE: init.c:108-116 -/
structure ReadUpTo (s : St ChipLink) (k : ℕ) (image : Block) (s' : St ChipLink) : Prop where
  layer : s'.handle.bottomLayer = .ni2c
  trail : Trail NoLock s s'
  zone : s'.bus.chip = s.bus.chip
  length : image.length = 88
  read : image.take (4 * k) = s.bus.chip.config.val.take (4 * k)

/-- The image of the configuration zone is read from the chip.
SOURCE: init.c:106-116 -/
theorem wp_readConfigZone (hlayer : s.handle.bottomLayer = .ni2c) :
    wp (readConfigZone (chipEnv openssl uninit)) (PreparedTo s 4) (Trail NoLock s) s := by
  have huninit : ((chipEnv openssl uninit).uninitBuffer .configImage
      (configCnt * bytesizeCnf)).val.length = 88 := List.Vector.toList_length _
  rw [readConfigZone, wp_bind, List.range_eq_range']
  refine wp_foldWhile_range' (fun k acc s' => ReadUpTo s k acc.1 s') ?_ ?_ _ s
    ⟨hlayer, Trail.refl s, rfl, huninit, rfl⟩
  · rintro k ⟨image, number⟩ s₁ - hk h
    have hk : k < 22 := by simpa [configCnt] using hk
    have haddress : (UInt8.ofNat k).toNat = k := UInt8.toNat_ofNat_of_lt (hk.trans (by decide))
    refine wp_confRead_then (fun _ htrail => htrail) h.layer h.trail (by omega) number
      (fun _ _ hbad => if_pos hbad) fun record s₂ hlayer₂ htrail hchip hholds => ?_
    rw [haddress, h.zone] at hholds
    have hword := length_configWord (length_config s.bus.chip) hk
    simp only [ne_eq, not_true_eq_false, if_false, wp_bind, wp_access,
      copyOut_of_holds hholds (hword.trans_le (by omega))]
    rw [pokeAll_of_le (by rw [h.length, hword, bytesizeCnf]; omega)]
    refine ⟨hlayer₂, htrail, hchip.trans h.zone, ?_, ?_⟩
    · rw [splice_length, h.length]
      rw [h.length, hword, bytesizeCnf]
      omega
    · have hzone := length_config s.bus.chip
      rw [bytesizeCnf, Nat.mul_comm k 4, Nat.mul_succ]
      exact take_splice_piece (by rw [h.length]; omega) (by omega) h.read
  · rintro ⟨image, number⟩ s' h
    have hall := h.read
    rw [List.take_of_length_le (by rw [h.length]; decide),
      List.take_of_length_le (by rw [length_config]; decide)] at hall
    exact ⟨h.layer, h.trail, by rw [hall, preparedConfig_four],
      by rw [h.zone, preparedConfig_four]⟩

/-- The OTP mode is set, on the chip and in the image.
SOURCE: init.c:72-84 -/
theorem wp_setOtpMode {image : Block} {s₁ : St ChipLink} (h : Prepared s 4 image s₁) :
    wp (setOtpMode (chipEnv openssl uninit) image) (PreparedTo s 5) (Trail NoLock s) s₁ := by
  have hzone := length_config s.bus.chip
  rw [setOtpMode]
  refine wp_confRead_then (fun _ htrail => htrail) h.layer h.trail (by decide) _
    (fun _ _ hbad => if_pos hbad) fun record s₂ hlayer₂ htrail₂ hchip hholds => ?_
  obtain ⟨hbytes, htake⟩ := holds_configWord hholds (by decide)
  simp only [ne_eq, not_true_eq_false, if_false]
  refine wp_confWrite_then (fun _ htrail => htrail) hlayer₂ htrail₂ (by decide)
    (show (record.setByte 2 atsha204ConfigOtpmodeReadonly).bytes = 4 from hbytes)
    (fun _ hbad => if_pos hbad) fun s₃ hlayer₃ htrail₃ hzone₃ => ?_
  have hstored : s₃.bus.chip.config.val = preparedConfig s.bus.chip.config.val 5 := by
    rw [hzone₃, hchip]
    change splice _ (4 * 4) ((record.data.val.set 2 _).take 4) = _
    rw [List.take_set, htake, show (4 : UInt8).toNat = 4 from rfl, configWord,
      splice_set (by rw [length_config]; decide) (by decide), h.zone, preparedConfig_four,
      preparedConfig_otpMode hzone]
  have himage : poke image (0x04 * bytesizeCnf + 2) atsha204ConfigOtpmodeReadonly =
      some (preparedConfig s.bus.chip.config.val 5) := by
    rw [h.image, preparedConfig_four, poke, if_pos (by rw [hzone]; decide),
      ← preparedConfig_otpMode hzone]
    rfl
  simp only [not_true_eq_false, if_false, wp_bind, wp_access, himage]
  exact ⟨hlayer₃, htrail₃, rfl, hstored⟩

/-- The slot configuration is set, on the chip and in the image.
SOURCE: init.c:86-103 -/
theorem wp_setSlotConfig {image : Block} {s₁ : St ChipLink} (h : Prepared s 5 image s₁) :
    wp (setSlotConfig (chipEnv openssl uninit) image) (PreparedTo s 13) (Trail NoLock s) s₁ := by
  have hzone := length_config s.bus.chip
  rw [setSlotConfig, wp_bind]
  refine wp_foldWhile_range' (fun n acc s' => Prepared s n acc.1 s') ?_ (fun _ _ h => h) _ s₁ h
  rintro n ⟨image, number⟩ s₁ hlow hhigh h
  have haddress : (UInt8.ofNat n).toNat = n :=
    UInt8.toNat_ofNat_of_lt (hhigh.trans (by decide))
  refine wp_confRead_then (fun _ htrail => htrail) h.layer h.trail (by omega) number
    (fun _ _ hbad => if_pos hbad) fun record s₂ hlayer₂ htrail₂ hchip hholds => ?_
  obtain ⟨hbytes, -⟩ := holds_configWord hholds (by omega)
  obtain ⟨data, hdata, hval⟩ := overwrite_of_le record.data
    (show slotConfigWord.length ≤ atshaMaxDataSize by decide)
  have htake : data.val.take 4 = slotConfigWord :=
    (congrArg (List.take 4) hval).trans (List.take_left' rfl)
  simp only [ne_eq, not_true_eq_false, if_false]
  rw [wp_bind, wp_access, hdata]
  refine wp_confWrite_then (fun _ htrail => htrail) hlayer₂ htrail₂ (by omega)
    (show ({ record with data := data } : AtshaBigInt).bytes = 4 from hbytes)
    (fun _ hbad => if_pos hbad) fun s₃ hlayer₃ htrail₃ hzone₃ => ?_
  have hstored : s₃.bus.chip.config.val = preparedConfig s.bus.chip.config.val (n + 1) := by
    rw [hzone₃, hchip, haddress, htake, h.zone, preparedConfig_slotConfig hzone hlow hhigh]
  have himage : pokeAll image (n * bytesizeCnf) slotConfigWord =
      some (preparedConfig s.bus.chip.config.val (n + 1)) := by
    have hword : slotConfigWord.length = 4 := rfl
    rw [show image = preparedConfig _ n from h.image, bytesizeCnf, Nat.mul_comm n 4,
      pokeAll_of_le (by rw [preparedConfig_length]; omega),
      preparedConfig_slotConfig hzone hlow hhigh]
  simp only [not_true_eq_false, if_false, wp_bind, wp_access, himage]
  exact ⟨hlayer₃, htrail₃, rfl, hstored⟩

/-- When the preparation of the configuration zone is done, the image is what the chip holds,
and it is what was meant.
SOURCE: init.c:105-119 -/
theorem wp_prepareConfig (hlayer : s.handle.bottomLayer = .ni2c) :
    wp (prepareConfig (chipEnv openssl uninit)) (PreparedTo s 13) (Trail NoLock s) s := by
  rw [prepareConfig, wp_bind]
  refine wp_mono (wp_readConfigZone hlayer) ?_ fun _ hE => hE
  rintro (_ | image) s₁ h
  · exact h
  simp only [wp_bind]
  refine wp_mono (wp_setOtpMode h) ?_ fun _ hE => hE
  rintro (_ | image) s₂ h
  · exact h
  exact wp_setSlotConfig h

end Configuration

/-! ## The data zones -/

section Data

variable {openssl : OpenSsl} {uninit : Uninit} {s : St ChipLink}

/-- The first `k` pieces of 32 bytes are in the zone. -/
structure CopiedUpTo (s : St ChipLink) (zone : Chip → Block) (source : Block) (k : ℕ)
    (number : AtshaBigInt) (s' : St ChipLink) : Prop where
  layer : s'.handle.bottomLayer = .ni2c
  trail : Trail NoLock s s'
  bytes : number.bytes = 32
  copied : (zone s'.bus.chip).take (32 * k) = source.take (32 * k)

/-- A piece of 32 bytes is taken into a number. -/
theorem take_piece {source : Block} {offset : ℕ} (h : offset + 32 ≤ source.length)
    (number : AtshaBigInt) :
    copyOut (source.drop offset) 32 = some ((source.drop offset).take 32) ∧
      ∃ buffer, overwrite number.data ((source.drop offset).take 32) = some buffer ∧
        buffer.val.take 32 = (source.drop offset).take 32 := by
  have hlength : ((source.drop offset).take 32).length = 32 := by
    rw [List.length_take, List.length_drop]
    omega
  refine ⟨copyOut_of_le (by rw [List.length_drop]; omega), ?_⟩
  obtain ⟨buffer, hbuffer, hval⟩ := overwrite_of_le number.data
    (show ((source.drop offset).take 32).length ≤ atshaMaxDataSize by rw [hlength]; decide)
  exact ⟨buffer, hbuffer, (congrArg (List.take 32) hval).trans (List.take_left' hlength)⟩

/-- The keys are written to the slots.
SOURCE: init.c:128-135 -/
theorem wp_writeKeys {data : Block} (hdata : data.length = 512)
    (hlayer : s.handle.bottomLayer = .ni2c) :
    wp (writeKeys (chipEnv openssl uninit) data)
      (fun r s' => Trail NoLock s s' ∧ ∀ number, r = some number →
        s'.handle.bottomLayer = .ni2c ∧ s'.bus.chip.data.val = data)
      (Trail NoLock s) s := by
  rw [writeKeys, List.range_eq_range']
  refine wp_foldWhile_range' (CopiedUpTo s (fun chip => chip.data.val) data) ?_ ?_ _ s
    ⟨hlayer, Trail.refl s, rfl, rfl⟩
  · rintro slot number s₁ - hslot h
    have hslot : slot < 16 := by simpa [slotCnt] using hslot
    have hnumber : (UInt8.ofNat slot).toNat = slot :=
      UInt8.toNat_ofNat_of_lt (hslot.trans (by decide))
    obtain ⟨hpiece, buffer, hbuffer, htake⟩ :=
      take_piece (show 32 * slot + 32 ≤ data.length by omega) number
    simp only [bytesizeKey, Nat.mul_comm slot 32, h.bytes, wp_bind, wp_access, hpiece, hbuffer]
    refine wp_mono (wp_slotWrite_chip h.layer (by omega) rfl) ?_ fun _ hE => h.trail.trans hE
    rintro ⟨status, _⟩ s₂ ⟨hlayer₂, htrail₂, hok⟩
    by_cases hstatus : status = .ok
    swap
    · simp only [hstatus, ne_eq, not_false_eq_true, if_true]
      exact ⟨h.trail.trans htrail₂, fun _ h => by cases h⟩
    simp only [hstatus, ne_eq, not_true_eq_false, if_false]
    refine ⟨hlayer₂, h.trail.trans htrail₂, rfl, ?_⟩
    have hzone : s₁.bus.chip.data.val.length = 512 := s₁.bus.chip.data.property
    rw [hok hstatus, hnumber, htake, Nat.mul_succ]
    exact take_splice_piece (by omega) (by omega) h.copied
  · rintro number s' h
    have hall : s'.bus.chip.data.val.take 512 = data.take 512 := h.copied
    rw [List.take_of_length_le s'.bus.chip.data.property.le, List.take_of_length_le hdata.le] at hall
    exact ⟨h.trail, fun _ _ => ⟨h.layer, hall⟩⟩

/-- The OTP words are written, in two halves.
SOURCE: init.c:137-145 -/
theorem wp_writeOtp {otp : Block} (hotp : otp.length = 64) (number : AtshaBigInt)
    (hlayer : s.handle.bottomLayer = .ni2c) :
    wp (writeOtp (chipEnv openssl uninit) otp number)
      (fun r s' => Trail NoLock s s' ∧ (r.isSome = true → s'.handle.bottomLayer = .ni2c ∧
        s'.bus.chip.data = s.bus.chip.data ∧ s'.bus.chip.otp.val = otp))
      (Trail NoLock s) s := by
  rw [writeOtp]
  refine wp_foldWhile (fun rest number s' => ∃ k, k ≤ 2 ∧ rest = [0, 32].drop k ∧
    CopiedUpTo s (fun chip => chip.otp.val) otp k number s' ∧
    s'.bus.chip.data = s.bus.chip.data) ?_ ?_ _ _ s
    ⟨0, by decide, rfl, ⟨hlayer, Trail.refl s, rfl, rfl⟩, rfl⟩
  · rintro base rest number s₁ ⟨k, hk, hrest, h, hdata⟩
    obtain ⟨hk, rfl, rfl⟩ : k < 2 ∧ base = 32 * k ∧ rest = [0, 32].drop (k + 1) := by
      obtain rfl | rfl | rfl : k = 0 ∨ k = 1 ∨ k = 2 := by omega
      · cases hrest
        exact ⟨by decide, rfl, rfl⟩
      · cases hrest
        exact ⟨by decide, rfl, rfl⟩
      · cases hrest
    have haddress : (UInt8.ofNat (32 * k / 4)).toNat = 32 * k / 4 :=
      UInt8.toNat_ofNat_of_lt (by change _ < 256; omega)
    have hoffset : 4 * (UInt8.ofNat (32 * k / 4)).toNat = 32 * k := by omega
    obtain ⟨hpiece, buffer, hbuffer, htake⟩ :=
      take_piece (show 32 * k + 32 ≤ otp.length by omega) number
    simp only [wp_bind, wp_access, hpiece, hbuffer]
    refine wp_mono (wp_otp32Write_chip h.layer (by omega) h.bytes) ?_ fun _ hE => h.trail.trans hE
    rintro ⟨status, _⟩ s₂ ⟨hlayer₂, htrail₂, hok⟩
    by_cases hstatus : status = .ok
    swap
    · simp only [hstatus, ne_eq, not_false_eq_true, if_true]
      exact ⟨h.trail.trans htrail₂, fun h => by cases h⟩
    obtain ⟨hdata₂, hotp₂⟩ := hok hstatus
    simp only [hstatus, ne_eq, not_true_eq_false, if_false]
    refine ⟨k + 1, by omega, rfl, ⟨hlayer₂, h.trail.trans htrail₂, h.bytes, ?_⟩, hdata₂.trans hdata⟩
    have hzone : s₁.bus.chip.otp.val.length = 64 := s₁.bus.chip.otp.property
    rw [hotp₂, hoffset, htake, Nat.mul_succ]
    exact take_splice_piece (by omega) (by omega) h.copied
  · rintro number s' ⟨k, hk, hrest, h, hdata⟩
    obtain rfl : k = 2 := by
      obtain rfl | rfl | rfl : k = 0 ∨ k = 1 ∨ k = 2 := by omega
      · cases hrest
      · cases hrest
      · rfl
    have hall : s'.bus.chip.otp.val.take 64 = otp.take 64 := h.copied
    rw [List.take_of_length_le s'.bus.chip.otp.property.le, List.take_of_length_le hotp.le] at hall
    exact ⟨h.trail, fun _ => ⟨h.layer, hdata, hall⟩⟩

/-- When all has been written, the chip holds it.
SOURCE: init.c:127-145 -/
theorem wp_writeData {data otp : Block} (hdata : data.length = 512) (hotp : otp.length = 64)
    (hlayer : s.handle.bottomLayer = .ni2c) :
    wp (writeData (chipEnv openssl uninit) data otp)
      (fun r s' => Trail NoLock s s' ∧ (r = true → s'.handle.bottomLayer = .ni2c ∧
        s'.bus.chip.data.val = data ∧ s'.bus.chip.otp.val = otp))
      (Trail NoLock s) s := by
  rw [writeData, wp_bind]
  refine wp_mono (wp_writeKeys hdata hlayer) ?_ fun _ hE => hE
  rintro (_ | number) s₁ ⟨htrail₁, h⟩
  · exact ⟨htrail₁, fun h => by cases h⟩
  obtain ⟨hlayer₁, hkeys⟩ := h number rfl
  simp only [wp_bind]
  refine wp_mono (wp_writeOtp hotp number hlayer₁) ?_ fun _ hE => htrail₁.trans hE
  rintro r s₂ ⟨htrail₂, h⟩
  refine ⟨htrail₁.trans htrail₂, fun hr => ?_⟩
  obtain ⟨hlayer₂, hdata₂, hwords⟩ := h hr
  exact ⟨hlayer₂, by rw [hdata₂, hkeys], hwords⟩

end Data

/-! ## The checksum in the packet -/

/-- The bytes of a word of two bytes.
SOURCE: operations.c:188-190, tools.c:85-86 -/
theorem word_bytes (low high : UInt8) :
    ((high.toUInt16 <<< 8 ||| low.toUInt16) &&& 0x00FF).toUInt8 = low ∧
      (((high.toUInt16 <<< 8 ||| low.toUInt16) &&& 0xFF00) >>> 8).toUInt8 = high := by
  have hlow : ∀ i (hi : i < 8), (255#8)[i] = true := by decide
  have hhigh : ∀ i, i < 8 → BitVec.getLsbD 65280#16 (8 + i) = true := by decide
  constructor
  · apply UInt8.toBitVec_inj.mp
    ext i hi
    simp [hlow i hi]
  · apply UInt8.toBitVec_inj.mp
    ext i hi
    simp [hhigh i hi, hi, show 8 + i < 16 by omega, show ¬ 8 + i < 8 by omega,
      show i < 16 by omega]

/-- A lock command carries the checksum that the operation is given.
SOURCE: operations.c:187-193 -/
theorem carriedCrc_lockPacket (zone : UInt8) (crc : UInt8 × UInt8) :
    carriedCrc (lockPacket zone (crc.2.toUInt16 <<< 8 ||| crc.1.toUInt16)) = some crc := by
  obtain ⟨low, high⟩ := crc
  obtain ⟨hlow, hhigh⟩ := word_bytes low high
  change some (_, _) = _
  rw [hlow, hhigh]

/-! ## The commands of a run -/

section Run

variable {openssl : OpenSsl} {uninit : Uninit} {s : St ChipLink} {content : List UInt8}

/-- What is no lock is sent as intended once the file has been read. -/
theorem NoLock.asIntended {env : Env ChipLink} (hread : ∃ data otp, ReadByInit env content data otp)
    {e : Event ChipLink} (he : NoLock e) : AsIntended env (some content) s e := by
  unfold NoLock at he
  unfold AsIntended
  split
  · refine ⟨content, rfl, hread, fun zone hzone => ?_⟩
    rw [show lockedZone _ = none from he] at hzone
    cases hzone
  · trivial

/-- A lock is sent as intended when it is so for every chip with the memory that the session
started with. -/
theorem OfSession.asIntended {env : Env ChipLink}
    (hread : ∃ data otp, ReadByInit env content data otp) {zone : UInt8} {crc : UInt16}
    {chip₀ : Chip} (hlock : ∀ chip, SameMemory chip₀ chip →
      (zone = lockConfig ∧ ConfigIntended env s (lockPacket zone crc) chip) ∨
      (zone = lockData ∧ DataIntended env content s (lockPacket zone crc) chip))
    {e : Event ChipLink} (he : OfSession (lockPacket zone crc) (SameMemory chip₀) e) :
    AsIntended env (some content) s e := by
  cases e with
  | written bytes ok link =>
    rcases he with ⟨rfl, hchip⟩ | rfl
    · refine ⟨content, rfl, hread, fun zone' hzone => ?_⟩
      obtain rfl : zone = zone' := Option.some.inj hzone
      exact hlock _ hchip
    · trivial
  | _ => trivial

/-- The configuration zone is locked when it is as intended.
SOURCE: init.c:105-125 -/
theorem wp_createAndLockConfig (hlayer : s.handle.bottomLayer = .ni2c)
    (hread : ∃ data otp, ReadByInit (chipEnv openssl uninit) content data otp) :
    wp (createAndLockConfig (chipEnv openssl uninit))
      (fun r s' => Trail (AsIntended (chipEnv openssl uninit) (some content) s) s s' ∧
        (r = true → s'.handle.bottomLayer = .ni2c))
      (Trail (AsIntended (chipEnv openssl uninit) (some content) s) s) s := by
  rw [createAndLockConfig, wp_bind]
  refine wp_mono (wp_with_run (wp_prepareConfig hlayer)) ?_
    fun _ hE => hE.mono fun _ => NoLock.asIntended hread
  rintro (_ | image) s₁ ⟨hrun, h⟩
  · exact ⟨Trail.mono h fun _ => NoLock.asIntended hread, fun h => by cases h⟩
  have hprepared : Prepared s 13 image s₁ := h
  have htrail := hprepared.trail.mono fun _ => NoLock.asIntended (s := s) hread
  have himage : image = s₁.bus.chip.config.val := hprepared.image.trans hprepared.zone.symm
  have hlength : image.length = 88 := himage ▸ length_config _
  have hcrc : calculateCrc (UInt16.ofNat (configCnt * bytesizeCnf)) image =
      some (checksum image) := by
    rw [calculateCrc_of_le (by rw [hlength]; decide), List.take_of_length_le (by rw [hlength]; decide)]
  simp only [wp_bind, wp_access, hcrc]
  have hlock : ∀ chip, SameMemory s₁.bus.chip chip → ConfigIntended (chipEnv openssl uninit) s
      (lockPacket lockConfig ((checksum image).2.toUInt16 <<< 8 ||| (checksum image).1.toUInt16))
      chip := by
    rintro chip ⟨hconfig, -, -⟩
    refine ⟨⟨s₁, ?_⟩, ?_, ?_⟩
    · rw [hconfig, ← himage, hrun]
    · rw [hconfig, hprepared.zone, preparedConfig_all]
    · rw [hconfig, ← himage, carriedCrc_lockPacket]
      exact hcrc.symm
  refine wp_mono (@wp_lock_chip _ _ _ hprepared.layer .config (checksum image)) ?_ fun _ hE =>
    htrail.trans (hE.mono fun _ => OfSession.asIntended hread fun chip h => .inl ⟨rfl, hlock chip h⟩)
  rintro r s₂ ⟨hlayer₂, htrail₂⟩
  exact ⟨htrail.trans (htrail₂.mono fun _ =>
    OfSession.asIntended hread fun chip h => .inl ⟨rfl, hlock chip h⟩), fun _ => hlayer₂⟩

/-- What has been read fills both buffers. -/
theorem readByInit_length {env : Env ChipLink} {data otp : Block}
    (h : ReadByInit env content data otp) : data.length = 512 ∧ otp.length = 64 := by
  obtain ⟨_, _, hkeys, hwords⟩ := (readByInit_iff env content data otp).mp h
  exact ⟨(readChunks_eq_some (fun _ _ hl => readPairs_length hl) hkeys).2.1,
    (readChunks_eq_some (fun _ _ hl => readPairs_length hl) hwords).2.1⟩

/-- The data zones are locked when they hold what has been read.
SOURCE: init.c:127-157 -/
theorem wp_writeAndLockData {data otp : Block} {s₁ s₂ : St ChipLink}
    (hread : ReadByInit (chipEnv openssl uninit) content data otp)
    (hlocked : (createAndLockConfig (chipEnv openssl uninit)).run s = .ok true s₁)
    (hs₂ : s₂ = s₁.exchanged s₁.bus (.printed "Configuration is locked"))
    (hlayer : s₂.handle.bottomLayer = .ni2c) :
    wp (writeAndLockData (chipEnv openssl uninit) data otp)
      (fun _ s' => Trail (AsIntended (chipEnv openssl uninit) (some content) s) s₂ s')
      (Trail (AsIntended (chipEnv openssl uninit) (some content) s) s₂) s₂ := by
  obtain ⟨hdata, hotp⟩ := readByInit_length hread
  have hnoLock : ∀ e, NoLock e → AsIntended (chipEnv openssl uninit) (some content) s e :=
    fun _ => NoLock.asIntended ⟨data, otp, hread⟩
  rw [writeAndLockData, wp_bind]
  refine wp_mono (wp_with_run (wp_writeData hdata hotp hlayer)) ?_ fun _ hE => hE.mono hnoLock
  rintro written s₃ ⟨hrun, htrail₃, h⟩
  have htrail := htrail₃.mono hnoLock
  cases written with
  | false => exact htrail
  | true =>
    obtain ⟨hlayer₃, hslots, hwords⟩ := h rfl
    have hkeys : copyOut data (slotCnt * bytesizeKey) = some data := copyOut_all hdata
    have hwordsOut : copyOut otp (slotCnt * bytesizeOtp) = some otp := copyOut_all hotp
    have hlength : (data ++ otp).length = 576 := by rw [List.length_append, hdata, hotp]
    have hcrc : calculateCrc (UInt16.ofNat (slotCnt * bytesizeKey + slotCnt * bytesizeOtp))
        (data ++ otp) = some (checksum (data ++ otp)) := by
      rw [calculateCrc_of_le (by rw [hlength]; decide),
        List.take_of_length_le (by rw [hlength]; decide)]
    simp only [Bool.not_true, Bool.false_eq_true, if_false, wp_bind, wp_access, hkeys, hwordsOut,
      hcrc]
    have hlock : ∀ chip, SameMemory s₃.bus.chip chip →
        DataIntended (chipEnv openssl uninit) content s (lockPacket lockData
          ((checksum (data ++ otp)).2.toUInt16 <<< 8 ||| (checksum (data ++ otp)).1.toUInt16))
          chip := by
      rintro chip ⟨-, hdata', hotp'⟩
      refine ⟨⟨s₁, s₃, ?_, hlocked, ?_⟩, ?_⟩
      · rw [hdata', hotp', hslots, hwords]
        exact hread
      · rw [hdata', hotp', hslots, hwords, ← hs₂, hrun]
      · rw [hdata', hotp', hslots, hwords, carriedCrc_lockPacket]
        exact hcrc.symm
    refine wp_mono (@wp_lock_chip _ _ _ hlayer₃ .data (checksum (data ++ otp))) ?_ fun _ hE =>
      htrail.trans (hE.mono fun _ =>
        OfSession.asIntended ⟨data, otp, hread⟩ fun chip h => .inr ⟨rfl, hlock chip h⟩)
    rintro r s₄ ⟨-, htrail₄⟩
    exact htrail.trans (htrail₄.mono fun _ =>
      OfSession.asIntended ⟨data, otp, hread⟩ fun chip h => .inr ⟨rfl, hlock chip h⟩)

/-- A read of the configuration file leaves the handle and the bus alone. -/
theorem wp_withLocalFile {σ α : Type} (file : File) (x : FileProg α) (Q : α × File → St σ → Prop)
    (E : St σ → Prop) (s : St σ) : wp (withLocalFile file x) Q E s ↔ match x.run file with
      | .ok a file => Q (a, file) s
      | .error _ _ => E s := by
  unfold withLocalFile
  cases x.run file <;> rfl

/-- In every run of `init`, whatever the file, the memory of the chip and the link, a command is
sent only when the whole file has been read, and a lock only when the chip holds what is
meant to be locked, with the checksum of it.
SOURCE: init.c:72-201, operations.c:187-193, communication.c:111-172 -/
theorem locked_content_intended (openssl : OpenSsl) (uninit : Uninit) (file : Option (List UInt8))
    (s : St ChipLink) (hlayer : s.handle.bottomLayer = .ni2c) :
    LocksAsIntended (chipEnv openssl uninit) file s := by
  suffices h : wp (init (chipEnv openssl uninit) file)
      (fun _ s' => Trail (AsIntended (chipEnv openssl uninit) file s) s s')
      (Trail (AsIntended (chipEnv openssl uninit) file s) s) s from
    fun e he => ((wp_lastState_iff _ _ _).mp h).mem_drop he
  cases file with
  | none => exact Trail.exchanged s s.bus trivial
  | some content =>
    rw [init]
    simp only [wp_bind, wp_withLocalFile]
    split
    case h_2 => exact Trail.refl s
    case h_1 data conf hkeys =>
    cases data with
    | none => exact Trail.exchanged s s.bus trivial
    | some data =>
      simp only [wp_bind, wp_withLocalFile]
      split
      case h_2 => exact Trail.refl s
      case h_1 otp conf' hwords =>
      cases otp with
      | none => exact Trail.exchanged s s.bus trivial
      | some otp =>
        have hread : ReadByInit (chipEnv openssl uninit) content data otp :=
          ⟨conf, conf', hkeys, hwords⟩
        simp only [wp_bind]
        refine wp_mono (wp_with_run (wp_createAndLockConfig hlayer ⟨data, otp, hread⟩)) ?_
          fun _ hE => hE
        rintro locked s₁ ⟨hrun, htrail₁, hlayer₁⟩
        cases locked with
        | false => exact htrail₁.trans (Trail.exchanged s₁ s₁.bus trivial)
        | true =>
          simp only [Bool.not_true, Bool.false_eq_true, if_false, wp_bind, wp_emit]
          have htrail₂ := htrail₁.trans (Trail.exchanged s₁ s₁.bus
            (show AsIntended (chipEnv openssl uninit) (some content) s
              (.printed "Configuration is locked") from trivial))
          refine wp_mono (wp_writeAndLockData hread hrun rfl (hlayer₁ rfl)) ?_
            fun _ hE => htrail₂.trans hE
          intro both s₃ htrail₃
          have htrail := htrail₂.trans htrail₃
          cases both with
          | false => exact htrail.trans (Trail.exchanged s₃ s₃.bus trivial)
          | true => exact htrail.trans (Trail.exchanged s₃ s₃.bus trivial)

end Run

/-- A configuration file of 16 keys and 16 OTP words, all of them zero. -/
def zeroFile : List UInt8 :=
  (List.replicate 16 (List.replicate 64 48 ++ [10])).flatten ++
    (List.replicate 16 (List.replicate 8 48 ++ [10])).flatten

/-- Over a link without a fault. -/
theorem locked_content_intended_good_link :
    LocksAsIntended (chipEnv replayEnv.openssl replayEnv.uninit) (some zeroFile)
      (linkState fun _ => goodStep) :=
  locked_content_intended _ _ (some zeroFile) (linkState fun _ => goodStep) (linkState_layer _)

end Atsha204.Analysis
