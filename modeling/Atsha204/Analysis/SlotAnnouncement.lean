import Atsha204.Analysis.EmulatedHandle
import Atsha204.Interface.SlotAnnouncement

/-!
# Which slot is chosen

The value of the characters, the truncations of the number and of the difference, and even
the bytes that `uint32_from_4_bytes` shifts out of its result, all agree modulo 256. So the
slot that is found is the value of the characters less the origin, modulo 256
(`findSlotNumber_run`).

A slot that is announced is therefore found (`announced_slot_found`), and found again from
the cache. But so is one that is not: no character is looked at, and any string whose value
comes out between 0 and 15 modulo 256 chooses a slot (`slot_chosen_iff`), a single colon
for one (`slot_chosen_fails`).
-/

set_option autoImplicit false

namespace Atsha204.Analysis

open Atsha204.Library
open Atsha204.Model
open Atsha204.Interface

variable {σ : Type} {env : Env σ} {charSigned : Bool}

/-! ## Arithmetic modulo 256 -/

/-- The wrapped fold over the characters agrees with their value modulo 256.
SOURCE: dnsmagic.c:54-58 -/
theorem foldl_digits_mod (chars : List UInt8) (res : UInt32) (value : Int)
    (h : (res.toNat : Int) % 256 = value % 256) :
    ((chars.foldl (fun res c => res * 10 + (c - 0x30).toUInt32) res).toNat : Int) % 256 =
      (chars.foldl (fun value c => 10 * value + ((c.toNat : Int) - 0x30)) value) % 256 := by
  induction chars generalizing res value with
  | nil => exact h
  | cons c chars ih =>
    apply ih
    have hdigit : ((c - 0x30).toUInt32).toNat = (c.toNat + 208) % 256 := by
      rw [UInt8.toNat_toUInt32, UInt8.toNat_sub]
      change (2 ^ 8 - 48 + c.toNat) % 2 ^ 8 = _
      omega
    rw [UInt32.toNat_add, UInt32.toNat_mul, hdigit]
    change (((res.toNat * 10 % 2 ^ 32 + (c.toNat + 208) % 256) % 2 ^ 32 : ℕ) : Int) % 256 =
      (10 * value + ((c.toNat : Int) - 0x30)) % 256
    omega

/-- The number of a record whose length byte is read as it is. -/
theorem numberFromString_mod {rdata : TxtRdata} (h : LengthRead charSigned rdata) :
    ∃ number, numberFromString (charValue charSigned rdata.length) rdata.text = some number ∧
      (number.toNat : Int) % 256 = positionalValue (string rdata) % 256 := by
  have hlen : charValue charSigned rdata.length = (rdata.length.toNat : Int) := by
    unfold charValue
    rw [if_neg]
    rintro ⟨hsigned, hbig⟩
    rcases h with hunsigned | hsmall
    · rw [hunsigned] at hsigned
      cases hsigned
    · omega
  refine ⟨_, ?_, foldl_digits_mod (string rdata) 0 0 rfl⟩
  rw [numberFromString, hlen, if_neg (by omega), Int.toNat_natCast, copyOut_of_le rdata.fits]
  rfl

/-- A length byte that is read as a negative number leads out of the record. -/
theorem numberFromString_none {rdata : TxtRdata} (h : ¬ LengthRead charSigned rdata) :
    numberFromString (charValue charSigned rdata.length) rdata.text = none := by
  unfold LengthRead at h
  rw [not_or, Bool.not_eq_false, not_lt] at h
  have hlt := rdata.length.toNat_lt
  have hneg : charValue charSigned rdata.length < 0 := by
    unfold charValue
    rw [if_pos h]
    omega
  rw [numberFromString, if_pos hneg]
  rfl

/-- What is shifted by eight leaves the low byte free. -/
theorem shifted_or_mod (x : UInt32) (b : UInt8) :
    (x <<< 8 ||| b.toUInt32).toNat % 256 = b.toNat := by
  have hshift : (x <<< 8).toNat % 256 = 0 := by
    rw [UInt32.toNat_shiftLeft]
    change x.toNat <<< 8 % 2 ^ 32 % 256 = 0
    rw [Nat.shiftLeft_eq]
    omega
  have hor := @Nat.or_mod_two_pow (x <<< 8).toNat b.toNat 8
  change _ % 256 = _ % 256 ||| _ % 256 at hor
  rw [UInt32.toNat_or, UInt8.toNat_toUInt32, hor, hshift, Nat.zero_or, Nat.mod_eq_of_lt b.toNat_lt]

/-- The origin that is assembled agrees with the record modulo 256.
SOURCE: tools.c:41-50 -/
theorem uint32From4Bytes_mod {origin : Block} (h : origin.length = 4) :
    ∃ keyOrigin, uint32From4Bytes origin = some keyOrigin ∧
      (keyOrigin.toNat : Int) % 256 = (bigEndian origin : Int) % 256 := by
  obtain ⟨b0, b1, b2, b3, rfl⟩ : ∃ b0 b1 b2 b3, origin = [b0, b1, b2, b3] :=
    List.length_eq_four.mp h
  refine ⟨_, rfl, ?_⟩
  have hlow := shifted_or_mod ((((0 ||| b0.toUInt32) <<< 24 ||| b1.toUInt32) <<< 16) |||
    b2.toUInt32) b3
  have hvalue : bigEndian [b0, b1, b2, b3] = 256 * (256 * (256 * (256 * 0 + b0.toNat) +
    b1.toNat) + b2.toNat) + b3.toNat := rfl
  have hlt := b3.toNat_lt
  rw [hvalue]
  omega

/-- Only the first four bytes of a number are looked at. -/
theorem uint32From4Bytes_take (data : Block) :
    uint32From4Bytes data = uint32From4Bytes (data.take 4) := by
  cases data with
  | nil => rfl
  | cons b0 data =>
    cases data with
    | nil => rfl
    | cons b1 data =>
      cases data with
      | nil => rfl
      | cons b2 data => cases data <;> rfl

/-- The two narrowed numbers, subtracted and narrowed again. -/
theorem narrowed_sub {number keyOrigin : UInt32} {value : Int} {origin : ℕ}
    (hnumber : (number.toNat : Int) % 256 = value % 256)
    (horigin : (keyOrigin.toNat : Int) % 256 = (origin : Int) % 256) :
    (((number.toUInt8.toUInt32 - keyOrigin).toUInt8).toNat : Int) = (value - origin) % 256 := by
  have hlt := keyOrigin.toNat_lt
  rw [UInt32.toNat_toUInt8, UInt32.toNat_sub, UInt8.toNat_toUInt32, UInt32.toNat_toUInt8]
  change (((2 ^ 32 - keyOrigin.toNat + number.toNat % 2 ^ 8) % 2 ^ 32 % 2 ^ 8 : ℕ) : Int) = _
  omega

/-! ## The slot that is found -/

/-- A read of the OTP memory makes no server of a device. -/
theorem otpRead_keepsDevice {address : UInt8} {number a : AtshaBigInt} {s s' : St σ}
    (h : (atshaRawOtpRead env address number).run s = .ok (.ok, a) s') :
    s'.handle.isSrvEmulation = s.handle.isSrvEmulation := by
  cases hlayer : s.handle.bottomLayer with
  | emulation =>
    have hread := (wp_otpRead_emulation hlayer address number).of_run h
    cases hstored : storedOtp s.handle address.toNat with
    | none =>
      rw [hstored] at hread
      exact absurd rfl hread.1
    | some data =>
      rw [hstored] at hread
      obtain ⟨-, -, hkept⟩ := hread
      rw [hkept.handle]
      rfl
  | ni2c =>
    rw [otpRead_eq] at h
    obtain ⟨s₁, s₂, hwake, hbody, rfl⟩ := (run_session_ok_iff _ _ _ _ _).mp h
    have hwoken := ((wp_wake_trace hlayer).of_run hwake).1
    have hlayer₁ : s₁.handle.bottomLayer = .ni2c := by rw [hwoken]; exact hlayer
    have hkept := (exchange_keepsHandle hlayer₁ (fun bytes hbytes => by
      rw [← Option.some.inj hbytes]; exact framed_otpReadPacket address)
      (decode_keepsHandle (some 4) number)).of_run hbody
    rw [idled_handle, hkept, hwoken]

/-- The slot that is found is the difference of the two numbers, as a byte. -/
theorem findSlotNumber_run {rdata : TxtRdata} {origin : Block} {s : St σ}
    (h : HasOrigin env s origin) (hlength : LengthRead charSigned rdata) :
    ∃ slot s₁, (atshaFindSlotNumber env charSigned (.record rdata)).run s = .ok slot s₁ ∧
      (slot.toNat : Int) = (positionalValue (string rdata) - bigEndian origin) % 256 ∧
      HasOrigin env s₁ origin := by
  obtain ⟨number, hnumber, hvalue⟩ := numberFromString_mod hlength
  obtain ⟨keyOrigin, horigin, hmod⟩ := uint32From4Bytes_mod h.length
  have hslot := narrowed_sub hvalue hmod
  apply (wp_returns_iff _ _ _).mp
  unfold atshaFindSlotNumber resolveKey
  simp only [wp_bind, wp_getHandle, h.device, Bool.false_eq_true, if_false, wp_access, hnumber,
    wp_pure]
  obtain hcached | hcached := Bool.eq_false_or_eq_true s.handle.keyOriginCached
  · obtain rfl : keyOrigin = s.handle.keyOrigin :=
      Option.some.inj (horigin.symm.trans (h.cached hcached))
    simp only [hcached, if_true, wp_pure]
    exact ⟨hslot, h⟩
  · obtain ⟨number', s', hread, hholds⟩ := h.stored hcached
    have hbytes : uint32From4Bytes number'.data.val = some keyOrigin := by
      rw [uint32From4Bytes_take, ← horigin, ← h.length, hholds.take_eq]
    simp only [hcached, Bool.false_eq_true, if_false, wp_bind, wp_of_run hread, ne_eq,
      not_true_eq_false, hbytes, wp_access, wp_modifyHandle, wp_pure]
    have hdevice : s'.handle.isSrvEmulation = false := (otpRead_keepsDevice hread).trans h.device
    exact ⟨hslot, hdevice, h.length, fun _ => horigin, fun hnot => by cases hnot⟩

/-- Where the origin record cannot be read there is no slot. -/
theorem findSlotNumber_run_unread {rdata : TxtRdata} {s : St σ} (h : OriginUnread env s)
    (hlength : LengthRead charSigned rdata) :
    ∃ s₁, (atshaFindSlotNumber env charSigned (.record rdata)).run s = .ok dnsErrConst s₁ := by
  obtain ⟨number, hnumber, -⟩ := numberFromString_mod hlength
  obtain ⟨status, number', s', hread, hbad⟩ := h.unread
  have hreturns : wp (atshaFindSlotNumber env charSigned (.record rdata))
      (fun slot _ => slot = dnsErrConst) (fun _ => False) s := by
    unfold atshaFindSlotNumber resolveKey
    simp only [wp_bind, wp_getHandle, h.device, h.uncached, Bool.false_eq_true, if_false, wp_access,
      hnumber, wp_pure, wp_of_run hread, ne_eq, hbad, not_false_eq_true, if_true, wp_logMessage]
  obtain ⟨slot, s₁, hrun, rfl⟩ := (wp_returns_iff _ _ _).mp hreturns
  exact ⟨s₁, hrun⟩

/-- A record whose length is misread is read outside of its bytes. -/
theorem findSlotNumber_faults {rdata : TxtRdata} {s : St σ}
    (hdevice : s.handle.isSrvEmulation = false) (hlength : ¬ LengthRead charSigned rdata) :
    wp (atshaFindSlotNumber env charSigned (.record rdata)) (fun _ _ => False) (fun _ => True)
      s := by
  unfold atshaFindSlotNumber resolveKey
  simp only [wp_bind, wp_getHandle, hdevice, Bool.false_eq_true, if_false, wp_access,
    numberFromString_none hlength]

/-! ## The operations -/

/-- Where nothing has happened nothing has been sent. -/
theorem nothingSent_refl (s : St σ) : NothingSent s s := ⟨[], (List.append_nil _).symm, rfl⟩

/-- Nor is anything sent by a line of the log. -/
theorem nothingSent_message (s : St σ) (text : String) :
    NothingSent s (s.exchanged s.bus (.message text)) := ⟨[.message text], rfl, rfl⟩

/-- The operation refuses its input, and sends nothing. -/
def RefusesInput {α : Type} (x : Prog σ (AtshaErr × α)) : Prop :=
  ∀ s, wp x (fun r s' => r.1 = .invalidInput ∧ NothingSent s s') (fun _ => False) s

section NoSlot

variable {dns : Resolution} {slot : UInt8} {s s₁ : St σ}
  (hfound : (atshaFindSlotNumber env charSigned dns).run s = .ok slot s₁)
include hfound

/-- No operation goes on with a slot above the last one. -/
theorem withSlotNumber_refused {α : Type} {out : α} {operation : UInt8 → Prog σ (AtshaErr × α)}
    (hrefuses : RefusesInput (operation slot)) :
    wp (withSlotNumber env charSigned dns out operation)
      (fun r s' => r.1 ≠ .ok ∧ sentSince s₁ s' = []) (fun _ => False) s := by
  unfold withSlotNumber
  rw [wp_bind, wp_of_run hfound]
  by_cases herr : slot = dnsErrConst
  · rw [if_pos herr, wp_pure]
    exact ⟨AtshaErr.noConfusion, (nothingSent_refl s₁).sentSince_eq⟩
  · rw [if_neg herr]
    refine wp_mono (hrefuses s₁) ?_ fun _ h => h
    rintro r s' ⟨hstatus, hsent⟩
    rw [hstatus]
    exact ⟨AtshaErr.noConfusion, hsent.sentSince_eq⟩

/-- An operation on a number that is no slot touches none. -/
theorem automaticOp_refused (hslot : atsha204MaxSlotNumber < slot) (op : AutomaticOp) :
    op.TouchesNoSlot env charSigned dns s s₁ := by
  have hbig : slot > atsha204MaxSlotNumber := hslot
  suffices h : wp (op.run env charSigned dns)
      (fun status s' => status ≠ .ok ∧ sentSince s₁ s' = []) (fun _ => False) s from
    (wp_returns_iff _ _ _).mp h
  cases op with
  | slotRead number =>
    unfold AutomaticOp.run atshaSlotRead
    rw [wp_bind]
    apply withSlotNumber_refused hfound
    intro s
    unfold atshaRawSlotRead atshaRawSlotReadWith
    rw [if_pos hbig]
    exact ⟨rfl, nothingSent_message s _⟩
  | slotWrite number =>
    unfold AutomaticOp.run atshaSlotWrite
    rw [wp_bind]
    apply withSlotNumber_refused hfound
    intro s
    unfold atshaRawSlotWrite
    rw [if_pos hbig]
    exact ⟨rfl, nothingSent_message s _⟩
  | challengeResponse challenge response =>
    unfold AutomaticOp.run atshaChallengeResponse
    rw [wp_bind]
    apply withSlotNumber_refused hfound
    intro s
    unfold atshaLowChallengeResponse
    rw [if_pos hbig]
    exact ⟨rfl, nothingSent_message s _⟩
  | challengeResponseMac challenge response =>
    unfold AutomaticOp.run atshaChallengeResponseMac
    rw [wp_bind]
    apply withSlotNumber_refused hfound
    intro s
    unfold atshaLowChallengeResponseMac
    rw [if_pos hbig]
    exact ⟨rfl, nothingSent_message s _⟩

end NoSlot

/-! ## Announced slots and chosen slots -/

/-- Once a slot is found, only the announcement of it is in question. -/
theorem chosenFromRecord_iff {rdata : TxtRdata} {origin : Block} {slot : UInt8} {s s₁ : St σ}
    (hfound : (atshaFindSlotNumber env charSigned (.record rdata)).run s = .ok slot s₁) :
    ChosenFromRecord env charSigned rdata origin s ↔
      (slot ≤ atsha204MaxSlotNumber → Announces rdata origin slot) := by
  constructor
  · rintro ⟨slot', s', hrun, hannounced, -⟩
    rw [hfound] at hrun
    obtain ⟨rfl, -⟩ := EStateM.Result.ok.inj hrun
    exact hannounced
  · intro h
    exact ⟨slot, s₁, hfound, h, fun hslot => automaticOp_refused hfound hslot⟩

/-- A number is not mistaken exactly when, if it is one of a slot, the record announces it. -/
theorem notMistaken_iff {rdata : TxtRdata} {origin : Block} {slot : UInt8}
    (hlength : LengthRead charSigned rdata)
    (hslot : (slot.toNat : Int) = (positionalValue (string rdata) - bigEndian origin) % 256) :
    NotMistaken charSigned rdata origin ↔
      (slot ≤ atsha204MaxSlotNumber → Announces rdata origin slot) := by
  have hle : slot ≤ atsha204MaxSlotNumber ↔ slot.toNat ≤ 15 := UInt8.le_iff_toNat_le
  rw [hle]
  constructor
  · rintro ⟨-, ⟨hnumeral, hpos, hmax⟩ | hnone⟩ hsmall
    · exact ⟨hnumeral, by omega⟩
    · omega
  · intro h
    refine ⟨hlength, ?_⟩
    by_cases hsmall : slot.toNat ≤ 15
    · obtain ⟨hnumeral, hvalue⟩ := h hsmall
      exact .inl ⟨hnumeral, by omega, by omega⟩
    · exact .inr (by omega)

/-- A slot is chosen from a meaningful record exactly when the record is not mistaken for
another one; where the origin cannot be read none is chosen, and only the length byte can
lead outside of the record.
SOURCE: dnsmagic.c:47-137 -/
theorem slot_chosen_iff (env : Env σ) (charSigned : Bool) (rdata : TxtRdata) (origin : Block)
    (s : St σ) :
    (HasOrigin env s origin →
      (ChosenFromRecord env charSigned rdata origin s ↔ NotMistaken charSigned rdata origin)) ∧
    (OriginUnread env s →
      (ChosenFromRecord env charSigned rdata origin s ↔ LengthRead charSigned rdata)) := by
  have hfaults : s.handle.isSrvEmulation = false → ¬ LengthRead charSigned rdata →
      ¬ ChosenFromRecord env charSigned rdata origin s := by
    rintro hdevice hlength ⟨slot, s₁, hrun, -⟩
    exact (findSlotNumber_faults hdevice hlength).of_run hrun
  constructor
  · intro h
    by_cases hlength : LengthRead charSigned rdata
    · obtain ⟨slot, s₁, hfound, hslot, -⟩ := findSlotNumber_run h hlength
      rw [chosenFromRecord_iff hfound, notMistaken_iff hlength hslot]
    · exact iff_of_false (hfaults h.device hlength) fun hnot => hlength hnot.1
  · intro h
    by_cases hlength : LengthRead charSigned rdata
    · obtain ⟨s₁, hfound⟩ := findSlotNumber_run_unread h hlength
      rw [chosenFromRecord_iff hfound]
      exact iff_of_true (fun hle => absurd hle (by decide)) hlength
    · exact iff_of_false (hfaults h.device hlength) hlength

/-- A handle over it whose origin record is not cached. -/
def uncachedState : St (List (Option Frame)) :=
  ⟨{ callocHandle with file := some ⟨twosLayout.text, twosLayout.text⟩ }, [], []⟩

/-- Over a file in the documented layout the origin is the third OTP word. -/
theorem hasOrigin_layout (env : Env σ) {layout : ConfigLayout} {s : St σ}
    (h : OverFile layout.text s.handle) (huncached : s.handle.keyOriginCached = false) :
    HasOrigin env s (layout.otp 2).bytes := by
  refine ⟨h.device, layoutLine_bytes_length _, fun hcached => ?_, fun _ => ?_⟩
  · rw [huncached] at hcached
    cases hcached
  · have hword : storedOtp s.handle atsha204OtpMemoryMapOriginKeySet.toNat =
        some (layout.otp 2).bytes := storedOtp_layout h 2
    obtain ⟨⟨_, number⟩, s', hrun, rfl, hholds, -⟩ := (wp_returns_iff _ _ _).mp
      (wp_read_some (wp_otpRead_emulation h.layer _ _) hword)
    exact ⟨number, s', hrun, hholds⟩

/-- The origin of this handle are the twos of its file. -/
theorem uncachedState_hasOrigin : HasOrigin replayEnv uncachedState [2, 2, 2, 2] := by
  have hover : OverFile twosLayout.text uncachedState.handle := ⟨rfl, rfl, rfl⟩
  have hbytes : (twosLayout.otp 2).bytes = [2, 2, 2, 2] := rfl
  exact hbytes ▸ hasOrigin_layout replayEnv hover rfl

/-- A record whose value is the origin of this file and three. -/
def threeRecord : TxtRdata := ⟨8, [0x33, 0x33, 0x36, 0x38, 0x36, 0x30, 0x32, 0x31], le_rfl⟩

/-- Behind this origin the record announces slot three. -/
theorem threeRecord_announces : Announces threeRecord [2, 2, 2, 2] 3 :=
  ⟨⟨by decide, by decide +kernel⟩, by decide +kernel⟩

/-- A handle whose origin record, all zeros, is cached. -/
def cachedState : St (List (Option Frame)) :=
  ⟨{ callocHandle with keyOriginCached := true }, [], []⟩

/-- Its origin is the one that is cached. -/
theorem cachedState_hasOrigin : HasOrigin replayEnv cachedState [0, 0, 0, 0] :=
  ⟨rfl, rfl, fun _ => rfl, fun hnot => by cases hnot⟩

/-- The string of one character. -/
def characterRecord (c : UInt8) : TxtRdata := ⟨1, [c], le_rfl⟩

/-- The record with eight digits chooses the third slot as it should. -/
theorem slot_chosen_three :
    ChosenFromRecord replayEnv true threeRecord [2, 2, 2, 2] uncachedState :=
  ((slot_chosen_iff replayEnv true threeRecord [2, 2, 2, 2] uncachedState).1
    uncachedState_hasOrigin).mpr
      ⟨.inr (by decide),
        .inl ⟨threeRecord_announces.1, by decide +kernel, by decide +kernel⟩⟩

/-- A colon is taken for a digit, the one behind nine. -/
theorem slot_chosen_fails : ¬ ∀ (σ : Type) (env : Env σ) (charSigned : Bool) (rdata : TxtRdata)
    (origin : Block) (s : St σ), HasOrigin env s origin →
      ChosenFromRecord env charSigned rdata origin s := by
  intro h
  have hlength : LengthRead true (characterRecord 0x3A) := .inr (by decide)
  obtain ⟨slot, s₁, hfound, hslot, -⟩ := findSlotNumber_run cachedState_hasOrigin hlength
  have hten : (slot.toNat : Int) = 10 := hslot
  have hannounces := (chosenFromRecord_iff hfound).mp
    (h _ replayEnv true (characterRecord 0x3A) [0, 0, 0, 0] cachedState cachedState_hasOrigin)
    (UInt8.le_iff_toNat_le.mpr (by change slot.toNat ≤ 15; omega))
  exact absurd (hannounces.1.2 0x3A List.mem_cons_self) (by decide)

/-- A slot that is announced is found, and found again as often as it is asked for.
SOURCE: dnsmagic.c:47-137 -/
theorem announced_slot_found (env : Env σ) (charSigned : Bool) (rdata : TxtRdata) (origin : Block)
    (slot : UInt8) (s : St σ) (horigin : HasOrigin env s origin) (hlen : rdata.length.toNat ≤ 127)
    (hannounces : Announces rdata origin slot) (hslot : slot ≤ atsha204MaxSlotNumber) (n : ℕ) :
    ∃ s', (askRepeatedly env charSigned rdata n).run s = .ok (List.replicate n slot) s' := by
  have hlength : LengthRead charSigned rdata := .inr (Nat.lt_succ_of_le hlen)
  have hle : slot.toNat ≤ 15 := UInt8.le_iff_toNat_le.mp hslot
  induction n generalizing s with
  | zero => exact ⟨s, rfl⟩
  | succ n ih =>
    obtain ⟨slot', s₁, hfound, hvalue, horigin₁⟩ := findSlotNumber_run horigin hlength
    obtain rfl : slot' = slot := by
      apply UInt8.toNat_inj.mp
      have hdiff := hannounces.2
      omega
    obtain ⟨s', hrest⟩ := ih s₁ horigin₁
    refine ⟨s', ?_⟩
    rw [askRepeatedly, run_bind_of_run hfound, run_bind_of_run hrest]
    rfl

/-- The third slot is read off the file, and then off the cache. -/
theorem announced_slot_found_three : ∃ s', (askRepeatedly replayEnv true threeRecord 2).run
    uncachedState = .ok [3, 3] s' :=
  announced_slot_found replayEnv true threeRecord [2, 2, 2, 2] 3 uncachedState
    uncachedState_hasOrigin (by decide) threeRecord_announces (by decide) 2

end Atsha204.Analysis
