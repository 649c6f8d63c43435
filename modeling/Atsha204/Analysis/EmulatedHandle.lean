import Atsha204.Interface.EmulatedHandle
import Atsha204.Analysis.EmulatedCalls
import Atsha204.Analysis.ServerEmulation

/-!
# What an emulated handle gives back

The zones of a file are offsets of its lines, and only the address of a slot is checked. The
OTP zone is followed by the line of the serial number, which is long enough to be read as a
word: address 16 gives its first four bytes, and the addresses above lead behind the file
(`zones_kept_apart_iff`).

A server has its key and its slot at hand, but the serial number is read as two OTP words,
of which a server has none (`server_gives_back_never`).
-/

set_option autoImplicit false

namespace Atsha204.Analysis

open Atsha204.Library
open Atsha204.Model
open Atsha204.Interface

variable {σ : Type} {env : Env σ}

/-! ## Zones -/

section Zones

variable {layout : ConfigLayout} {handle : AtshaHandle} (h : OverFile layout.text handle)
include h

/-- The word behind the last one is the front of the serial number. -/
theorem storedOtp_sixteen : storedOtp handle 16 = some (layout.sn.bytes.take 4) := by
  simp only [storedOtp, h.device, Bool.false_eq_true, if_false, h.storedLine]
  exact lineBytes_sn_take layout (by decide)

/-- Behind address 16 there is no OTP word. -/
theorem storedOtp_behind {address : ℕ} (haddress : 17 ≤ address) :
    storedOtp handle address = none := by
  simp only [storedOtp, h.device, Bool.false_eq_true, if_false, h.storedLine]
  exact lineBytes_behind layout (by omega) _

end Zones

/-- A read that succeeded gives what is stored. -/
theorem holds_of_read {x : Prog σ (AtshaErr × AtshaBigInt)} {stored : Option Block} {s s' : St σ}
    {r : AtshaBigInt} (hread : wp x (AfterRead stored s) (fun _ => stored = none) s)
    (hrun : x.run s = .ok (.ok, r) s') : ∃ data, stored = some data ∧ Holds r data := by
  have hafter := hread.of_run hrun
  cases stored with
  | none => exact absurd rfl hafter.1
  | some data => exact ⟨data, rfl, hafter.2.1⟩

/-- At address 16 a read succeeds, and gives the front of the serial number. -/
theorem otpRead_sixteen {layout : ConfigLayout} {s : St σ} (h : OverFile layout.text s.handle)
    (env : Env σ) (number : AtshaBigInt) :
    ∃ r s', (atshaRawOtpRead env 16 number).run s = .ok (.ok, r) s' ∧
      Holds r (layout.sn.bytes.take 4) := by
  have hread : wp (atshaRawOtpRead env 16 number) (AfterRead (some (layout.sn.bytes.take 4)) s)
      (fun _ => False) s :=
    wp_read_some (wp_otpRead_emulation h.layer 16 number) (storedOtp_sixteen h)
  obtain ⟨⟨_, r⟩, s', hrun, rfl, hholds, -⟩ := (wp_returns_iff _ _ _).mp hread
  exact ⟨r, s', hrun, hholds⟩

/-- No word of the zone is at address 16. -/
theorem not_otpInZone_sixteen {layout : ConfigLayout} {s : St σ}
    (h : OverFile layout.text s.handle) (env : Env σ) : ¬ OtpInZone layout s 16 := by
  intro hzone
  obtain ⟨r, s', hrun, -⟩ := otpRead_sixteen h env (env.uninitBigInt .serialNumberPart)
  obtain ⟨word, hword, -⟩ := hzone env _ r s' hrun
  exact absurd (hword ▸ word.isLt) (by decide : ¬ (16 : UInt8).toNat < 16)

/-- A device over a file keeps its OTP words to their lines, but for address 16. -/
theorem otpInZone_iff {layout : ConfigLayout} {s : St σ} (h : OverFile layout.text s.handle)
    (env : Env σ) (address : UInt8) : OtpInZone layout s address ↔ address ≠ 16 := by
  constructor
  · rintro hzone rfl
    exact not_otpInZone_sixteen h env hzone
  · intro hne env number r s' hrun
    obtain ⟨data, hdata, hholds⟩ := holds_of_read (wp_otpRead_emulation h.layer address number) hrun
    by_cases hword : address.toNat < 16
    · have hstored := storedOtp_layout h ⟨address.toNat, hword⟩
      rw [hdata] at hstored
      exact ⟨⟨address.toNat, hword⟩, rfl, Option.some_inj.mp hstored ▸ hholds⟩
    · have hbehind : address.toNat ≠ 16 := fun heq => hne (UInt8.toNat_inj.mp heq)
      rw [storedOtp_behind h (by omega)] at hdata
      cases hdata

/-- A device over a file always keeps its slots to their lines. -/
theorem slotInZone {layout : ConfigLayout} {s : St σ} (h : OverFile layout.text s.handle)
    (slotNumber : UInt8) : SlotInZone layout s slotNumber := by
  intro env number r s' hrun
  by_cases hslot : slotNumber ≤ atsha204MaxSlotNumber
  · have hlt : slotNumber.toNat < 16 := Nat.lt_succ_of_le (UInt8.le_iff_toNat_le.mp hslot)
    obtain ⟨data, hdata, hholds⟩ := holds_of_read
      (wp_slotRead_emulation h.layer (fun _ => rfl) hslot number) hrun
    rw [storedSlot_layout h ⟨slotNumber.toNat, hlt⟩] at hdata
    exact ⟨⟨slotNumber.toNat, hlt⟩, rfl, Option.some_inj.mp hdata ▸ hholds⟩
  · have hrefused : wp (atshaRawSlotRead env slotNumber number)
        (fun r _ => r.1 = .invalidInput) (fun _ => False) s := by
      rw [atshaRawSlotRead, atshaRawSlotReadWith, if_pos (UInt8.not_le.mp hslot)]
      rfl
    cases hrefused.of_run hrun

/-- A file in the documented layout can be opened. -/
theorem exists_opened (env : Env σ) (layout : ConfigLayout) (before : St σ) :
    ∃ s : St σ, Opened (.emulation (some layout.text)) s ∧ OverFile layout.text s.handle := by
  obtain ⟨_, s, hrun, rfl, hover, -⟩ :=
    (wp_returns_iff _ _ _).mp (@wp_openEmulation_layout σ env layout before)
  exact ⟨s, ⟨env, before, hrun⟩, hover⟩

/-- A handle opened on a file in the documented layout stays one over that file. -/
theorem overFile_of_reached {layout : ConfigLayout} {charSigned : Bool} {s₀ s : St σ}
    (hopened : Opened (.emulation (some layout.text)) s₀) (h : Reached charSigned s₀ s) :
    OverFile layout.text s.handle := by
  have hdevice := reached_resembles hopened h
  exact ⟨hdevice.layer, hdevice.server, hdevice.content⟩

/-- A line without delimiters that holds one small number again and again. -/
def repeatedLine (n : ℕ) (hn : n ≤ 63) (digit : UInt8)
    (hdigit : (hexDigitValue digit).isSome = true) : LayoutLine n where
  items := List.replicate n ⟨[], 0x30, digit⟩
  length_eq := List.length_replicate
  delims := by
    intro item hitem
    rw [List.eq_of_mem_replicate hitem]
    exact fun c hc => absurd hc List.not_mem_nil
  digits := by
    intro item hitem
    rw [List.eq_of_mem_replicate hitem]
    exact ⟨rfl, hdigit⟩
  fits := by
    have hlen : (renderPairs (List.replicate n (⟨[], 0x30, digit⟩ : PairItem UInt8))).length ≤
        (0 + 2) * (List.replicate n (⟨[], 0x30, digit⟩ : PairItem UInt8)).length := by
      apply renderPairs_length_le
      intro item hitem
      rw [List.eq_of_mem_replicate hitem]
      exact Nat.le_refl 0
    rw [List.length_replicate] at hlen
    rw [List.length_append, List.length_singleton]
    omega

/-- A file of zeros, with ones for the serial number. -/
def markedLayout : ConfigLayout where
  keys _ := repeatedLine 32 (by decide) 0x30 rfl
  otp _ := repeatedLine 4 (by decide) 0x30 rfl
  sn := repeatedLine 9 (by decide) 0x31 rfl

/-- A file of zeros, with twos for the OTP words. -/
def twosLayout : ConfigLayout :=
  { markedLayout with otp := fun _ => repeatedLine 4 (by decide) 0x32 rfl }

/-- Whatever was done with the handle, a read of an OTP word or of a slot gives only the line of
that word or slot, exactly when the address of the word is not 16.
SOURCE: emulation.c:349-444, api.c:394-435, api.c:771-807 -/
theorem zones_kept_apart_iff (charSigned : Bool) (layout : ConfigLayout) (s₀ s : St σ)
    (hopened : Opened (.emulation (some layout.text)) s₀) (hreached : Reached charSigned s₀ s)
    (address slotNumber : UInt8) :
    OtpInZone layout s address ∧ SlotInZone layout s slotNumber ↔ address ≠ 16 := by
  have hover := overFile_of_reached hopened hreached
  obtain ⟨env, -⟩ := hopened
  rw [otpInZone_iff hover env address]
  exact and_iff_left (slotInZone hover slotNumber)

/-- Word three and slot seven of the file are kept apart. -/
theorem zones_kept_apart_marked : ∃ s : St (List (Option Frame)),
    Opened (.emulation (some markedLayout.text)) s ∧
      OtpInZone markedLayout s 3 ∧ SlotInZone markedLayout s 7 := by
  obtain ⟨s, hopened, -⟩ := exists_opened replayEnv markedLayout (replayState [])
  exact ⟨s, hopened,
    (zones_kept_apart_iff true markedLayout s s hopened .start 3 7).mpr (by decide)⟩

/-- As word 16 of the file the front of the serial number is given out. -/
theorem zones_overlap : ∃ s : St (List (Option Frame)),
    Opened (.emulation (some markedLayout.text)) s ∧
      (∃ r s', (atshaRawOtpRead replayEnv 16 ⟨0, List.Vector.replicate _ 0⟩).run s =
        .ok (.ok, r) s' ∧ Holds r [1, 1, 1, 1]) ∧
      markedLayout.sn.bytes = List.replicate 9 1 ∧ ¬ OtpInZone markedLayout s 16 := by
  obtain ⟨s, hopened, hover⟩ := exists_opened replayEnv markedLayout (replayState [])
  obtain ⟨r, s', hrun, hholds⟩ :=
    otpRead_sixteen hover replayEnv ⟨0, List.Vector.replicate _ 0⟩
  have hsn : markedLayout.sn.bytes = List.replicate 9 1 := List.map_replicate
  rw [hsn] at hholds
  exact ⟨s, hopened, ⟨r, s', hrun, hholds⟩, hsn, not_otpInZone_sixteen hover replayEnv⟩

/-! ## What a server was opened with -/

section Server

variable {slotId : UInt8} {serialNumber key : Block}

/-- A handle that was opened as a server from a serial number and a key stays one for them. -/
theorem server_of_reached {charSigned : Bool} {s₀ s : St σ} (hsn : serialNumber.length = 8)
    (hkey : key.length = 32) (hopened : Opened (.server slotId (some serialNumber) (some key)) s₀)
    (h : Reached charSigned s₀ s) :
    s.handle.bottomLayer = .emulation ∧ s.handle.isSrvEmulation = true ∧ s.handle.file = none ∧
      s.handle.slotId = slotId ∧ s.handle.sn = some serialNumber ∧ s.handle.key = some key := by
  have hdevice := reached_resembles hopened h
  have hsnCopy : copyOut serialNumber (2 * atsha204OtpByteLen) = some serialNumber :=
    copyOut_all hsn
  have hkeyCopy : copyOut key atsha204SlotByteLen = some key := copyOut_all hkey
  exact ⟨hdevice.layer, hdevice.server, Option.map_eq_none_iff.mp hdevice.content, hdevice.slotId,
    hdevice.sn.trans hsnCopy, hdevice.key.trans hkeyCopy⟩

/-- A server has no OTP words to take the serial number from.
SOURCE: api.c:658-678, emulation.c:426-430 -/
theorem not_serialGivenBack {s : St σ} (hlayer : s.handle.bottomLayer = .emulation)
    (hserver : s.handle.isSrvEmulation = true) (env : Env σ) (serialNumber : Block) :
    ¬ SerialGivenBack serialNumber s := by
  intro hserial
  obtain ⟨r, s', hrun, -⟩ := hserial env (env.uninitBigInt .serialNumberPart)
  have hnone : storedSerial s.handle = none := by
    rw [storedSerial, storedOtp, if_pos hserver]
    rfl
  obtain ⟨data, hdata, -⟩ := holds_of_read (wp_serialNumber_emulation hlayer _) hrun
  rw [hnone] at hdata
  cases hdata

/-- A server knows its slot.
SOURCE: dnsmagic.c:115-117 -/
theorem findSlotNumber_server {s : St σ} (hserver : s.handle.isSrvEmulation = true) (env : Env σ)
    (charSigned : Bool) (dns : Resolution) :
    (atshaFindSlotNumber env charSigned dns).run s = .ok s.handle.slotId s := by
  apply (run_eq_ok_iff _ _ _ _).mpr
  rw [atshaFindSlotNumber, wp_bind, wp_getHandle, if_pos hserver]
  exact ⟨rfl, rfl⟩

/-- A server whose slot is in range gives its key back.
SOURCE: api.c:387-435, emulation.c:376-398 -/
theorem keyGivenBack_of_server {s : St σ} (hlayer : s.handle.bottomLayer = .emulation)
    (hserver : s.handle.isSrvEmulation = true) (hslot : s.handle.slotId ≤ atsha204MaxSlotNumber)
    (hstored : s.handle.key = some key) (hlen : key.length = 32) : KeyGivenBack key s := by
  intro env charSigned dns number
  have hkey : storedSlot s.handle s.handle.slotId.toNat = some key := by
    rw [storedSlot, if_pos hserver, hstored]
    exact copyOut_all hlen
  have hread : wp (atshaRawSlotRead env s.handle.slotId number) (AfterRead (some key) s)
      (fun _ => False) s :=
    wp_read_some (wp_slotRead_emulation hlayer (fun _ => rfl) hslot number) hkey
  obtain ⟨⟨_, r⟩, s', hrun, rfl, hholds, -⟩ := (wp_returns_iff _ _ _).mp hread
  have hgood : s.handle.slotId ≠ dnsErrConst := by
    intro hbad
    rw [hbad] at hslot
    exact absurd hslot (by decide)
  refine ⟨r, s', ?_, hholds⟩
  rw [atshaSlotRead, withSlotNumber, run_bind_of_run (findSlotNumber_server hserver env charSigned dns),
    if_neg hgood]
  exact hrun

end Server

/-- A server that was opened with a slot, a serial number of eight bytes and a key of thirty-two
gives back the key and the slot after any calls, from memory alone, but never the serial number.
SOURCE: api.c:259-291, api.c:658-678, emulation.c:349-398 -/
theorem server_gives_back_never (charSigned : Bool) (slotId : UInt8) (serialNumber key : Block)
    (hslot : slotId ≤ 15) (hsn : serialNumber.length = 8) (hkey : key.length = 32) (s₀ s : St σ)
    (hopened : Opened (.server slotId (some serialNumber) (some key)) s₀)
    (hreached : Reached charSigned s₀ s) :
    ¬ GivesBack slotId serialNumber key s ∧
      s.handle.file = none ∧ KeyGivenBack key s ∧ SlotGivenBack slotId s := by
  obtain ⟨hlayer, hserver, hfile, rfl, -, hstored⟩ := server_of_reached hsn hkey hopened hreached
  obtain ⟨env, -⟩ := hopened
  refine ⟨?_, hfile, keyGivenBack_of_server hlayer hserver hslot hstored hkey, ?_⟩
  · intro hback
    exact not_serialGivenBack hlayer hserver env serialNumber hback.serial
  · intro env charSigned dns
    exact ⟨s, findSlotNumber_server hserver env charSigned dns⟩

/-- A server for slot three with zeros for its serial number and its key. -/
theorem server_gives_back_never_zero :
    ¬ GivesBack 3 (List.replicate 8 0) (List.replicate 32 0) zeroServerState ∧
      zeroServerState.handle.file = none ∧ KeyGivenBack (List.replicate 32 0) zeroServerState ∧
      SlotGivenBack 3 zeroServerState :=
  server_gives_back_never true 3 _ _ (by decide) List.length_replicate List.length_replicate
    zeroServerState zeroServerState ⟨replayEnv, replayState [], rfl⟩ .start

/-- Asked for its serial number that server says that this is not implemented. -/
theorem server_serial_lost : Opened zeroServer zeroServerState ∧
    (∃ s', (atshaSerialNumber replayEnv ⟨0, List.Vector.replicate _ 0⟩).run zeroServerState =
      .ok (.notImplemented, ⟨0, List.Vector.replicate _ 0⟩) s') ∧
    ¬ SerialGivenBack (List.replicate 8 0) zeroServerState :=
  ⟨⟨replayEnv, replayState [], rfl⟩, ⟨_, rfl⟩, not_serialGivenBack rfl rfl replayEnv _⟩

end Atsha204.Analysis
