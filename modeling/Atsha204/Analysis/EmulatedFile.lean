import Atsha204.Analysis.EmulatedStorage

/-!
# A device opened on a file in the documented layout

`atsha_open_emulation` succeeds on every file in the documented layout
(`wp_openEmulation_layout`), and whatever is then read of the device, in any order and any
number of times, is what the file says (`emulated_storage_reads_file`).
-/

set_option autoImplicit false

namespace Atsha204.Analysis

open Atsha204.Library
open Atsha204.Model
open Atsha204.Interface

variable {σ : Type} {env : Env σ}

/-- The handle stands for an emulated device, not a server, over a file with this content. -/
structure OverFile (content : List UInt8) (handle : AtshaHandle) : Prop where
  layer : handle.bottomLayer = .emulation
  device : handle.isSrvEmulation = false
  file : handle.file.map File.content = some content

/-- What keeps the handle keeps it over its file. -/
theorem OverFile.kept {content : List UInt8} {s s' : St σ} {expected : Bool}
    (h : OverFile content s.handle) (hkept : Kept (flagged expected s) s') :
    OverFile content s'.handle := by
  refine ⟨hkept.bottomLayer.trans h.layer, ?_, hkept.content.trans h.file⟩
  rw [hkept.handle]
  exact h.device

/-- What is stored in a line are the bytes of the line. -/
theorem OverFile.storedLine {content : List UInt8} {handle : AtshaHandle}
    (h : OverFile content handle) (k count : ℕ) :
    storedLine handle k count = lineBytes content k count := by
  obtain ⟨file, hfile, rfl⟩ := Option.map_eq_some_iff.mp h.file
  rw [Interface.storedLine, hfile, Option.bind_some]

section Layout

variable {layout : ConfigLayout} {handle : AtshaHandle} (h : OverFile layout.text handle)
include h

/-- The slots store the keys of the layout. -/
theorem storedSlot_layout (slot : Fin 16) :
    storedSlot handle slot = some (layout.keys slot).bytes := by
  simp only [storedSlot, h.device, Bool.false_eq_true, if_false, h.storedLine]
  exact lineBytes_keys layout slot

/-- The OTP words are those of the layout. -/
theorem storedOtp_layout (word : Fin 16) :
    storedOtp handle word = some (layout.otp word).bytes := by
  simp only [storedOtp, h.device, Bool.false_eq_true, if_false, h.storedLine]
  exact lineBytes_otp layout word

/-- The serial number is its first two OTP words. -/
theorem storedSerial_layout :
    storedSerial handle = some ((layout.otp 0).bytes ++ (layout.otp 1).bytes) := by
  have hfirst := storedOtp_layout h 0
  have hsecond := storedOtp_layout h 1
  simp only [storedSerial, Fin.val_zero, Fin.val_one] at hfirst hsecond ⊢
  rw [hfirst, hsecond]
  rfl

/-- The serial number of the chip is that of the layout. -/
theorem storedSn_layout : storedSn handle = some layout.sn.bytes := by
  simp only [storedSn, h.device, Bool.false_eq_true, if_false, h.storedLine]
  exact lineBytes_sn layout

end Layout

/-- A read whose data are there. -/
theorem wp_read_some {x : Prog σ (AtshaErr × AtshaBigInt)} {stored : Option Block} {data : Block}
    {s : St σ} (hread : wp x (AfterRead stored s) (fun _ => stored = none) s)
    (hdata : stored = some data) : wp x (AfterRead (some data) s) (fun _ => False) s := by
  subst hdata
  exact wp_mono hread (fun _ _ hr => hr) fun _ hnone => by cases hnone

/-! ## Opening -/

/-- The number that a call returned can be copied out. -/
theorem copyOut_of_holds {number : AtshaBigInt} {data : Block} (h : Holds number data)
    (hlen : data.length ≤ 32) : copyOut number.data.val number.bytes = some data := by
  have hfits : number.bytes ≤ number.data.val.length := by
    rw [number.data.property, h.bytes_eq]
    exact hlen
  rw [copyOut_of_le hfits, h.bytes_eq, h.take_eq]

/-- A buffer holds the four bytes. -/
theorem uint32From4Bytes_isSome (buffer : List.Vector UInt8 atshaMaxDataSize) :
    ∃ n, uint32From4Bytes buffer.val = some n := by
  have hlen : buffer.val.length = 32 := buffer.property
  match hcells : buffer.val with
  | [] | [_] | [_, _] | [_, _, _] => rw [hcells] at hlen; simp at hlen
  | b0 :: b1 :: b2 :: b3 :: _ => exact ⟨_, rfl⟩

/-- What a file in the documented layout is opened to: a device over it, asleep, with the
serial number of the file cached.
SOURCE: api.c:208-257 -/
theorem wp_openEmulation_layout (layout : ConfigLayout) (s : St σ) :
    wp (atshaOpenEmulation env (some layout.text)) (fun opened s' => opened = true ∧
      OverFile layout.text s'.handle ∧ s'.handle.wakeIsExpected = false ∧
        s'.handle.sn = some ((layout.otp 0).bytes ++ (layout.otp 1).bytes))
      (fun _ => False) s := by
  simp only [atshaOpenEmulation, wp_bind, wp_modifyHandle]
  set s₀ : St σ := { s with handle := { callocHandle with file := some ⟨layout.text, layout.text⟩ } }
    with hs₀
  have hover : OverFile layout.text s₀.handle := ⟨rfl, rfl, rfl⟩
  have hserial := @wp_serialNumber_emulation σ env s₀ hover.layer
    (env.uninitBigInt .openEmulationNumber)
  refine wp_mono (wp_read_some hserial (storedSerial_layout hover)) ?_ fun _ hF => hF
  rintro ⟨_, number⟩ s₁ ⟨rfl, hholds, hkept⟩
  have hlen : ((layout.otp 0).bytes ++ (layout.otp 1).bytes).length ≤ 32 := by simp
  simp only [ne_eq, not_true_eq_false, if_false, wp_bind, wp_access, copyOut_of_holds hholds hlen,
    wp_modifyHandle]
  set s₂ : St σ := { s₁ with handle := { s₁.handle with
    sn := some ((layout.otp 0).bytes ++ (layout.otp 1).bytes) } } with hs₂
  have hover₂ : OverFile layout.text s₂.handle :=
    ⟨(hover.kept hkept).layer, (hover.kept hkept).device, (hover.kept hkept).file⟩
  have horigin := @wp_otpRead_emulation σ env s₂ hover₂.layer atsha204OtpMemoryMapOriginKeySet number
  refine wp_mono (wp_read_some horigin (storedOtp_layout hover₂ 2)) ?_ fun _ hF => hF
  rintro ⟨_, number'⟩ s₃ ⟨rfl, -, hkept'⟩
  obtain ⟨keyOrigin, horigin⟩ := uint32From4Bytes_isSome number'.data
  simp only [not_true_eq_false, if_false, wp_bind, wp_access, horigin, wp_modifyHandle, wp_pure,
    true_and]
  have hover₃ := hover₂.kept hkept'
  refine ⟨⟨hover₃.layer, hover₃.device, hover₃.file⟩, ?_, ?_⟩
  · rw [hkept'.handle]
    rfl
  · rw [hkept'.handle]
    rfl

/-! ## Reading -/

/-- Every read of the storage gives what the layout says. -/
theorem stored_layout {layout : ConfigLayout} {handle : AtshaHandle}
    (h : OverFile layout.text handle) (read : StorageRead) :
    read.stored handle = some (read.bytes layout) := by
  cases read with
  | slot slotNumber => exact storedSlot_layout h slotNumber
  | otp address => exact storedOtp_layout h address
  | serialNumber => exact storedSerial_layout h
  | chipSerialNumber => exact storedSn_layout h

/-- Any reads of the device give the bytes of the file. -/
theorem readsBack_of_overFile {layout : ConfigLayout} (reads : List (StorageRead × AtshaBigInt))
    {s : St σ} (h : OverFile layout.text s.handle) : ReadsBack env layout reads s := by
  induction reads generalizing s with
  | nil => trivial
  | cons head reads ih =>
    obtain ⟨read, number⟩ := head
    obtain ⟨⟨_, r⟩, s', hrun, rfl, hholds, hkept⟩ := (wp_returns_iff _ _ _).mp
      (wp_read_some (@wp_storageRead σ env s h.layer read number) (stored_layout h read))
    exact ⟨r, s', hrun, hholds, ih (h.kept hkept)⟩

/-- A file in the documented layout can be opened, and every read of the device that follows,
whatever was read before it, gives the bytes of its line of the file.
SOURCE: mainpage.dox:28-40, emulation.c:281-451 -/
theorem emulated_storage_reads_file (env : Env σ) (layout : ConfigLayout) (s : St σ) :
    ∃ s₁, (atshaOpenEmulation env (some layout.text)).run s = .ok true s₁ ∧
      ∀ reads : List (StorageRead × AtshaBigInt), ReadsBack env layout reads s₁ := by
  obtain ⟨_, s₁, hrun, rfl, hover, -⟩ :=
    (wp_returns_iff _ _ _).mp (@wp_openEmulation_layout σ env layout s)
  exact ⟨s₁, hrun, fun reads => readsBack_of_overFile reads hover⟩

end Atsha204.Analysis
