import Atsha204.Analysis.DeviceSessions
import Atsha204.Interface.DeviceLink

/-!
# The link to a device can be trusted

A command that is sent again because its answer was lost finds the device with the chip it had, and
with the nonce it had or with none (`Asked`). So whatever the link does, an answer that is accepted
is the one that the device gives (`deviceBus_honest`): without its nonce it refuses, and a refusal
is not accepted. Over a link without faults every inquiry that the device answers goes through at
once (`deviceBus_reliable`).
-/

set_option autoImplicit false

namespace Atsha204.Analysis

open Atsha204.Library
open Atsha204.Model
open Atsha204.Interface

variable {openssl : OpenSsl}

/-! ## The inquiry in a packet -/

/-- Without the two bytes of the checksum the data are left. -/
theorem dropLast_crc (data : Block) (a b : UInt8) : (data ++ [a, b]).dropLast.dropLast = data := by
  rw [show data ++ [a, b] = (data ++ [a]) ++ [b] by simp, List.dropLast_concat,
    List.dropLast_concat]

/-- A packet is read as the inquiry that its parts name. -/
theorem ofPacket_commandPacket {opcode param1 : UInt8} {param2 : UInt16} {data : Block}
    {inquiry : Inquiry} (hpacket : inquiry.packet = commandPacket opcode param1 param2 data)
    (hnamed : Inquiry.named opcode param1 (param2 &&& 0x00FF).toUInt8 (carriedChallenge data) =
      some inquiry) : Inquiry.ofPacket inquiry.packet = some inquiry := by
  have hread : Inquiry.ofPacket (commandPacket opcode param1 param2 data) =
      (Inquiry.named opcode param1 (param2 &&& 0x00FF).toUInt8 (carriedChallenge data)).bind
        fun inquiry => if inquiry.packet = commandPacket opcode param1 param2 data then
          some inquiry else none := by
    simp only [Inquiry.ofPacket, commandPacket, sealed, commandBody, List.cons_append,
      List.nil_append, dropLast_crc]
    rfl
  rw [hpacket, hread, hnamed, Option.bind_some, if_pos hpacket]

/-- The low byte of an address is the address. -/
theorem address_low_byte (address : UInt8) : (address.toUInt16 &&& 0x00FF).toUInt8 = address :=
  Option.some.inj (peek_address 0 0 address [])

/-- A slot stands for itself. -/
theorem slotOf_slot (slot : Fin 16) : slotOf slot = slot := Fin.ext (Nat.mod_eq_of_lt slot.isLt)

/-- The number of a slot stands for it. -/
theorem slotOf_toNat (slot : Fin 16) : slotOf (UInt8.ofNat slot).toNat = slot := by
  rw [slot_toNat, slotOf_slot]

/-- Every inquiry is found in its packet. -/
theorem ofPacket_packet (inquiry : Inquiry) : Inquiry.ofPacket inquiry.packet = some inquiry := by
  have hcarried : ∀ challenge : List.Vector UInt8 32,
      carriedChallenge challenge.val = some challenge := fun challenge => dif_pos challenge.property
  cases inquiry with
  | devRev => exact ofPacket_commandPacket rfl rfl
  | random => exact ofPacket_commandPacket rfl rfl
  | configWord address => exact ofPacket_commandPacket rfl (by rw [address_low_byte]; rfl)
  | configBlock => exact ofPacket_commandPacket rfl rfl
  | otpWord address => exact ofPacket_commandPacket rfl (by rw [address_low_byte]; rfl)
  | slot slotNumber =>
    refine ofPacket_commandPacket rfl ?_
    have hslot : slotOf ((8 * UInt8.ofNat slotNumber).toNat / 8) = slotNumber := by
      revert slotNumber
      decide
    rw [address_low_byte]
    exact congrArg (fun slot => some (Inquiry.slot slot)) hslot
  | nonce challenge =>
    refine ofPacket_commandPacket rfl ?_
    rw [hcarried]
    rfl
  | hmac slotNumber useSn =>
    refine ofPacket_commandPacket rfl ?_
    rw [address_low_byte]
    cases useSn <;> exact congrArg (fun slot => some (Inquiry.hmac slot _)) (slotOf_toNat slotNumber)
  | mac slotNumber challenge useSn =>
    refine ofPacket_commandPacket rfl ?_
    rw [address_low_byte, hcarried]
    cases useSn <;>
      exact congrArg (fun slot => some (Inquiry.mac slot challenge _)) (slotOf_toNat slotNumber)

/-! ## What the device makes of a command -/

/-- A command leaves the chip as it is. -/
theorem receive_chip (device : Device) (noise packet : Block) (refused : Option Refusal) :
    (device.receive openssl noise packet refused).1.chip = device.chip := by
  unfold Device.receive
  repeat' split
  all_goals rfl

/-- Behind some attempts to make an inquiry: the chip is as it was, and the nonce is, unless there
is none any more or the inquiry brings one. -/
structure Asked (inquiry : Inquiry) (device device' : Device) : Prop where
  chip : device'.chip = device.chip
  nonce : device'.nonce = device.nonce ∨ device'.nonce = none ∨
    ∃ challenge, inquiry = .nonce challenge

/-- Before the first attempt the device is as it was. -/
theorem Asked.refl (inquiry : Inquiry) (device : Device) : Asked inquiry device device :=
  ⟨rfl, .inl rfl⟩

/-- Some attempts, and then some more. -/
theorem Asked.trans {inquiry : Inquiry} {device₁ device₂ device₃ : Device}
    (h : Asked inquiry device₁ device₂) (h' : Asked inquiry device₂ device₃) :
    Asked inquiry device₁ device₃ := by
  refine ⟨h'.chip.trans h.chip, ?_⟩
  rcases h'.nonce with heq | hnone
  · rw [heq]
    exact h.nonce
  · exact .inr hnone

/-- What the device does with the inquiry keeps both. -/
theorem asked_receive (device : Device) (noise : Block) (inquiry : Inquiry)
    (refused : Option Refusal) :
    Asked inquiry device (device.receive openssl noise inquiry.packet refused).1 := by
  refine ⟨receive_chip .., ?_⟩
  match refused with
  | some .communicationError => exact .inl rfl
  | some .parseError | some .execError => exact .inr (.inl rfl)
  | none =>
    simp only [Device.receive, ofPacket_packet]
    cases device.reaction openssl inquiry with
    | answers data =>
      cases inquiry with
      | nonce challenge => exact .inr (.inr ⟨challenge, rfl⟩)
      | _ => exact .inr (.inl rfl)
    | refuses => exact .inr (.inl rfl)
    | untold => exact .inr (.inl rfl)
    | unsettled => exact .inr (.inl rfl)

/-- A device that has kept them reacts as before, or refuses. -/
theorem Asked.reaction {inquiry : Inquiry} {device device' : Device}
    (h : Asked inquiry device device') :
    device'.reaction openssl inquiry = device.reaction openssl inquiry ∨
      device'.reaction openssl inquiry = .refuses := by
  obtain ⟨hchip, hnonce⟩ := h
  cases inquiry with
  | hmac slotNumber useSn =>
    rcases hnonce with heq | hnone | ⟨_, ⟨⟩⟩
    · exact .inl (by rw [Device.reaction, Device.reaction, heq, hchip])
    · exact .inr (by rw [Device.reaction, hnone])
  | devRev | random | nonce _ => exact .inl rfl
  | configWord _ | configBlock | otpWord _ | slot _ | mac _ _ _ =>
    exact .inl (by rw [Device.reaction, Device.reaction, hchip])

/-! ## Exchanges -/

section Exchanges

variable {script : ℕ → LinkStep} {noise : ℕ → Block}

/-- A frame read from the link is damaged, or holds the answer that waits. -/
theorem device_read_cases (b : DeviceLink) {frame : Frame}
    (h : ((deviceBus openssl script noise).read b).1 = some frame) :
    (∃ damage : DamagedFrame, frame = damage.frame) ∨
      ∃ data, b.pending = some data ∧ frameAnswer frame = some (answerPacket data) := by
  simp only [deviceBus] at h
  split at h
  · obtain ⟨data, hpending, hover⟩ := Option.bind_eq_some_iff.mp h
    exact .inr ⟨data, hpending, frameAnswer_overwrite hover⟩
  · cases h
  · rename_i damage _
    exact .inl ⟨damage, (Option.some.inj h).symm⟩

/-- An answer that is accepted is the one that waits, and is no refusal. -/
theorem accepted_of_read {b : DeviceLink} {frame : Frame} {answer : Block}
    (hframe : ((deviceBus openssl script noise).read b).1 = some frame)
    (haccept : judgeCommand frame = some (.accept answer)) :
    ∃ data, b.pending = some data ∧ answer = answerPacket data ∧
      ∀ refusal : Refusal, data ≠ refusal.data := by
  rcases device_read_cases b hframe with ⟨damage, rfl⟩ | ⟨data, hdata, hanswer⟩
  · rw [judgeCommand_damaged] at haccept
    cases haccept
  · refine ⟨data, hdata, ?_, ?_⟩
    · rcases judgeCommand_cases frame with hj | ⟨_, -, hj | hj⟩ | ⟨received, hj, hreceived, -⟩
      · simp [hj] at haccept
      · simp [hj] at haccept
      · simp [hj] at haccept
      · rw [hj] at haccept
        obtain rfl := Verdict.accept.inj (Option.some.inj haccept)
        exact Option.some.inj (hreceived.symm.trans hanswer)
    · rintro refusal rfl
      rw [judgeCommand_refusal hanswer] at haccept
      cases haccept

/-- An inquiry that is exchanged reaches the device or not. An answer that is accepted is what the
device has answered then. -/
theorem deviceExchange_cases (b : DeviceLink) (inquiry : Inquiry) :
    let exchanged := commandExchange (deviceBus openssl script noise) inquiry.packet b
    Asked inquiry b.device exchanged.2.device ∧
      ∀ frame answer, exchanged.1 = some frame → judgeCommand frame = some (.accept answer) →
        ∃ data, b.device.receive openssl (noise b.clock) inquiry.packet none =
            (exchanged.2.device, data) ∧ answer = answerPacket data ∧
          ∀ refusal : Refusal, data ≠ refusal.data := by
  intro exchanged
  set react := b.device.receive openssl (noise b.clock) inquiry.packet
  set fate := if b.device.awake = 0 then Fate.lost else (script b.clock).fate
  have hwrite : (deviceBus openssl script noise).write (atsha204I2cWaCommand :: inquiry.packet) b =
      if (script b.clock).works then (true, b.carry fate react) else (false, b.tick) := rfl
  by_cases hworks : (script b.clock).works = true
  · have hexchanged : exchanged = (deviceBus openssl script noise).read (b.carry fate react) := by
      simp only [exchanged, commandExchange, hwrite, hworks, if_true]
    rw [hexchanged]
    change Asked inquiry b.device (b.carry fate react).device ∧ ∀ frame answer, _ → _ → ∃ data,
      react none = ((b.carry fate react).device, data) ∧ _
    cases hfate : fate with
    | lost =>
      refine ⟨.refl _ _, fun frame answer hframe haccept => ?_⟩
      obtain ⟨data, hpending, -⟩ := accepted_of_read hframe haccept
      cases hpending
    | damaged refused =>
      refine ⟨.refl _ _, fun frame answer hframe haccept => ?_⟩
      obtain ⟨data, hpending, -, hno⟩ := accepted_of_read hframe haccept
      obtain ⟨refusal, -, rfl⟩ := Option.map_eq_some_iff.mp hpending
      exact absurd rfl (hno refusal)
    | delivered refused =>
      refine ⟨asked_receive .., fun frame answer hframe haccept => ?_⟩
      obtain ⟨data, hpending, hanswer, hno⟩ := accepted_of_read hframe haccept
      obtain rfl := Option.some.inj hpending
      cases refused with
      | none => exact ⟨_, rfl, hanswer, hno⟩
      | some refusal =>
        cases refusal with
        | communicationError => exact absurd rfl (hno .communicationError)
        | parseError => exact absurd rfl (hno .parseError)
        | execError => exact absurd rfl (hno .execError)
  · have hexchanged : exchanged = (none, b.tick) := by
      simp only [exchanged, commandExchange, hwrite, hworks, Bool.false_eq_true, if_false]
    rw [hexchanged]
    exact ⟨.refl _ _, fun frame answer hframe => by cases hframe⟩

/-- What the device has answered, if it is no refusal, is as its reaction says. -/
theorem tells_of_receive {device device' : Device} {noise : Block} {inquiry : Inquiry} {data : Block}
    (hreceive : device.receive openssl noise inquiry.packet none = (device', data))
    (hno : ∀ refusal : Refusal, data ≠ refusal.data) :
    (device.reaction openssl inquiry).Tells inquiry device (answerPacket data) device' := by
  simp only [Device.receive, ofPacket_packet] at hreceive
  cases hreaction : device.reaction openssl inquiry with
  | answers told =>
    rw [hreaction] at hreceive
    obtain ⟨rfl, rfl⟩ := Prod.mk.inj hreceive
    exact ⟨rfl, rfl, rfl⟩
  | refuses =>
    rw [hreaction] at hreceive
    exact absurd (Prod.mk.inj hreceive).2.symm (hno .execError)
  | untold =>
    rw [hreaction] at hreceive
    obtain ⟨rfl, -⟩ := Prod.mk.inj hreceive
    rfl
  | unsettled => trivial

/-- Where the device has kept what it had, its reaction tells the same of the one before. -/
theorem Asked.tells {inquiry : Inquiry} {device device₁ device' : Device} {answer : Block}
    (h : Asked inquiry device device₁)
    (htells : (device₁.reaction openssl inquiry).Tells inquiry device₁ answer device') :
    (device.reaction openssl inquiry).Tells inquiry device answer device' := by
  rcases @Asked.reaction openssl _ _ _ h with hsame | hrefuses
  · rw [hsame] at htells
    cases hreaction : device.reaction openssl inquiry <;> rw [hreaction] at htells
    · exact ⟨htells.1, htells.2.1.trans h.chip, htells.2.2⟩
    · exact htells
    · exact Eq.trans htells h.chip
    · trivial
  · rw [hrefuses] at htells
    exact htells.elim

/-- What one attempt to make an inquiry comes to. -/
theorem attempt_told {device : Device} {inquiry : Inquiry} {b : DeviceLink}
    (hb : Asked inquiry device b.device) (status : AtshaErr) :
    wp (linkAttempt (commandExchange (deviceBus openssl script noise) inquiry.packet) judgeCommand
        status)
      (fun verdict b' => match verdict with
        | .accept answer =>
          (device.reaction openssl inquiry).Tells inquiry device answer b'.device
        | .again _ => Asked inquiry device b'.device
        | .abort _ => True)
      (fun _ => True) b := by
  obtain ⟨hkept, haccepted⟩ := @deviceExchange_cases openssl script noise b inquiry
  rw [wp, linkAttempt_run]
  cases hframe : (commandExchange (deviceBus openssl script noise) inquiry.packet b).1 with
  | none => exact hb.trans hkept
  | some frame =>
    dsimp only
    cases hjudge : judgeCommand frame with
    | none => trivial
    | some verdict =>
      cases verdict with
      | accept answer =>
        obtain ⟨data, hreceive, rfl, hno⟩ := haccepted frame answer hframe hjudge
        exact hb.tells (tells_of_receive hreceive hno)
      | again status => exact hb.trans hkept
      | abort status => trivial

/-- What all the attempts come to. -/
theorem accepts_told {device : Device} {inquiry : Inquiry} {answer : Block} {n : ℕ}
    {status : AtshaErr} {b b' : DeviceLink}
    (h : Accepts (linkAttempt (commandExchange (deviceBus openssl script noise) inquiry.packet)
      judgeCommand) n status b answer b') (hb : Asked inquiry device b.device) :
    (device.reaction openssl inquiry).Tells inquiry device answer b'.device := by
  induction h with
  | here hattempt => exact (attempt_told hb _).of_run hattempt
  | later hattempt _ ih => exact ih ((attempt_told hb _).of_run hattempt)

/-- A wake leaves the chip as it is. -/
theorem deviceWake_chip (b : DeviceLink) :
    (wakeExchange (deviceBus openssl script noise) b).2.device.chip = b.device.chip := by
  simp only [wakeExchange]
  split
  · split
    · change (((deviceBus openssl script noise).writeWake _).tick).device.chip = _
      simp only [deviceBus, DeviceLink.carry]
      split <;> rfl
    · rfl
  · rfl

/-- All the attempts to wake leave the chip as it is. -/
theorem accepts_woken {answer : Block} {n : ℕ} {status : AtshaErr} {b b' : DeviceLink}
    (h : Accepts (linkAttempt (wakeExchange (deviceBus openssl script noise)) judgeWake) n status b
      answer b') : b'.device.chip = b.device.chip := by
  have hattempt : ∀ (status : AtshaErr) (b : DeviceLink) (verdict : Verdict AtshaErr Block)
      (b' : DeviceLink),
      (linkAttempt (wakeExchange (deviceBus openssl script noise)) judgeWake status).run b =
        .ok verdict b' → b'.device.chip = b.device.chip := by
    intro status b verdict b' hrun
    rw [linkAttempt_run] at hrun
    split at hrun
    · rw [← (EStateM.Result.ok.inj hrun).2]
      exact deviceWake_chip b
    · split at hrun
      · cases hrun
      · rw [← (EStateM.Result.ok.inj hrun).2]
        exact deviceWake_chip b
  induction h with
  | here hrun => exact hattempt _ _ _ _ hrun
  | later hrun _ ih => exact ih.trans (hattempt _ _ _ _ hrun)

/-- What is written on the link leaves the chip as it is. -/
theorem write_chip (bytes : Block) (b : DeviceLink) :
    ((deviceBus openssl script noise).write bytes b).2.device.chip = b.device.chip := by
  simp only [deviceBus]
  split
  · split
    · simp only [DeviceLink.carry]
      split
      · rfl
      · rfl
      · exact receive_chip ..
    · rfl
  · rfl

/-- Whatever the link does, what goes through it can be trusted.
SOURCE: communication.c:90-165 -/
theorem deviceBus_honest (openssl : OpenSsl) (script : ℕ → LinkStep) (noise : ℕ → Block) :
    Honest openssl (deviceBus openssl script noise) DeviceLink.device where
  wakes := by
    rintro b b' ⟨answer, h⟩
    exact accepts_woken h
  answers := fun b b' inquiry answer h => accepts_told h (.refl inquiry b.device)
  idles := write_chip _

/-! ## A link without faults -/

section Good

variable (hgood : ∀ t, (script t).Good)
include hgood

/-- An answer that waits arrives. -/
theorem device_read_good (openssl : OpenSsl) (noise : ℕ → Block) {b : DeviceLink} {data : Block}
    (hpending : b.pending = some data) (hlen : data.length ≤ 32) :
    ∃ frame, (deviceBus openssl script noise).read b = (some frame, b.tick) ∧
      frameAnswer frame = some (answerPacket data) := by
  obtain ⟨padding, hintact⟩ := (hgood b.clock).intact
  obtain ⟨frame, hframe⟩ :=
    exists_overwrite padding ((Nat.add_le_add_right hlen 3).trans (by decide))
  refine ⟨frame, ?_, frameAnswer_overwrite hframe⟩
  simp only [deviceBus, hintact, hpending, Option.bind_some, hframe]

/-- A wake goes through at once. -/
theorem wakes_at_once (openssl : OpenSsl) (noise : ℕ → Block) (b : DeviceLink) :
    ∃ answer b', AtOnce (wakeExchange (deviceBus openssl script noise)) judgeWake b answer b' ∧
      b'.device = { b.device with awake := 3 } := by
  set b₁ := (deviceBus openssl script noise).writeWake b.tick.tick
  have hcarried : b₁ = { b.tick.tick.tick with
      device := { b.device with awake := 3 }
      pending := some [atsha204StatusWakeOk] } := by
    simp only [b₁, deviceBus, DeviceLink.carry, (hgood b.tick.tick.clock).delivered]
    rfl
  obtain ⟨frame, hread, hanswer⟩ := device_read_good hgood openssl noise
    (congrArg DeviceLink.pending hcarried) (by decide)
  have hopen : (deviceBus openssl script noise).openPath b = (true, b.tick) :=
    congrArg (·, b.tick) (hgood b.clock).works
  have hbind : (deviceBus openssl script noise).bindGeneralCall b.tick = (true, b.tick.tick) :=
    congrArg (·, b.tick.tick) (hgood b.tick.clock).works
  refine ⟨_, b₁.tick, ⟨frame, ?_, judgeWake_wakeOk hanswer⟩, congrArg DeviceLink.device hcarried⟩
  simp only [wakeExchange, hopen, hbind, if_true]
  exact hread

/-- An inquiry that is answered goes through at once. -/
theorem answers_at_once (noise : ℕ → Block) {b : DeviceLink} {inquiry : Inquiry} {data : Block}
    (hawake : 0 < b.device.awake)
    (hreaction : b.device.reaction openssl inquiry = .answers data) :
    ∃ b', AtOnce (commandExchange (deviceBus openssl script noise) inquiry.packet) judgeCommand b
      (answerPacket data) b' ∧ b'.device = b.device.behind inquiry.nonceAfter := by
  set b₁ : DeviceLink := { b.tick with
    device := b.device.behind inquiry.nonceAfter
    pending := some data }
  have hreceive : b.device.receive openssl (noise b.clock) inquiry.packet none =
      (b.device.behind inquiry.nonceAfter, data) := by
    simp only [Device.receive, ofPacket_packet, hreaction]
  have hwrite : (deviceBus openssl script noise).write (atsha204I2cWaCommand :: inquiry.packet) b =
      (true, b₁) := by
    change (if (script b.clock).works then (true, b.carry
      (if b.device.awake = 0 then .lost else (script b.clock).fate)
      (b.device.receive openssl (noise b.clock) inquiry.packet)) else (false, b.tick)) = _
    rw [if_pos (hgood b.clock).works, if_neg (Nat.ne_of_gt hawake), (hgood b.clock).delivered]
    simp only [DeviceLink.carry, hreceive, b₁]
  obtain ⟨frame, hread, hanswer⟩ := @device_read_good script hgood openssl noise b₁ data rfl
    (answered_length_le hreaction)
  refine ⟨b₁.tick, ⟨frame, ?_, ?_⟩, rfl⟩
  · simp only [commandExchange, hwrite, if_true]
    exact hread
  · rcases reaction_length hreaction with rfl | hlen | hlen
    · exact judgeCommand_data hanswer (by decide) (.inr rfl)
    · exact judgeCommand_data hanswer (by omega) (.inl (by omega))
    · exact judgeCommand_data hanswer (by omega) (.inl (by omega))

/-- A link without faults can be relied on. -/
theorem deviceBus_reliable (openssl : OpenSsl) (noise : ℕ → Block) :
    Reliable openssl (deviceBus openssl script noise) DeviceLink.device where
  wakes := by
    intro b _
    obtain ⟨answer, b', honce, hdevice⟩ := wakes_at_once hgood openssl noise b
    refine ⟨answer, b', honce, by rw [hdevice], ?_⟩
    rw [hdevice]
    exact Nat.le_succ 2
  answers := by
    intro b inquiry data hawake hreaction
    obtain ⟨b', honce, hdevice⟩ := answers_at_once hgood noise hawake hreaction
    refine ⟨b', honce, ?_⟩
    rw [hdevice]
    exact ⟨rfl, rfl, Nat.le_add_of_sub_le (Nat.le_refl _)⟩
  idles := by
    intro b
    refine ⟨write_chip _ b, ?_⟩
    change (if (script b.clock).works then (true, { b.tick with
      device := { b.device with awake := 0 }, pending := none }) else (false, b.tick)).2.device.awake
        = 0
    rw [if_pos (hgood b.clock).works]

end Good

end Exchanges

end Atsha204.Analysis
