import Atsha204.Analysis.Communication
import Atsha204.Interface.Chip

/-!
# Exchanges with the chip

What `wake` and `command` do over the link to the chip, whatever the link does. Every
frame that is accepted holds the answer of the chip to the command just written
(`chip_frame_cases`), so a property that the chip keeps while it receives a command is
kept by all attempts to send it, and the answer handed up is one that the chip gave
(`wp_command_chip`).
-/

set_option autoImplicit false

namespace Atsha204.Analysis

open Atsha204.Library
open Atsha204.Model
open Atsha204.Interface

/-! ## Frames -/

/-- The answer in a frame that an answer packet was written into. -/
theorem frameAnswer_overwrite {padding frame : Frame} {data : Block}
    (h : overwrite padding (answerPacket data) = some frame) :
    frameAnswer frame = some (answerPacket data) := by
  unfold overwrite at h
  split at h
  · rename_i hlen
    have hsize : (answerPacket data).length = data.length + 3 := by
      simp [answerPacket, answerBody]
    rw [hsize] at hlen
    have hcount : (UInt8.ofNat (data.length + 3)).toNat = data.length + 3 :=
      ofNat_toNat_of_lt (lt_of_le_of_lt hlen (by decide))
    obtain rfl := Option.some.inj h
    change copyOut (answerPacket data ++ _) (UInt8.ofNat (data.length + 3)).toNat = _
    rw [hcount, copyOut_of_le (by rw [List.length_append, hsize]; omega), List.take_left' hsize]
  · cases h

/-- The answer in a frame that holds an answer packet alone. -/
theorem frameAnswer_frameOf {data : Block} (h : data.length + 3 ≤ buffsizeNi2c) :
    frameAnswer (frameOf (answerPacket data)) = some (answerPacket data) := by
  have hsize : (answerPacket data).length = data.length + 3 := by
    simp [answerPacket, answerBody]
  apply @frameAnswer_overwrite (List.Vector.replicate _ 0)
  rw [overwrite, dif_pos (by rw [hsize]; exact h)]
  refine congrArg some (Subtype.ext ?_)
  change _ ++ (List.replicate buffsizeNi2c 0).drop _ = (_ ++ List.replicate buffsizeNi2c 0).take _
  rw [List.take_append, List.take_of_length_le (by rw [hsize]; exact h), List.drop_replicate,
    List.take_replicate, Nat.min_eq_left (Nat.sub_le _ _)]

/-- The first byte of an answer is its length. -/
theorem peek_answerPacket_zero (data : Block) :
    peek (answerPacket data) 0 = some (UInt8.ofNat (data.length + 3)) := rfl

/-- The count byte is that of a status packet for a single data byte only. -/
theorem count_eq_four_iff {data : Block} (h : data.length + 3 < 256) :
    UInt8.ofNat (data.length + 3) = 4 ↔ data.length = 1 := by
  rw [← UInt8.toNat_inj, ofNat_toNat_of_lt h]
  change data.length + 3 = 4 ↔ _
  omega

/-- A refusal is not accepted.
SOURCE: communication.c:139-157 -/
theorem judgeCommand_refusal {frame : Frame} {refusal : Refusal}
    (h : frameAnswer frame = some (answerPacket refusal.data)) :
    judgeCommand frame = some (.again .badCommunicationStatus) := by
  change frameAnswer frame = some (answerPacket [refusal.status]) at h
  have hcheck : checkPacket (answerPacket [refusal.status]) = some true :=
    checkPacket_answerPacket (by simp)
  have hcount : peek (answerPacket [refusal.status]) 0 = some 4 := rfl
  have hstatus : peek (answerPacket [refusal.status]) 1 = some refusal.status := rfl
  have hrefused : (refusedStatus refusal.status).isSome = true ∧
      refusal.status ≠ atsha204StatusWakeOk := by
    cases refusal <;> decide
  simp [judgeCommand, h, hcheck, hcount, hstatus, hrefused]

/-- Data, and the status of success, are accepted. -/
theorem judgeCommand_data {frame : Frame} {data : Block}
    (h : frameAnswer frame = some (answerPacket data)) (hlen : data.length + 3 < 256)
    (hdata : data.length ≠ 1 ∨ data = success) :
    judgeCommand frame = some (.accept (answerPacket data)) := by
  refine judgeCommand_of_answered h (checkPacket_answerPacket hlen)
    (peek_answerPacket_zero data) fun hfour => ?_
  obtain rfl := hdata.resolve_left (not_not.mpr ((count_eq_four_iff hlen).mp hfour))
  exact ⟨atsha204StatusSucces, rfl, rfl⟩

/-- A damaged answer to a command is asked for again. -/
theorem judgeCommand_damaged (damage : DamagedFrame) :
    judgeCommand damage.frame = some (.again .communication) := by
  simp [judgeCommand, damage.answered, damage.rejected]

/-- So is a damaged answer to a wake. -/
theorem judgeWake_damaged (damage : DamagedFrame) :
    judgeWake damage.frame = some (.again .communication) := by
  simp [judgeWake, damage.answered, damage.rejected]

/-- A frame read from the link is damaged, or holds the answer that waits. -/
theorem chip_read_cases (b : ChipLink) {frame : Frame} (h : (chipBus.read b).1 = some frame) :
    (∃ damage : DamagedFrame, frame = damage.frame) ∨
      ∃ data, b.pending = some data ∧ frameAnswer frame = some (answerPacket data) := by
  simp only [chipBus] at h
  split at h
  · obtain ⟨data, hpending, hover⟩ := Option.bind_eq_some_iff.mp h
    exact .inr ⟨data, hpending, frameAnswer_overwrite hover⟩
  · cases h
  · rename_i damage _
    exact .inl ⟨damage, (Option.some.inj h).symm⟩

/-- An answer that fits the frame can be laid over it. -/
theorem exists_overwrite (padding : Frame) {data : Block} (hlen : data.length + 3 ≤ buffsizeNi2c) :
    ∃ frame, overwrite padding (answerPacket data) = some frame := by
  have hsize : (answerPacket data).length ≤ buffsizeNi2c := by
    simpa [answerPacket, answerBody] using hlen
  unfold overwrite
  rw [dif_pos hsize]
  exact ⟨_, rfl⟩

/-- An intact answer that fits the frame arrives. -/
theorem chip_read_intact {b : ChipLink} {padding : Frame} {data : Block}
    (hreception : b.step.reception = .intact padding) (hpending : b.pending = some data)
    (hlen : data.length + 3 ≤ buffsizeNi2c) :
    ∃ frame, (chipBus.read b).1 = some frame ∧ frameAnswer frame = some (answerPacket data) := by
  obtain ⟨frame, hframe⟩ := exists_overwrite padding hlen
  refine ⟨frame, ?_, frameAnswer_overwrite hframe⟩
  simp [chipBus, hreception, hpending, hframe]

/-- A chip that confirms a wake. -/
theorem judgeWake_wakeOk {frame : Frame}
    (h : frameAnswer frame = some (answerPacket [atsha204StatusWakeOk])) :
    judgeWake frame = some (.accept (answerPacket [atsha204StatusWakeOk])) :=
  judgeWake_of_confirmed h (checkPacket_answerPacket (by decide)) rfl

/-- A chip that saw a damaged wake token. -/
theorem judgeWake_refusal {frame : Frame} {refusal : Refusal}
    (h : frameAnswer frame = some (answerPacket refusal.data)) :
    judgeWake frame = some (.again .communication) := by
  change frameAnswer frame = some (answerPacket [refusal.status]) at h
  have hcheck : checkPacket (answerPacket [refusal.status]) = some true :=
    checkPacket_answerPacket (by simp)
  have hstatus : peek (answerPacket [refusal.status]) 1 = some refusal.status := rfl
  have hne : refusal.status ≠ atsha204StatusWakeOk := by cases refusal <;> decide
  simp [judgeWake, h, hcheck, hstatus, hne]

/-! ## What the chip answers -/

/-- The chip answers a refusal, the status of success, or four or thirty-two bytes. -/
def Answerable (data : Block) : Prop :=
  (∃ refusal : Refusal, data = refusal.data) ∨ data = success ∨ data.length = 4 ∨
    data.length = 32

/-- A read of the chip has as many bytes as its zone byte says. -/
theorem load_length {chip : Chip} {zone : UInt8} {address : ℕ} {data : Block}
    (h : chip.load zone address = some data) :
    data.length = if zone &&& 0x80 = 0 then 4 else 32 := by
  obtain ⟨hle, rfl⟩ := (copyOut_eq_some_iff _ _ _).mp h
  rw [List.length_take]
  omega

/-- What the chip answers a command fits a packet. -/
theorem execute_answerable (chip : Chip) (packet : Block) :
    Answerable (chip.execute packet).2 := by
  unfold Chip.execute
  split
  · rename_i count opcode param1 low high rest
    by_cases hread : opcode = atsha204OpcodeRead
    · rw [if_pos hread]
      cases hload : chip.load param1 low.toNat with
      | none => exact .inl ⟨.parseError, rfl⟩
      | some data =>
        have hlen := load_length hload
        by_cases hsize : param1 &&& 0x80 = 0
        · exact .inr (.inr (.inl (by simpa [hsize] using hlen)))
        · exact .inr (.inr (.inr (by simpa [hsize] using hlen)))
    · rw [if_neg hread]
      split
      · split
        · exact .inr (.inl rfl)
        · exact .inl ⟨.parseError, rfl⟩
      · split
        · split
          · exact .inl ⟨.execError, rfl⟩
          · exact .inr (.inl rfl)
        · exact .inl ⟨.parseError, rfl⟩
  · exact .inl ⟨.parseError, rfl⟩

/-- So does what it answers a command that it may refuse. -/
theorem receive_answerable (chip : Chip) (packet : Block) (refused : Option Refusal) :
    Answerable (chip.receive packet refused).2 := by
  cases refused with
  | none => exact execute_answerable chip packet
  | some refusal => exact .inl ⟨refusal, rfl⟩

/-- Of what the chip can answer, all but the refusals are accepted. -/
theorem judgeCommand_answerable {frame : Frame} {data : Block}
    (h : frameAnswer frame = some (answerPacket data)) (hdata : Answerable data) :
    judgeCommand frame = some (.again .badCommunicationStatus) ∨
      (judgeCommand frame = some (.accept (answerPacket data)) ∧
        ∀ refusal : Refusal, data ≠ refusal.data) := by
  rcases hdata with ⟨refusal, rfl⟩ | rfl | hlen | hlen
  · exact .inl (judgeCommand_refusal h)
  · refine .inr ⟨judgeCommand_data h (by decide) (.inr rfl), fun refusal => ?_⟩
    cases refusal <;> decide
  · refine .inr ⟨judgeCommand_data h (by omega) (.inl (by omega)), ?_⟩
    rintro refusal rfl
    cases hlen
  · refine .inr ⟨judgeCommand_data h (by omega) (.inl (by omega)), ?_⟩
    rintro refusal rfl
    cases hlen

/-! ## Exchanges -/

/-- A wake leaves the chip as it is. -/
theorem wakeExchange_chip (b : ChipLink) : (wakeExchange chipBus b).2.chip = b.chip := by
  simp only [wakeExchange]
  split
  · split
    · change ((chipBus.writeWake _).tick).chip = _
      simp only [chipBus, ChipLink.carry]
      split <;> rfl
    · rfl
  · rfl

/-- A command that is exchanged is received by the chip, as one that it may refuse, or that
it never saw; an answer that is accepted is its answer to the command. -/
theorem commandExchange_chip (packet : Block) (b : ChipLink) : ∃ refused,
    (commandExchange chipBus packet b).2.chip = (b.chip.receive packet refused).1 ∧
    ∀ frame, (commandExchange chipBus packet b).1 = some frame →
      (∃ status, judgeCommand frame = some (.again status)) ∨
        (judgeCommand frame = some (.accept (answerPacket (b.chip.receive packet refused).2)) ∧
          ∀ refusal : Refusal, (b.chip.receive packet refused).2 ≠ refusal.data) := by
  have hanswered : ∀ (b' : ChipLink) (refused : Option Refusal),
      (∀ data, b'.pending = some data → data = (b.chip.receive packet refused).2 ∨
        ∃ refusal : Refusal, data = refusal.data) →
      ∀ frame, (chipBus.read b').1 = some frame →
        (∃ status, judgeCommand frame = some (.again status)) ∨
          (judgeCommand frame = some (.accept (answerPacket (b.chip.receive packet refused).2)) ∧
            ∀ refusal : Refusal, (b.chip.receive packet refused).2 ≠ refusal.data) := by
    intro b' refused hpending frame hframe
    rcases chip_read_cases b' hframe with ⟨damage, rfl⟩ | ⟨data, hdata, hanswer⟩
    · exact .inl ⟨_, judgeCommand_damaged damage⟩
    · rcases hpending data hdata with rfl | ⟨refusal, rfl⟩
      · rcases judgeCommand_answerable hanswer (receive_answerable _ _ _) with hj | hj
        · exact .inl ⟨_, hj⟩
        · exact .inr hj
      · exact .inl ⟨_, judgeCommand_refusal hanswer⟩
  simp only [commandExchange]
  by_cases hworks : b.step.works = true
  · have hwrite : chipBus.write (atsha204I2cWaCommand :: packet) b =
        (true, b.carry (b.chip.receive packet)) := by
      change (if b.step.works then (true, b.carry (b.chip.receive packet)) else (false, b.tick)) = _
      rw [if_pos hworks]
    rw [hwrite]
    simp only [if_true]
    change ∃ refused, ((b.carry (b.chip.receive packet)).tick).chip = _ ∧ _
    cases hfate : b.step.fate with
    | lost =>
      refine ⟨some .parseError, by simp [ChipLink.carry, hfate, ChipLink.tick, Chip.receive], ?_⟩
      exact hanswered _ _ fun data h => by simp [ChipLink.carry, hfate] at h
    | damaged answer =>
      refine ⟨some .parseError, by simp [ChipLink.carry, hfate, ChipLink.tick, Chip.receive], ?_⟩
      refine hanswered _ _ fun data h => .inr ?_
      simp only [ChipLink.carry, hfate, Option.map_eq_some_iff] at h
      obtain ⟨refusal, -, rfl⟩ := h
      exact ⟨refusal, rfl⟩
    | delivered refused =>
      refine ⟨refused, by simp [ChipLink.carry, hfate, ChipLink.tick], ?_⟩
      refine hanswered _ _ fun data h => .inl ?_
      simp only [ChipLink.carry, hfate] at h
      exact (Option.some.inj h).symm
  · have hwrite : chipBus.write (atsha204I2cWaCommand :: packet) b = (false, b.tick) := by
      change (if b.step.works then (true, b.carry (b.chip.receive packet)) else (false, b.tick)) = _
      rw [if_neg hworks]
    rw [hwrite]
    exact ⟨some .parseError, rfl, fun frame hframe => by cases hframe⟩

/-- Idling leaves the chip as it is. -/
theorem idled_chip (openssl : OpenSsl) (uninit : Uninit) (s : St ChipLink) :
    (idled (chipEnv openssl uninit) s).bus.chip = s.bus.chip := by
  cases hlayer : s.handle.bottomLayer with
  | emulation => rw [idled_emulation hlayer]
  | ni2c =>
    rw [idled_ni2c hlayer]
    change (chipBus.write [atsha204I2cWaIdle] s.bus).2.chip = s.bus.chip
    by_cases hworks : s.bus.step.works = true
    · simp [chipBus, hworks, atsha204I2cWaIdle, ChipLink.tick]
    · simp [chipBus, hworks, ChipLink.tick]

end Atsha204.Analysis
