import Atsha204.Analysis.Communication

/-!
# Receiving a frame

`ni2c_read` copies as many bytes of its 84 byte buffer as the first of them says, without
a look at that number, and `check_packet` then reads two bytes behind it. Both stay
inside exactly when the count byte is between 2 and 84 (`received_inside_iff`); a frame
of a silent bus, all bytes 0xFF, leaves the buffer (`received_inside_fails`).
-/

set_option autoImplicit false

namespace Atsha204.Analysis

open Atsha204.Library
open Atsha204.Model
open Atsha204.Interface

variable {σ : Type} {env : Env σ}

/-- The count byte of a frame. -/
def countByte (frame : Frame) : UInt8 := frame.head

/-- The reception of a frame stays inside the bytes received: `ni2c_read` returns; the
answer it gives has as many bytes as the count byte says and is checked inside them; and a
count byte below 3 or above the size of the buffer is rejected, by a bad status or by the
check. -/
def ReceivedInside (env : Env σ) (answer : Option Block) (s : St σ) (frame : Frame) : Prop :=
  wp (ni2cRead env answer)
    (fun r _ => r.1 = .ok → ∃ received passed, r.2 = some received ∧
      received.length = (countByte frame).toNat ∧ checkPacket received = some passed ∧
      ((countByte frame).toNat < 3 ∨ buffsizeNi2c < (countByte frame).toNat → passed = false))
    (fun _ => False) s

/-- The answer is cut out of the frame where the frame is long enough.
SOURCE: layer_ni2c.c:52-57 -/
theorem frameAnswer_eq (frame : Frame) :
    frameAnswer frame = copyOut frame.val (countByte frame).toNat := by
  obtain ⟨_ | ⟨count, rest⟩, hlen⟩ := frame
  · cases hlen
  · rfl

/-- An answer begins with its own length, unless it is empty. -/
theorem framed_of_frameAnswer {frame : Frame} {answer : Block}
    (h : frameAnswer frame = some answer) :
    answer.length = (countByte frame).toNat ∧ (answer = [] ∨ Framed answer) := by
  rw [frameAnswer_eq, copyOut_eq_some_iff] at h
  obtain ⟨hle, rfl⟩ := h
  obtain ⟨_ | ⟨count, rest⟩, hlen⟩ := frame
  · cases hlen
  · change count.toNat ≤ (count :: rest).length at hle
    change ((count :: rest).take count.toNat).length = count.toNat ∧ _
    refine ⟨by rw [List.length_take]; omega, ?_⟩
    cases hcount : count.toNat with
    | zero => exact .inl (by simp [countByte, List.Vector.head, hcount])
    | succ n =>
      have htake : (count :: rest).take count.toNat = count :: rest.take n := by
        rw [hcount, List.take_succ_cons]
      have hlen : ((count :: rest).take count.toNat).length = count.toNat := by
        rw [List.length_take]; omega
      exact .inr ⟨count, rest.take n, htake, hlen.symm⟩

/-- An answer that passes the check begins with its length, which is at least three. -/
theorem framed_of_checkPacket {frame : Frame} {answer : Block}
    (h : frameAnswer frame = some answer) (hcheck : checkPacket answer = some true) :
    Framed answer ∧ 3 ≤ answer.length := by
  obtain ⟨-, rfl | hframed⟩ := framed_of_frameAnswer h
  · cases hcheck
  · refine ⟨hframed, ?_⟩
    by_contra hlt
    by_cases htwo : answer.length = 2
    · rw [checkPacket_of_two hframed htwo] at hcheck
      cases hcheck
    · rw [checkPacket_of_lt_two (by omega) (.inr hframed)] at hcheck
      cases hcheck

/-- What is asked of a reception, in terms of the answer in the frame. -/
theorem receivedInside_iff_frameAnswer {answer : Option Block} {s : St σ} {frame : Frame}
    (hread : (env.bus.read s.bus).1 = some frame) :
    ReceivedInside env answer s frame ↔ ∃ received passed,
      frameAnswer frame = some received ∧ checkPacket received = some passed ∧
        ((countByte frame).toNat < 3 ∨ buffsizeNi2c < (countByte frame).toNat →
          passed = false) := by
  simp only [ReceivedInside, ni2cRead, wp_bind, wp_sysRead, hread, wp_access, frameAnswer]
  cases hcount : peek frame.val 0 with
  | none => simp
  | some count =>
    simp only [Option.bind_eq_bind, Option.bind_some]
    cases hcopy : copyOut frame.val count.toNat with
    | none => simp
    | some received =>
      have hanswer : frameAnswer frame = some received := by simp [frameAnswer, hcount, hcopy]
      simp [(framed_of_frameAnswer hanswer).1]

/-- Of the frames that are read, exactly those with a count byte between 2 and the size of
the buffer are received inside the bytes they have.
SOURCE: layer_ni2c.c:45-58, tools.c:52-65, tools.c:116-145 -/
theorem received_inside_iff (env : Env σ) (answer : Option Block) (s : St σ) (frame : Frame)
    (hread : (env.bus.read s.bus).1 = some frame) :
    ReceivedInside env answer s frame ↔
      2 ≤ (countByte frame).toNat ∧ (countByte frame).toNat ≤ buffsizeNi2c := by
  rw [receivedInside_iff_frameAnswer hread]
  constructor
  · rintro ⟨received, passed, hanswer, hcheck, -⟩
    obtain ⟨hlen, hframed⟩ := framed_of_frameAnswer hanswer
    rw [frameAnswer_eq, copyOut_eq_some_iff, frame.property] at hanswer
    refine ⟨?_, hanswer.1⟩
    by_contra hlt
    rw [checkPacket_of_lt_two (by omega) hframed] at hcheck
    cases hcheck
  · rintro ⟨htwo, hle⟩
    have hanswer : frameAnswer frame = some (frame.val.take (countByte frame).toNat) := by
      rw [frameAnswer_eq, copyOut_of_le (by rw [frame.property]; exact hle)]
    obtain ⟨hlen, hnil | hframed⟩ := framed_of_frameAnswer hanswer
    · rw [hnil] at hlen
      rw [← hlen] at htwo
      cases htwo
    · refine ⟨_, _, hanswer, checkPacket_eq hframed (by omega), ?_⟩
      rintro (hthree | hbig)
      · have hfalse := checkPacket_of_two hframed (by omega)
        rw [checkPacket_eq hframed (by omega)] at hfalse
        exact Option.some.inj hfalse
      · omega

/-- The answer of a wake is received inside its four bytes. -/
theorem received_inside_wakeOk :
    ReceivedInside replayEnv none (replayState [some (frameOf (answerPacket [0x11]))])
      (frameOf (answerPacket [0x11])) :=
  (received_inside_iff replayEnv none _ _ rfl).mpr ⟨by decide +kernel, by decide +kernel⟩

/-- The frame of a silent bus: every byte is 0xFF. -/
def silentFrame : Frame := List.Vector.replicate _ 0xFF

/-- The frame of a silent bus makes `ni2c_read` copy 255 bytes out of 84. -/
theorem received_inside_fails : ¬ ∀ (σ : Type) (env : Env σ) (answer : Option Block) (s : St σ)
    (frame : Frame), (env.bus.read s.bus).1 = some frame → ReceivedInside env answer s frame := by
  intro h
  obtain ⟨received, _, hanswer, -⟩ := (receivedInside_iff_frameAnswer rfl).mp
    (h _ replayEnv none (replayState [some silentFrame]) silentFrame rfl)
  have hnone : frameAnswer silentFrame = none := by decide +kernel
  rw [hnone] at hanswer
  cases hanswer

end Atsha204.Analysis
