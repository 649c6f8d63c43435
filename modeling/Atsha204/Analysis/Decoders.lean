import Atsha204.Analysis.ApiSessions
import Atsha204.Interface.Packets

/-!
# Decoders inside and outside their answers

An answer that a command returns begins with its length and has at least three bytes
(`wp_command_answer`), which is all that seven of the nine decoders need: `read_long_data`
goes by the count byte, `just_check_status` reads one byte. The other two take a length for
granted and do not look at the count byte; they stay inside the answer exactly when it has
that length (`decoders_inside_iff`). A status of one byte, as the answer to a revision,
is read behind its end (`decoders_inside_fails`).
-/

set_option autoImplicit false

namespace Atsha204.Analysis

open Atsha204.Library
open Atsha204.Model
open Atsha204.Interface

variable {σ : Type} {env : Env σ}

/-! ## Answers of a command -/

/-- On the native I2C layer a good status comes with an answer that begins with its length.
SOURCE: communication.c:127-165 -/
theorem wp_command_answer {s : St σ} (hlayer : s.handle.bottomLayer = .ni2c)
    (rawSlotRead : SlotRead σ) (packet : Block) :
    wp (command env rawSlotRead packet none) (fun reply _ => reply.1 = .ok →
      ∃ answer, reply.2 = some answer ∧ Framed answer ∧ 3 ≤ answer.length) (fun _ => True) s := by
  cases hpacket : sentBytes packet with
  | none =>
    exact wp_mono (wp_command_of_none hlayer hpacket) (fun _ _ h => h.elim) fun _ _ => trivial
  | some bytes =>
    rw [wp_command]
    refine wp_retry_link judgeCommand_givesUpBadly (commandAttempt_spec hlayer hpacket)
      (fun _ _ => True) ?_ ?_ rfl trivial
    · intro n s' messages _ _
      unfold AfterAttempt
      cases (commandExchange env.bus bytes s'.bus).1 with
      | none => trivial
      | some frame =>
        rcases judgeCommand_cases frame with hj | ⟨status, hstatus, hj | hj⟩ |
          ⟨answer, hj, hanswer, hcheck, -⟩ <;> simp only [hj]
        · trivial
        · exact fun h => absurd h hstatus.ne_ok
        · exact fun _ => ⟨answer, rfl, framed_of_checkPacket hanswer hcheck⟩
    · intro status s' hstatus _ _ h
      exact absurd h hstatus.ne_ok

/-! ## Decoders -/

section Inside

variable {answer : Block} (hframed : Framed answer) (hlen : 3 ≤ answer.length)
include hlen

/-- A status is always inside. -/
theorem wp_justCheckStatus_inside (s : St σ) :
    wp (justCheckStatus answer) (fun _ _ => True) (fun _ => False) s := by
  have hone : peek answer 1 = some answer[1] :=
    (peek_natCast answer 1).trans (List.getElem?_eq_getElem (by omega))
  rw [wp_justCheckStatus, hone]
  by_cases h : answer[1] = atsha204StatusSucces <;> simp [h]

include hframed

/-- `read_long_data` goes by the count byte, and never fills more than the buffer. -/
theorem wp_readLongData_inside (buffer : List.Vector UInt8 atshaMaxDataSize) (s : St σ) :
    wp (readLongData answer buffer) (fun r _ => r.1 ≤ atshaMaxDataSize) (fun _ => False) s := by
  have hmax : atshaMaxDataSize = 32 := rfl
  rw [wp_readLongData hframed hlen]
  split
  · rw [payload_length hlen]
    omega
  · omega

end Inside

/-- The revision is read from four bytes behind the count byte.
SOURCE: operations.c:65-75 -/
theorem opDevRevRecv_isSome_iff (answer : Block) :
    (opDevRevRecv answer).isSome ↔ 5 ≤ answer.length := by
  have hpeek : ∀ i : ℕ, i < answer.length → ∃ byte, peek answer i = some byte := by
    intro i hi
    exact ⟨answer[i], (peek_natCast answer i).trans (List.getElem?_eq_getElem hi)⟩
  constructor
  · intro h
    by_contra hshort
    have hnone : peek answer 4 = none :=
      (peek_natCast answer 4).trans (List.getElem?_eq_none (by omega))
    simp [opDevRevRecv, hnone] at h
  · intro h
    obtain ⟨b0, h0⟩ := hpeek 1 (by omega)
    obtain ⟨b1, h1⟩ := hpeek 2 (by omega)
    obtain ⟨b2, h2⟩ := hpeek 3 (by omega)
    obtain ⟨b3, h3⟩ := hpeek 4 (by omega)
    have h0 : peek answer 1 = some b0 := h0
    have h1 : peek answer 2 = some b1 := h1
    have h2 : peek answer 3 = some b2 := h2
    have h3 : peek answer 4 = some b3 := h3
    simp [opDevRevRecv, h0, h1, h2, h3]

/-- Of the answers that begin with their length, a decoder stays inside exactly the ones as
long as it takes for granted. -/
theorem inside_iff {answer : Block} (hframed : Framed answer) (hlen : 3 ≤ answer.length)
    (decoder : Decoder) : decoder.Inside answer ↔ decoder.assumes ≤ answer.length := by
  have hmax : (0 : Int) ≤ (atshaMaxDataSize : ℕ) := by decide
  have hdata := fun σ buffer s => @wp_readLongData_inside σ answer hframed hlen buffer s
  have hstatus := fun σ s => @wp_justCheckStatus_inside σ answer hlen s
  unfold Decoder.Inside
  cases decoder with
  | random | rawRead | hmac | mac =>
    refine iff_of_true ?_ (Nat.zero_le _)
    intro σ buffer s
    rw [Decoder.recv, wp_bind]
    exact hdata σ buffer s
  | rawWrite | nonce | lock =>
    refine iff_of_true ?_ (Nat.zero_le _)
    intro σ buffer s
    rw [Decoder.recv, wp_bind]
    exact wp_mono (hstatus σ s) (fun _ _ _ => hmax) fun _ h => h
  | devRev =>
    rw [Decoder.assumes, ← opDevRevRecv_isSome_iff]
    cases hvalue : opDevRevRecv answer with
    | none =>
      refine iff_of_false ?_ (by simp)
      intro h
      have hone := h Unit (List.Vector.replicate _ 0) ⟨openNi2cDev, (), []⟩
      rwa [Decoder.recv, wp_bind, hvalue, wp_access] at hone
    | some value =>
      refine iff_of_true ?_ rfl
      intro σ buffer s
      rw [Decoder.recv, wp_bind, hvalue, wp_access]
      exact hmax
  | serialNumber =>
    rw [Decoder.assumes]
    have hrecv : ∀ (σ : Type) (buffer : List.Vector UInt8 atshaMaxDataSize) (s : St σ),
        wp (Decoder.serialNumber.recv answer buffer) (fun n _ => n ≤ (atshaMaxDataSize : ℕ))
          (fun _ => False) s ↔ 14 ≤ answer.length := by
      intro σ buffer s
      rw [Decoder.recv, wp_bind, wp_opSerialNumberRecv]
      by_cases h : 14 ≤ answer.length
      · rw [if_pos h]
        exact iff_of_true (by decide : (9 : Int) ≤ (atshaMaxDataSize : ℕ)) h
      · rw [if_neg h]
        exact iff_of_false id h
    constructor
    · intro h
      exact (hrecv Unit _ ⟨openNi2cDev, (), []⟩).mp (h Unit (List.Vector.replicate _ 0) _)
    · intro h σ buffer s
      exact (hrecv σ buffer s).mpr h

/-- Applied to an answer that a command returned with a good status on the native I2C layer,
`op_dev_rev_recv` stays inside exactly when the answer has five bytes or more,
`op_serial_number_recv` exactly when it has fourteen or more, and the other seven decoders
always do.
SOURCE: operations.c:40-75, operations.c:171-185, communication.c:127-165 -/
theorem decoders_inside_iff (env : Env σ) (s s' : St σ) (hlayer : s.handle.bottomLayer = .ni2c)
    (packet answer : Block) (hrun : (send env packet).run s = .ok (.ok, some answer) s')
    (decoder : Decoder) : decoder.Inside answer ↔ decoder.assumes ≤ answer.length := by
  obtain ⟨answer', hanswer, hframed, hlen⟩ :=
    (wp_command_answer hlayer (nestedSlotRead env) packet).of_run hrun rfl
  obtain rfl := Option.some_inj.mp hanswer
  exact inside_iff hframed hlen decoder

/-- The request for a revision. -/
def devRevPacket : Block := commandPacket atsha204OpcodeDevRev 0 0 []

/-- A status of one byte that the filter does not know. -/
def miscompareAnswer : Block := answerPacket [atsha204StatusCheckMacMiscompare]

/-- The device answers the request for a revision with that status. -/
theorem send_miscompareAnswer : ∃ s', (send replayEnv devRevPacket).run
    (replayState [some (frameOf miscompareAnswer)]) = .ok (.ok, some miscompareAnswer) s' := by
  have hjudge : judgeCommand (frameOf miscompareAnswer) = some (.accept miscompareAnswer) := by
    decide +kernel
  have hanswers := answers_of_judgeCommand hjudge devRevPacket []
  have hiff := @send_ok_iff _ replayEnv (replayState [some (frameOf miscompareAnswer)]) rfl
    devRevPacket (framed_commandPacket _ _ _ (by decide)) miscompareAnswer fun _ _ => True
  obtain ⟨s', hrun, -⟩ := hiff.mpr ⟨[], hanswers, trivial⟩
  exact ⟨s', hrun⟩

/-- A nonce that is answered in this way is decoded inside the answer. -/
theorem decoders_inside_nonce : Decoder.nonce.Inside miscompareAnswer := by
  obtain ⟨s', hrun⟩ := send_miscompareAnswer
  exact (decoders_inside_iff replayEnv _ s' rfl devRevPacket miscompareAnswer hrun .nonce).mpr
    (by decide)

/-- The status of one byte is read behind its end when it answers the request for a
revision. -/
theorem decoders_inside_fails : ¬ ∀ (σ : Type) (env : Env σ) (s s' : St σ) (packet answer : Block),
    s.handle.bottomLayer = .ni2c → opDevRev = some packet →
      (send env packet).run s = .ok (.ok, some answer) s' → Decoder.devRev.Inside answer := by
  intro h
  obtain ⟨s', hrun⟩ := send_miscompareAnswer
  have hinside := h _ replayEnv _ s' devRevPacket miscompareAnswer rfl opDevRev_eq hrun
  have hfive := (inside_iff (framed_answerPacket (by decide)) (by decide) .devRev).mp hinside
  revert hfive
  decide

end Atsha204.Analysis
