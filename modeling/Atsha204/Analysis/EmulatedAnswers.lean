import Atsha204.Analysis.Delivery
import Atsha204.Analysis.EmulatedHandle

/-!
# The answers of the emulator need no checks

Every answer is built from one, four or thirty-two bytes of data, and the one of a single
byte is the status of success, so every answer is good (`emulCommand_yields`). The checks of
`command` therefore let it through at the first attempt, and a command that fails fails in
the same way at every attempt, since nothing that it depends on has changed
(`emulated_answers_pass`).
-/

set_option autoImplicit false

namespace Atsha204.Analysis

open Atsha204.Library
open Atsha204.Model
open Atsha204.Interface

variable {σ : Type} {env : Env σ}

/-! ## Answers -/

/-- An answer of more than one byte is good, and so is the status of success. -/
theorem goodAnswer_answerPacket {data : Block} (hlen : data.length + 3 < 256)
    (hdata : data.length = 1 → data = [atsha204StatusSucces]) : GoodAnswer (answerPacket data) := by
  refine ⟨checkPacket_answerPacket hlen, ?_⟩
  rintro ⟨hfour, status, hmem, hstatus⟩
  have hone : data.length = 1 := by
    have hpacket := answerPacket_length data
    omega
  rw [hdata hone] at hstatus
  obtain rfl : atsha204StatusSucces = status := Option.some.inj hstatus
  exact absurd hmem (by decide)

/-- An error without an answer is well formed. -/
theorem wellAnswered_error {status : AtshaErr} (h : status ≠ .ok) :
    WellAnswered (status, none) := ⟨fun hok => absurd hok h, fun _ => rfl⟩

/-- An answer is built from as many bytes as it is asked to be. -/
theorem answerWith_yields (data : Block) {dataCount : UInt8}
    (hcount : dataCount.toNat = 4 ∨ dataCount.toNat = 32) :
    Yields WellAnswered (answerWith data dataCount : Prog σ Reply) := by
  intro s
  rw [wp_answerWith]
  by_cases hlen : dataCount.toNat ≤ data.length
  · rw [generateAnswerPacket_eq hlen (by omega)]
    have htake : (data.take dataCount.toNat).length = dataCount.toNat :=
      List.length_take_of_le hlen
    refine ⟨fun _ => ⟨_, rfl, by omega, ?_⟩, fun hne => absurd rfl hne⟩
    exact goodAnswer_answerPacket (by omega) (by omega)
  · rw [generateAnswerPacket_of_lt (by omega)]
    trivial

/-- A command that is refused with an entry in the log. -/
theorem refuse_yields (text : String) {status : AtshaErr} (h : status ≠ .ok) :
    Yields WellAnswered (do logMessage text; return (status, none) : Prog σ Reply) :=
  .bind fun _ => .pure (wellAnswered_error h)

/-! ## Commands -/

/-- An answer with a line of 4 or 32 bytes is. -/
theorem answerLine_yields (tooFew noLine tooShort : String) (nextIndex : ℕ → ℕ) (count : ℕ)
    (out : Block) {dataCount : UInt8} (hcount : dataCount.toNat = 4 ∨ dataCount.toNat = 32) (k : ℕ)
    (line : Model.Line) :
    Yields WellAnswered
      (answerLine tooFew noLine tooShort nextIndex count out dataCount k line : Prog σ Reply) := by
  unfold answerLine
  apply Yields.bind
  intro l
  cases l with
  | none => exact .pure (wellAnswered_error AtshaErr.noConfusion)
  | some line =>
    apply Yields.bind
    intro data
    cases data with
    | none => exact .pure (wellAnswered_error AtshaErr.noConfusion)
    | some data => exact answerWith_yields data hcount

/-- So is the answer to a read.
SOURCE: emulation.c:281-451 -/
theorem emulRead_yields (packet : Block) : Yields WellAnswered (emulRead env packet) := by
  have hslot : (UInt8.ofNat atsha204SlotByteLen).toNat = 4 ∨
      (UInt8.ofNat atsha204SlotByteLen).toNat = 32 := .inr rfl
  unfold emulRead
  apply Yields.bind
  intro zone
  dsimp only
  split
  · apply Yields.bind
    intro address
    split
    · exact refuse_yields _ AtshaErr.noConfusion
    · apply Yields.bind
      intro handle
      split
      · exact .bind fun sn => answerWith_yields sn hslot
      · exact .bind fun _ => answerLine_yields _ _ _ _ _ _ hslot _ _
  · split
    · apply Yields.bind
      intro handle
      split
      · exact .bind fun key => answerWith_yields key hslot
      · exact .bind fun _ => .bind fun _ => answerLine_yields _ _ _ _ _ _ hslot _ _
    · split
      · apply Yields.bind
        intro handle
        split
        · exact refuse_yields _ AtshaErr.noConfusion
        · apply Yields.bind
          intro _
          apply Yields.bind
          intro l
          cases l with
          | none => exact .pure (wellAnswered_error AtshaErr.noConfusion)
          | some line =>
            apply Yields.bind
            intro address
            exact answerLine_yields _ _ _ _ _ _ (.inl rfl) _ _
      · exact refuse_yields _ AtshaErr.noConfusion

section Digests

variable (rawSlotRead : SlotRead σ) (packet : Block)

/-- So is the one to an HMAC.
SOURCE: emulation.c:52-157 -/
theorem emulHmac_yields : Yields WellAnswered (emulHmac env rawSlotRead packet) := by
  unfold emulHmac
  refine .bind fun handle => .bind fun message => .bind fun slot => .bind ?_
  rintro ⟨status, key⟩
  dsimp only
  split
  · exact refuse_yields _ AtshaErr.noConfusion
  · apply Yields.bind
    intro keyBytes
    split
    · exact refuse_yields _ AtshaErr.noConfusion
    · split
      · exact refuse_yields _ AtshaErr.noConfusion
      · exact answerWith_yields _ (.inr rfl)

/-- So is the one to a MAC.
SOURCE: emulation.c:159-262 -/
theorem emulMac_yields : Yields WellAnswered (emulMac env rawSlotRead packet) := by
  unfold emulMac
  refine .bind fun slot => .bind ?_
  rintro ⟨status, key⟩
  dsimp only
  split
  · exact refuse_yields _ AtshaErr.noConfusion
  · refine .bind fun handle => .bind fun message => ?_
    split
    · exact refuse_yields _ AtshaErr.noConfusion
    · exact answerWith_yields _ (.inr rfl)

end Digests

/-- The loading of a nonce is answered with the status of success, if at all.
SOURCE: emulation.c:41-50 -/
theorem emulNonce_yields (packet : Block) : Yields
    (fun reply => reply = (.ok, some (answerPacket [atsha204StatusSucces])))
    (emulNonce packet : Prog σ Reply) := by
  unfold emulNonce
  refine .bind fun bytes => .bind fun handle => .bind fun nonce => .bind fun _ => ?_
  intro s
  rw [wp_answerWith_all rfl (by decide)]

/-- Every command is well answered.
SOURCE: emulation.c:453-485 -/
theorem emulCommand_yields (rawSlotRead : SlotRead σ) (packet : Block) :
    Yields WellAnswered (emulCommand env rawSlotRead packet) := by
  unfold emulCommand
  refine .bind fun _ => .bind fun opcode => ?_
  split
  · exact emulHmac_yields rawSlotRead packet
  · split
    · exact emulMac_yields rawSlotRead packet
    · split
      · exact emulRead_yields packet
      · split
        · intro s
          refine wp_mono (emulNonce_yields packet s) ?_ fun _ h => h
          rintro _ s' rfl
          refine ⟨fun _ => ⟨_, rfl, .inl rfl, ?_⟩, fun hne => absurd rfl hne⟩
          exact goodAnswer_answerPacket (by decide) fun _ => rfl
        · split
          · exact answerWith_yields _ (.inr rfl)
          · exact refuse_yields _ AtshaErr.noConfusion

/-! ## Checked commands -/

/-- A good answer passes the checks. -/
theorem checkedAttempt_ok {packet answer : Block} {s s' : St σ} (b : Reply)
    (hrun : (emulCommand env (nestedSlotRead env) packet).run s = .ok (.ok, some answer) s')
    (hframed : Framed answer) (hlen : 3 ≤ answer.length) (hgood : GoodAnswer answer) :
    (checkedAttempt env packet b).run s = .ok (.accept (.ok, some answer)) s' := by
  obtain ⟨count, status, hcount, hfour, hstatus, hget⟩ := framed_fields hframed hlen
  apply (run_eq_ok_iff _ _ _ _).mpr
  unfold checkedAttempt
  rw [wp_bind, wp_of_run hrun]
  simp only [if_true, wp_bind, wp_access, hgood.1, Bool.not_true, Bool.false_eq_true, if_false,
    hcount]
  by_cases hcount4 : count = 4
  · simp only [hcount4, if_true, wp_bind, wp_access, hstatus,
      goodAnswer_not_refused hgood (hfour.mp hcount4) hget, wp_pure, and_self]
  · simp only [hcount4, if_false, wp_pure, and_self]

/-- A command that fails asks for another attempt. -/
theorem checkedAttempt_again {packet : Block} {status : AtshaErr} (hstatus : status ≠ .ok)
    {s s' : St σ} (b : Reply)
    (hrun : (emulCommand env (nestedSlotRead env) packet).run s = .ok (status, none) s') :
    (checkedAttempt env packet b).run s = .ok (.again (status, none)) s' := by
  unfold checkedAttempt
  rw [run_bind_of_run hrun]
  dsimp only
  rw [if_neg hstatus]
  rfl

/-- A command that fails does so at every attempt. -/
theorem checkedRetry_error {packet : Block} {status : AtshaErr} (hstatus : status ≠ .ok)
    {s s' : St σ} (hlayer : s.handle.bottomLayer = .emulation)
    (hrun : (emulCommand env (nestedSlotRead env) packet).run s = .ok (status, none) s')
    (hnonce : peek packet positionOpcode ≠ some atsha204OpcodeNonce) (n : ℕ) (b : Reply) :
    ∃ s'',
      (retry (checkedAttempt env packet) (n + 1) b).run s = .ok (.error (status, none)) s'' := by
  have hsame : Simulates (Alike s.handle True) Eq (emulCommand env (nestedSlotRead env) packet)
      (emulCommand env (nestedSlotRead env) packet) :=
    emulCommand_simulates rfl (nestedSlotRead_alike rfl) (fun _ => trivial)
      fun hopcode => absurd hopcode hnonce
  have hself : Resembles s.handle True s.handle := ⟨hlayer, rfl, rfl, rfl, rfl, rfl, fun _ => rfl⟩
  have hagain : ∀ (b : Reply) (t : St σ), Resembles s.handle True t.handle → ∃ t',
      (checkedAttempt env packet b).run t = .ok (.again (status, none)) t' ∧
        Resembles s.handle True t'.handle := by
    intro b t ht
    obtain ⟨_, t', hrun', rfl⟩ := (hsame.returns_iff (P := fun r _ => r = (status, none))
      (Q := fun r _ => r = (status, none)) ⟨ht, hself⟩ (by rintro r _ _ _ - rfl -; rfl)).mpr
        ⟨_, s', hrun, rfl⟩
    have hkeeps := Simulates.keeps (I := fun t : St σ => Resembles s.handle True t.handle) hsame ht
    exact ⟨t', checkedAttempt_again hstatus b hrun', hkeeps.of_run hrun'⟩
  exact run_retry_again hagain n b s hself

/-- The loading of a nonce does not fail. -/
theorem not_nonce_of_error {packet : Block} {status : AtshaErr} {answer : Option Block}
    (hstatus : status ≠ .ok) {s s' : St σ} (hlayer : s.handle.bottomLayer = .emulation)
    (hrun : (emulCommand env (nestedSlotRead env) packet).run s = .ok (status, answer) s') :
    peek packet positionOpcode ≠ some atsha204OpcodeNonce := by
  intro hopcode
  rw [← command_run_emulation hlayer] at hrun
  have hload : wp (command env (nestedSlotRead env) packet none) (fun r _ => r.1 = .ok)
      (fun _ => True) s := by
    rw [wp_command_emulation hopcode hlayer, if_neg (by decide), if_neg (by decide),
      if_neg (by decide), if_pos rfl]
    refine wp_mono (emulNonce_yields packet _) ?_ fun _ h => h
    rintro _ _ rfl
    rfl
  exact hstatus (hload.of_run hrun)

/-- What the emulator returns goes through the checks unchanged. -/
theorem checkedCommand_run {packet : Block} {reply : Reply} {s s' : St σ}
    (hlayer : s.handle.bottomLayer = .emulation)
    (hrun : (emulCommand env (nestedSlotRead env) packet).run s = .ok reply s') :
    ∃ s'', (checkedCommand env packet).run s = .ok reply s'' := by
  have hwell := (emulCommand_yields (nestedSlotRead env) packet s).of_run hrun
  obtain ⟨status, answer⟩ := reply
  by_cases hstatus : status = .ok
  · subst hstatus
    obtain ⟨data, hanswer, hlen, hgood⟩ := hwell.1 rfl
    obtain rfl : answer = some (answerPacket data) := hanswer
    have hlength := answerPacket_length data
    have haccept := checkedAttempt_ok (.ok, none) hrun (framed_answerPacket (by omega)) (by omega)
      hgood
    refine ⟨s', ?_⟩
    unfold checkedCommand
    rw [show maxAttempts = 6 + 1 from rfl, retry, bind_assoc, run_bind_of_run haccept]
    rfl
  · obtain rfl : answer = none := hwell.2 hstatus
    obtain ⟨s'', hretry⟩ := checkedRetry_error hstatus hlayer hrun
      (not_nonce_of_error hstatus hlayer hrun) 6 (.ok, none)
    refine ⟨s'', ?_⟩
    unfold checkedCommand
    rw [show maxAttempts = 6 + 1 from rfl, run_bind_of_run hretry]
    rfl

/-- On the emulation layer, whatever the packet is, the answer that is handed out is a good one
of one, four or thirty-two bytes, an error comes without any, and the checks that the answers
of the I2C layer go through would change neither the status nor the answer.
SOURCE: communication.c:115-165, emulation.c:453-485 -/
theorem emulated_answers_pass (env : Env σ) (packet : Block) (s : St σ)
    (hlayer : s.handle.bottomLayer = .emulation) (reply : Reply) :
    (∀ s', (emulCommand env (nestedSlotRead env) packet).run s = .ok reply s' →
      WellAnswered reply) ∧
    ((∃ s', (checkedCommand env packet).run s = .ok reply s') ↔
      ∃ s', (command env (nestedSlotRead env) packet none).run s = .ok reply s') := by
  refine ⟨fun s' hrun => (emulCommand_yields (nestedSlotRead env) packet s).of_run hrun, ?_⟩
  rw [command_run_emulation hlayer]
  constructor
  · rintro ⟨s', hchecked⟩
    cases hrun : (emulCommand env (nestedSlotRead env) packet).run s with
    | ok reply₁ s₁ =>
      obtain ⟨s₂, hchecked'⟩ := checkedCommand_run hlayer hrun
      rw [hchecked] at hchecked'
      obtain ⟨rfl, -⟩ := EStateM.Result.ok.inj hchecked'
      exact ⟨s₁, rfl⟩
    | error e s₁ =>
      -- a fault of the emulator ends the first attempt, and with it the command
      unfold checkedCommand checkedAttempt at hchecked
      rw [show maxAttempts = 6 + 1 from rfl, retry] at hchecked
      simp only [EStateM.run_bind, hrun] at hchecked
      cases hchecked
  · rintro ⟨s', hrun⟩
    exact checkedCommand_run hlayer hrun

/-- Over the file with ones for the serial number, slot seven is given at the first attempt; a
revision, which the emulator does not have, is not given at any attempt. -/
theorem emulated_answers_pass_marked : ∃ s : St (List (Option Frame)),
    Opened (.emulation (some markedLayout.text)) s ∧
    (∃ s', (checkedCommand replayEnv (commandPacket atsha204OpcodeRead
        (getZoneConfig ioMemData ioRwNonEnc ioRw32Bytes) (8 * 7) [])).run s =
      .ok (.ok, some (answerPacket (List.replicate 32 0))) s') ∧
    WellAnswered (.ok, some (answerPacket (List.replicate 32 0))) ∧
    (∃ s', (checkedCommand replayEnv (commandPacket atsha204OpcodeDevRev 0 0 [])).run s =
      .ok (.notImplemented, none) s') ∧
    WellAnswered (.notImplemented, none) := by
  obtain ⟨s, hopened, hover⟩ := exists_opened replayEnv markedLayout (replayState [])
  have hslot : storedData s.handle (getZoneConfig ioMemData ioRwNonEnc ioRw32Bytes) 56 =
      some (List.replicate 32 0) := by
    have hkey : (markedLayout.keys 7).bytes = List.replicate 32 0 := List.map_replicate
    rw [← hkey]
    exact storedSlot_layout hover 7
  have hread := @wp_command_read _ replayEnv (nestedSlotRead replayEnv)
    (getZoneConfig ioMemData ioRwNonEnc ioRw32Bytes) 56 s hover.layer
  rw [hslot] at hread
  obtain ⟨_, s₁, hrun, -, rfl⟩ := (wp_returns_iff _ _ _).mp
    (wp_mono hread (fun _ _ h => h) fun _ hnone => by cases hnone)
  obtain ⟨hwell, hchecked⟩ := emulated_answers_pass replayEnv _ s hover.layer
    (.ok, some (answerPacket (List.replicate 32 0)))
  obtain ⟨hwell', hchecked'⟩ := emulated_answers_pass replayEnv
    (commandPacket atsha204OpcodeDevRev 0 0 []) s hover.layer (.notImplemented, none)
  obtain ⟨s₂, hrev⟩ : ∃ s₂, (emulCommand replayEnv (nestedSlotRead replayEnv)
      (commandPacket atsha204OpcodeDevRev 0 0 [])).run s = .ok (.notImplemented, none) s₂ :=
    ⟨_, rfl⟩
  refine ⟨s, hopened, hchecked.mpr ⟨s₁, hrun⟩, ?_, hchecked'.mpr ⟨s₂, ?_⟩, hwell' s₂ hrev⟩
  · exact hwell s₁ ((command_run_emulation hover.layer).symm.trans hrun)
  · rw [command_run_emulation hover.layer]
    exact hrev

end Atsha204.Analysis
