import Atsha204.Interface.FourBytes
import Atsha204.Analysis.Decoders
import Atsha204.Analysis.ChipExchange

/-!
# What the shifts of a four byte number lose

The register is shifted by 24, 16 and 8 bits in turn, so each byte goes as far as all the
shifts behind it: the first one by 48 bits, out of the register, the second one by 24 and
the third by 8 (`shifted_toNat`). Both decoders do the same, and the number is the one meant
exactly when it fits into sixteen bits (`four_bytes_big_endian_iff`).
-/

set_option autoImplicit false

namespace Atsha204.Analysis

open Atsha204.Library
open Atsha204.Model
open Atsha204.Interface

variable {σ : Type} {env : Env σ}

/-! ## The register -/

/-- What both decoders make of four bytes.
SOURCE: tools.c:41-50, operations.c:65-75 -/
def shifted (record : FourBytes) : UInt32 :=
  (((((0 ||| record.b0.toUInt32) <<< 24) ||| record.b1.toUInt32) <<< 16) |||
    record.b2.toUInt32) <<< 8 ||| record.b3.toUInt32

/-- A byte goes into a register whose low byte is free. -/
theorem toNat_or_byte (x : UInt32) (b : UInt8) (k : ℕ) (h : x.toNat = k * 2 ^ 8) :
    (x ||| b.toUInt32).toNat = k * 2 ^ 8 + b.toNat := by
  rw [UInt32.toNat_or, UInt8.toNat_toUInt32, h, ← Nat.shiftLeft_eq,
    Nat.shiftLeft_add_eq_or_of_lt b.toNat_lt]

/-- The first byte is lost; each of the others has its weight. -/
theorem shifted_toNat (record : FourBytes) : (shifted record).toNat =
    record.b1.toNat * 2 ^ 24 + record.b2.toNat * 2 ^ 8 + record.b3.toNat := by
  have hshift : ∀ (x : UInt32) (n : ℕ) (hn : n < 32),
      (x <<< (UInt32.ofNat n)).toNat = x.toNat * 2 ^ n % 2 ^ 32 := by
    intro x n hn
    rw [UInt32.toNat_shiftLeft, UInt32.toNat_ofNat', Nat.mod_mod_of_dvd _ (by decide),
      Nat.mod_eq_of_lt hn, Nat.shiftLeft_eq]
  have hlt1 := record.b1.toNat_lt
  have hlt2 := record.b2.toNat_lt
  -- the first byte, at its place
  have h0 : ((0 ||| record.b0.toUInt32) <<< 24).toNat = (record.b0.toNat * 2 ^ 16) * 2 ^ 8 := by
    have hlt0 := record.b0.toNat_lt
    rw [show (24 : UInt32) = UInt32.ofNat 24 from rfl, hshift _ 24 (by decide),
      toNat_or_byte 0 record.b0 0 rfl]
    omega
  -- the second shift drops it
  have h1 : ((((0 ||| record.b0.toUInt32) <<< 24) ||| record.b1.toUInt32) <<< 16).toNat =
      (record.b1.toNat * 2 ^ 8) * 2 ^ 8 := by
    rw [show (16 : UInt32) = UInt32.ofNat 16 from rfl, hshift _ 16 (by decide),
      toNat_or_byte _ record.b1 _ h0]
    omega
  have h2 : ((((((0 ||| record.b0.toUInt32) <<< 24) ||| record.b1.toUInt32) <<< 16) |||
      record.b2.toUInt32) <<< 8).toNat =
        (record.b1.toNat * 2 ^ 16 + record.b2.toNat) * 2 ^ 8 := by
    rw [show (8 : UInt32) = UInt32.ofNat 8 from rfl, hshift _ 8 (by decide),
      toNat_or_byte _ record.b2 _ h1]
    omega
  unfold shifted
  rw [toNat_or_byte _ record.b3 _ h2]
  omega

/-- Two records give the same number exactly when they agree behind the first byte. -/
theorem shifted_eq_iff (record record' : FourBytes) :
    shifted record = shifted record' ↔ record.SameTail record' := by
  unfold FourBytes.SameTail
  rw [← UInt32.toNat_inj, shifted_toNat, shifted_toNat, ← UInt8.toNat_inj, ← UInt8.toNat_inj,
    ← UInt8.toNat_inj]
  have hlt2 := record.b2.toNat_lt
  have hlt3 := record.b3.toNat_lt
  have hlt2' := record'.b2.toNat_lt
  have hlt3' := record'.b3.toNat_lt
  constructor
  · intro h
    refine ⟨?_, ?_, ?_⟩ <;> omega
  · rintro ⟨h1, h2, h3⟩
    rw [h1, h2, h3]

/-- The number is the one meant exactly when it fits into sixteen bits. -/
theorem shifted_eq_bigEndian_iff (record : FourBytes) :
    (shifted record).toNat = record.bigEndian ↔ record.Short := by
  unfold FourBytes.Short FourBytes.bigEndian
  rw [shifted_toNat, ← UInt8.toNat_inj, ← UInt8.toNat_inj, UInt8.toNat_zero]
  have hlt1 := record.b1.toNat_lt
  constructor
  · intro h
    -- 255 times the second byte is 256 times the first
    constructor <;> omega
  · intro h
    omega

/-! ## The decoders -/

/-- This is what the conversion makes of four bytes, whatever follows them.
SOURCE: tools.c:41-50 -/
theorem uint32From4Bytes_block (record : FourBytes) (behind : Block) :
    uint32From4Bytes (record.block ++ behind) = some (shifted record) := rfl

/-- It is what the decoder of the revision makes of them.
SOURCE: operations.c:65-75 -/
theorem opDevRevRecv_eq {answer : Block} {record : FourBytes}
    (h : copyOut (answer.drop 1) 4 = some record.block) :
    opDevRevRecv answer = some (shifted record) := by
  obtain ⟨hle, htake⟩ := (copyOut_eq_some_iff _ _ _).mp h
  cases answer with
  | nil => simp at hle
  | cons count data =>
    have hdata : data = record.block ++ data.drop 4 := by
      rw [htake]
      exact (List.take_append_drop 4 data).symm
    rw [hdata]
    rfl

/-- A revision that was answered is reported.
SOURCE: api.c:316-347 -/
theorem atshaDevRev_run {record : FourBytes} {s s₁ s₂ : St σ} {packet answer : Block}
    (h : RevisionAnswered env record s s₁ s₂ packet answer) (revision : UInt32) :
    (atshaDevRev env revision).run s = .ok (.ok, shifted record) (idled env s₂) := by
  rw [run_eq_ok_iff, atshaDevRev, wp_session, wp_of_run h.awake]
  simp only [if_true, h.request, wp_bind, wp_access, wp_of_run h.answered]
  simp [opDevRevRecv_eq h.carries]

/-- A chip reports the number that the decoder makes of them. -/
theorem reported_eq {record : FourBytes} {r : UInt32} (h : Reported record r) :
    r = shifted record := by
  obtain ⟨σ, env, s, s₁, s₂, s', packet, answer, revision, hanswered, hrun⟩ := h
  rw [atshaDevRev_run hanswered] at hrun
  cases hrun
  rfl

/-- A chip with these bytes reports the number that the decoder makes of them. -/
theorem reported_shifted (record : FourBytes) : Reported record (shifted record) := by
  have hlen : record.block.length = 4 := rfl
  have hframe : frameAnswer (frameOf (answerPacket record.block)) =
      some (answerPacket record.block) := frameAnswer_frameOf (by rw [hlen]; decide)
  have hjudge := judgeCommand_data hframe (by rw [hlen]; decide) (.inl (by rw [hlen]; decide))
  -- a bus that replays a confirmed wake and the answer
  obtain ⟨s₁, hwake, hlayer, hbus⟩ := (@wake_ok_iff _ replayEnv
    (replayState [some wakeOkFrame, some (frameOf (answerPacket record.block))]) rfl rfl
    fun handle b => handle.bottomLayer = .ni2c ∧
      b = [some (frameOf (answerPacket record.block))]).mpr
    ⟨_, confirms_wakeOkFrame _, rfl, rfl⟩
  obtain ⟨s₂, hsend, -⟩ := (@send_ok_iff _ replayEnv s₁ hlayer devRevPacket
    (framed_commandPacket _ _ _ (by decide)) (answerPacket record.block) fun _ _ => True).mpr
    ⟨[], by rw [hbus]; exact answers_of_judgeCommand hjudge devRevPacket [], trivial⟩
  have hanswered : RevisionAnswered replayEnv record _ s₁ s₂ devRevPacket
      (answerPacket record.block) :=
    ⟨opDevRev_eq, hwake, hsend, checkPacket_answerPacket (by rw [hlen]; decide), rfl⟩
  exact ⟨_, replayEnv, _, s₁, s₂, _, _, _, 0, hanswered, atshaDevRev_run hanswered 0⟩

/-! ## Both numbers -/

/-- A record is decoded, and reported, as the number it stands for exactly when that fits into
sixteen bits. -/
theorem readBigEndian_iff (record : FourBytes) : ReadBigEndian record ↔ record.Short := by
  rw [← shifted_eq_bigEndian_iff]
  constructor
  · intro h
    exact Option.some_inj.mp (h.decoded [])
  · intro h
    refine ⟨fun behind => ?_, ?_⟩
    · rw [uint32From4Bytes_block, Option.map_some, h]
    · intro σ env s s₁ s₂ packet answer revision hanswered
      exact ⟨_, _, atshaDevRev_run hanswered revision, h⟩

/-- Two records are told apart exactly when they are the same one, or differ behind the first
byte. -/
theorem toldApart_iff (record record' : FourBytes) :
    ToldApart record record' ↔ record = record' ∨ ¬ record.SameTail record' := by
  rw [← shifted_eq_iff]
  constructor
  · intro h
    by_cases heq : record = record'
    · exact .inl heq
    · refine .inr fun hsame => h.decoded heq [] [] ?_
      rw [uint32From4Bytes_block, uint32From4Bytes_block, hsame]
  · intro h
    refine ⟨fun hne behind behind' => ?_, fun hne r r' hr hr' => ?_⟩
    · rw [uint32From4Bytes_block, uint32From4Bytes_block, Ne, Option.some_inj]
      exact h.resolve_left hne
    · rw [reported_eq hr, reported_eq hr']
      exact h.resolve_left hne

/-- Two records are decoded, and reported, as the numbers they stand for exactly when these fit
into sixteen bits, and are told apart exactly when they are the same or differ behind the first
byte.
SOURCE: tools.c:41-50, operations.c:65-75, api.c:316-347 -/
theorem four_bytes_big_endian_iff (record record' : FourBytes) :
    (ReadBigEndian record ∧ ReadBigEndian record' ∧ ToldApart record record' ↔
      record.Short ∧ record'.Short) ∧
    (ToldApart record record' ↔ record = record' ∨ ¬ record.SameTail record') := by
  refine ⟨?_, toldApart_iff record record'⟩
  rw [readBigEndian_iff, readBigEndian_iff, toldApart_iff]
  constructor
  · rintro ⟨h, h', -⟩
    exact ⟨h, h'⟩
  · rintro ⟨h, h'⟩
    refine ⟨h, h', ?_⟩
    -- the first bytes are zero, so the records are their tails
    by_contra hboth
    rw [not_or, not_not] at hboth
    obtain ⟨hne, h1, h2, h3⟩ := hboth
    refine hne ?_
    cases record
    cases record'
    simp only [FourBytes.mk.injEq]
    exact ⟨h.1.trans h'.1.symm, h1, h2, h3⟩

/-- The revision 00 02 00 09 of a chip is reported as 0x02000009, and so is that of a chip whose
first byte is another one. -/
theorem four_bytes_big_endian_fails :
    (Reported ⟨0x00, 0x02, 0x00, 0x09⟩ 0x02000009 ∧ Reported ⟨0x01, 0x02, 0x00, 0x09⟩ 0x02000009) ∧
    ¬ ∀ record record' : FourBytes,
      ReadBigEndian record ∧ ReadBigEndian record' ∧ ToldApart record record' := by
  refine ⟨⟨reported_shifted _, reported_shifted _⟩, ?_⟩
  intro h
  have hread := (h ⟨0x00, 0x02, 0x00, 0x09⟩ ⟨0x01, 0x02, 0x00, 0x09⟩).1
  have htwo := ((readBigEndian_iff _).mp hread).2
  revert htwo
  decide

end Atsha204.Analysis
