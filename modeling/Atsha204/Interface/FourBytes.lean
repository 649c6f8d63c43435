import Atsha204.Model.Api

/-!
# Numbers of four bytes

The revision of a chip and the record of the key origin are four bytes, which stand for a
number with the first byte the highest. `uint32_from_4_bytes` decodes the record, and
`atsha_dev_rev` has its own copy of that decoder for the revision.
-/

set_option autoImplicit false

namespace Atsha204.Interface

open Atsha204.Library
open Atsha204.Model

/-- Four bytes, in the order in which they are stored or sent. -/
structure FourBytes where
  b0 : UInt8
  b1 : UInt8
  b2 : UInt8
  b3 : UInt8
  deriving DecidableEq, Repr

def FourBytes.block (record : FourBytes) : Block :=
  [record.b0, record.b1, record.b2, record.b3]

/-- The number that the bytes stand for. -/
def FourBytes.bigEndian (record : FourBytes) : ℕ :=
  record.b0.toNat * 2 ^ 24 + record.b1.toNat * 2 ^ 16 + record.b2.toNat * 2 ^ 8 +
    record.b3.toNat

/-- The device is awake in `s₁`, and answered the request for its revision with a valid packet
that carries these bytes. -/
structure RevisionAnswered {σ : Type} (env : Env σ) (record : FourBytes) (s s₁ s₂ : St σ)
    (packet answer : Block) : Prop where
  request : opDevRev = some packet
  awake : (wake env).run s = .ok .ok s₁
  answered : (send env packet).run s₁ = .ok (.ok, some answer) s₂
  valid : checkPacket answer = some true
  carries : copyOut (answer.drop 1) 4 = some record.block

/-- Some chip with these bytes reported the revision `r`. -/
def Reported (record : FourBytes) (r : UInt32) : Prop :=
  ∃ (σ : Type) (env : Env σ) (s s₁ s₂ s' : St σ) (packet answer : Block) (revision : UInt32),
    RevisionAnswered env record s s₁ s₂ packet answer ∧
      (atshaDevRev env revision).run s = .ok (.ok, r) s'

/-- The bytes are decoded as the number that they stand for, wherever they lie, and every chip
that sends them is reported to have that revision. -/
structure ReadBigEndian (record : FourBytes) : Prop where
  decoded : ∀ behind : Block,
    (uint32From4Bytes (record.block ++ behind)).map UInt32.toNat = some record.bigEndian
  reported : ∀ (σ : Type) (env : Env σ) (s s₁ s₂ : St σ) (packet answer : Block)
    (revision : UInt32), RevisionAnswered env record s s₁ s₂ packet answer →
      ∃ r s', (atshaDevRev env revision).run s = .ok (.ok, r) s' ∧ r.toNat = record.bigEndian

/-- Different bytes are never decoded, or reported, as the same number. -/
structure ToldApart (record record' : FourBytes) : Prop where
  decoded : record ≠ record' → ∀ behind behind' : Block,
    uint32From4Bytes (record.block ++ behind) ≠ uint32From4Bytes (record'.block ++ behind')
  reported : record ≠ record' → ∀ r r', Reported record r → Reported record' r' → r ≠ r'

/-- The number fits into sixteen bits. -/
def FourBytes.Short (record : FourBytes) : Prop := record.b0 = 0 ∧ record.b1 = 0

/-- The bytes behind the first one are the same. -/
def FourBytes.SameTail (record record' : FourBytes) : Prop :=
  record.b1 = record'.b1 ∧ record.b2 = record'.b2 ∧ record.b3 = record'.b3

end Atsha204.Interface
