import Atsha204.Interface.EmulatedStorage

/-!
# Challenges

A challenge as a request to either of the two operations that answer one, and what the
answer is meant to be: a digest of 88 bytes under the key of a slot, made by the digest
library. A server and the device it stands in for are meant to give the same responses to
the same challenges (`SameResponses`).
-/

set_option autoImplicit false

namespace Atsha204.Interface

open Atsha204.Library
open Atsha204.Model

variable {σ τ : Type}

/-- The operations that answer a challenge. -/
inductive DigestKind where
  | hmac
  | mac
  deriving DecidableEq, Repr

structure ChallengeRequest where
  kind : DigestKind
  challenge : List.Vector UInt8 atshaMaxDataSize
  useSnInDigest : Bool

def ChallengeRequest.run (env : Env σ) (slotNumber : UInt8) (response : AtshaBigInt)
    (request : ChallengeRequest) : Prog σ (AtshaErr × AtshaBigInt) :=
  match request.kind with
  | .hmac => atshaLowChallengeResponse env slotNumber ⟨32, request.challenge⟩ response
      request.useSnInDigest
  | .mac => atshaLowChallengeResponseMac env slotNumber ⟨32, request.challenge⟩ response
      request.useSnInDigest

/-! ## The digest -/

/-- The eight bytes of a serial number that go into a digest. -/
def serialPart (useSnInDigest : Bool) (sn : Option Block) : Option Block :=
  if useSnInDigest then sn.bind (copyOut · 8) else some (List.replicate 8 0)

/-- The bytes behind the challenge. -/
def messageTail (opcode mode slotNumber : UInt8) (serial : Block) : Block :=
  [opcode, mode, slotNumber, 0x00] ++ serial ++ [0x00, 0x00, 0x00, 0xEE] ++
    [0x00, 0x00, 0x00, 0x00, 0x01, 0x23, 0x00, 0x00]

/-- The digest of a request, under a key and with a part of a serial number. An HMAC of
another length than 32 does not count. -/
def ChallengeRequest.digest (openssl : OpenSsl) (slotNumber : UInt8) (request : ChallengeRequest)
    (key serial : Block) : Option Block :=
  match request.kind with
  | .hmac => (openssl.hmac key (List.replicate 32 0 ++ request.challenge.val ++
      messageTail atsha204OpcodeHmac (digestMode 0x04 request.useSnInDigest) slotNumber
        serial)).filter (·.length = 32)
  | .mac => (openssl.sha256 (key ++ request.challenge.val ++
      messageTail atsha204OpcodeMac (digestMode 0x00 request.useSnInDigest) slotNumber
        serial)).map (·.val)

/-! ## Two parties -/

/-- Digests that never fail, of 32 bytes. -/
def totalDigests (hmac : List UInt8 → List UInt8 → List.Vector UInt8 32)
    (sha256 : List UInt8 → List.Vector UInt8 32) : OpenSsl where
  hmac := fun key message => some (hmac key message).val
  sha256 := fun message => some (sha256 message)

/-- The two parties answer the requests, one after the other, with success and with the same
32 bytes each time. Each request comes with the two numbers that the responses go into. -/
def SameResponses (env : Env σ) (env' : Env τ) (slotNumber : UInt8) :
    List (ChallengeRequest × AtshaBigInt × AtshaBigInt) → St σ → St τ → Prop
  | [], _, _ => True
  | (request, response, response') :: requests, s, t =>
    ∃ bytes r s' r' t', bytes.length = 32 ∧
      (request.run env slotNumber response).run s = .ok (.ok, r) s' ∧ Holds r bytes ∧
      (request.run env' slotNumber response').run t = .ok (.ok, r') t' ∧ Holds r' bytes ∧
      SameResponses env env' slotNumber requests s' t'

end Atsha204.Interface
