import Atsha204.Interface.Challenge

/-!
# What the authenticated message says

The message of a digest is an array of 88 bytes on the stack, assigned byte by byte from the
packet that the operation built, from the nonce or the key, and from the serial number in
the handle. What it is made of is a request as it arrives at a handle (`BoundRequest`).
-/

set_option autoImplicit false

namespace Atsha204.Interface

open Atsha204.Library
open Atsha204.Model

variable {σ : Type}

/-- A request to a handle with this serial number, for a slot that exists. -/
structure BoundRequest where
  request : ChallengeRequest
  slotNumber : UInt8
  slot_le : slotNumber ≤ atsha204MaxSlotNumber
  sn : List.Vector UInt8 8

/-- The handle is an emulated one with the serial number of the request. -/
def BoundRequest.On (bound : BoundRequest) (s : St σ) : Prop :=
  s.handle.bottomLayer = .emulation ∧ s.handle.sn = some bound.sn.val

def BoundRequest.run (env : Env σ) (bound : BoundRequest) (response : AtshaBigInt) :
    Prog σ (AtshaErr × AtshaBigInt) := bound.request.run env bound.slotNumber response

/-! ## Assembling the message -/

/-- The indices of the message in the order in which they are assigned.
SOURCE: emulation.c:73-137, emulation.c:185-249 -/
def messageIndices : List ℕ :=
  List.range' 0 32 ++ List.range' 32 32 ++ [64, 65, 66, 67] ++
    [68, 69, 70, 71, 72, 73, 74, 75] ++ [76, 77, 78] ++ [79] ++ [80, 81, 82, 83] ++ [84, 85] ++
    [86, 87]

/-- The values are assigned, each at its index, in an array with some former content. -/
def assemble (former : Block) (values : Option Block) : Option Block :=
  values.bind fun values => pokeEach 0 messageIndices values former

/-- The message for a request: the packet of the operation, taken apart by the emulator. An HMAC
takes its challenge from the nonce, into which the operation has loaded it.
SOURCE: operations.c:133-161, emulation.c:52-138, emulation.c:159-250 -/
def BoundRequest.message (former key : Block) (bound : BoundRequest) : Option Block :=
  let request := bound.request
  match request.kind with
  | .hmac => do
    let packet ← opHmac bound.slotNumber request.useSnInDigest
    assemble former (hmacMessage packet request.challenge.val (some bound.sn.val))
  | .mac => do
    let packet ← opMac bound.slotNumber 32 request.challenge.val request.useSnInDigest
    assemble former (macMessage packet key (some bound.sn.val))

/-! ## What is passed to the digest library -/

/-- The digest of a message, an HMAC under the key. An HMAC of another length than 32 does not
count. -/
def DigestKind.digest (openssl : OpenSsl) (key message : Block) : DigestKind → Option Block
  | .hmac => (openssl.hmac key message).filter (·.length = 32)
  | .mac => (openssl.sha256 message).map (·.val)

/-- Whatever the array for the message held before, and whatever the digest library is, the
request is answered with the digest of these 88 bytes. -/
def BoundRequest.Passes (bound : BoundRequest) (key message : Block) : Prop :=
  message.length = 88 ∧
  (∀ former : Block, former.length = 88 → bound.message former key = some message) ∧
  ∀ (σ : Type) (env : Env σ) (s : St σ) (response : AtshaBigInt), bound.On s →
    storedSlot s.handle bound.slotNumber.toNat = some key →
      wp (bound.run env response) (fun r _ =>
        match bound.request.kind.digest env.openssl key message with
        | some bytes => r.1 = .ok ∧ Holds r.2 bytes
        | none => r.1 ≠ .ok) (fun _ => False) s

/-- Two messages agree in the bytes 32 to 87. -/
def AgreeBehindKey (message message' : Block) : Prop :=
  ∀ i, 32 ≤ i → i ≤ 87 → message[i]? = message'[i]?

/-- Two requests ask for the same. -/
structure SameRequest (bound bound' : BoundRequest) : Prop where
  kind : bound.request.kind = bound'.request.kind
  slotNumber : bound.slotNumber = bound'.slotNumber
  challenge : bound.request.challenge = bound'.request.challenge
  useSnInDigest : bound.request.useSnInDigest = bound'.request.useSnInDigest
  sn : bound.request.useSnInDigest = true → bound.sn = bound'.sn

end Atsha204.Interface
