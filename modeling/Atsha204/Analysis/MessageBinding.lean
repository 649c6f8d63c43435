import Atsha204.Interface.MessageBinding
import Atsha204.Analysis.Challenge

/-!
# The message binds the request

The assignments fill the array from end to end (`assemble_eq`), so the message is the key or
zeros, the challenge and the tail that `wp_challenge_emulation` found to be digested
(`message_eq`). Behind the first 32 bytes every field of the request has a place of its own,
and two requests with the same bytes there are the same (`sameRequest_of_agree`).
-/

set_option autoImplicit false

namespace Atsha204.Analysis

open Atsha204.Library
open Atsha204.Model
open Atsha204.Interface

variable {σ : Type} {env : Env σ}

/-! ## The message of a request -/

/-- The assignments leave nothing of what was there before. -/
theorem assemble_eq {former values : Block} (hformer : former.length = 88)
    (hvalues : values.length = 88) : assemble former (some values) = some values := by
  have hindices : messageIndices = List.range' 0 values.length := by
    rw [hvalues]
    rfl
  rw [assemble, Option.bind_some, hindices]
  exact pokeEach_all values former (by rw [hvalues, hformer])

/-- The part of the serial number in the message of a request. -/
def serialOf (bound : BoundRequest) : Block :=
  if bound.request.useSnInDigest then bound.sn.val else List.replicate 8 0

/-- The serial number in the message is the one of the request. -/
theorem serialPart_bound (bound : BoundRequest) :
    serialPart bound.request.useSnInDigest (some bound.sn.val) = some (serialOf bound) := by
  have hcopy : copyOut bound.sn.val 8 = some bound.sn.val := by
    rw [copyOut_of_le bound.sn.property.ge, List.take_of_length_le bound.sn.property.le]
  unfold serialPart serialOf
  rw [Option.bind_some, hcopy]
  split <;> rfl

/-- It has eight bytes. -/
theorem serialOf_length (bound : BoundRequest) : (serialOf bound).length = 8 := by
  unfold serialOf
  split
  · exact bound.sn.property
  · rfl

/-- The opcode in the message. -/
def opcodeOf : DigestKind → UInt8
  | .hmac => atsha204OpcodeHmac
  | .mac => atsha204OpcodeMac

/-- The mode in the message. -/
def modeOf (useSnInDigest : Bool) : DigestKind → UInt8
  | .hmac => digestMode 0x04 useSnInDigest
  | .mac => digestMode 0x00 useSnInDigest

/-- What stands in front of the challenge. -/
def frontOf (key : Block) : DigestKind → Block
  | .hmac => List.replicate 32 0
  | .mac => key

/-- The 88 bytes that a request stands for. -/
def messageOf (key : Block) (bound : BoundRequest) : Block :=
  frontOf key bound.request.kind ++ (bound.request.challenge.val ++
    messageTail (opcodeOf bound.request.kind) (modeOf bound.request.useSnInDigest bound.request.kind)
      bound.slotNumber (serialOf bound))

/-- What stands in front of the message has 32 bytes. -/
theorem frontOf_length {key : Block} (hkey : key.length = 32) (kind : DigestKind) :
    (frontOf key kind).length = 32 := by
  cases kind with
  | hmac => rfl
  | mac => exact hkey

/-- The whole message has 88 bytes. -/
theorem messageOf_length {key : Block} (hkey : key.length = 32) (bound : BoundRequest) :
    (messageOf key bound).length = 88 := by
  have hchallenge : bound.request.challenge.val.length = 32 := bound.request.challenge.property
  unfold messageOf messageTail
  simp only [List.length_append, frontOf_length hkey, hchallenge, serialOf_length,
    List.length_cons, List.length_nil]

/-- The message is assembled from the packet of the request, whatever was in the array.
SOURCE: emulation.c:71-138, emulation.c:184-250 -/
theorem message_eq {former key : Block} (hformer : former.length = 88) (hkey : key.length = 32)
    (bound : BoundRequest) : bound.message former key = some (messageOf key bound) := by
  have hfull := assemble_eq hformer (messageOf_length hkey bound)
  have hserial := serialPart_bound bound
  obtain ⟨⟨kind, challenge, useSn⟩, slotNumber, hslot, sn⟩ := bound
  cases kind with
  | hmac =>
    have htail := digestTail_eq atsha204OpcodeHmac atsha204OpcodeHmac 0x04 slotNumber [] (.inl rfl)
      useSn (some sn.val)
    rw [hserial] at htail
    simp only [BoundRequest.message, opHmac_eq, Option.bind_eq_bind, Option.bind_some, hmacMessage,
      htail, Option.map_some]
    rw [List.append_assoc]
    exact hfull
  | mac =>
    have htail := digestTail_eq atsha204OpcodeMac atsha204OpcodeMac 0x00 slotNumber challenge.val
      (.inr rfl) useSn (some sn.val)
    have hchallenge : copyOut ((commandPacket atsha204OpcodeMac (digestMode 0x00 useSn)
        slotNumber.toUInt16 challenge.val).drop 5) 32 = some challenge.val :=
      copyOut_commandData _ _ _ challenge.property
    rw [hserial] at htail
    simp only [BoundRequest.message, opMac_eq slotNumber useSn challenge.property,
      Option.bind_eq_bind, Option.bind_some, macMessage, hchallenge, htail, Option.map_some]
    rw [List.append_assoc]
    exact hfull

/-- The digest of a request is the one of its message. -/
theorem digest_messageOf (openssl : OpenSsl) (key : Block) (bound : BoundRequest) :
    bound.request.digest openssl bound.slotNumber key (serialOf bound) =
      bound.request.kind.digest openssl key (messageOf key bound) := by
  unfold ChallengeRequest.digest DigestKind.digest messageOf modeOf
  cases bound.request.kind <;> simp only [frontOf, opcodeOf, List.append_assoc]

/-- The message of a request is what its answer is the digest of. -/
theorem passes_messageOf {key : Block} (hkey : key.length = 32) (bound : BoundRequest) :
    bound.Passes key (messageOf key bound) := by
  refine ⟨messageOf_length hkey bound, fun former hformer => message_eq hformer hkey bound, ?_⟩
  rintro σ env s response ⟨hlayer, hsn⟩ hstored
  have hchallenge := @wp_challenge_emulation σ env s hlayer bound.slotNumber bound.slot_le
    bound.request response
  rw [hsn, serialPart_bound, hstored] at hchallenge
  refine wp_mono hchallenge ?_ fun _ h => by simp at h
  rintro r s' ⟨nonce, -, hresponse⟩
  rwa [digest_messageOf] at hresponse

/-! ## What the message tells -/

/-- The mode tells whether the serial number is used.
SOURCE: emulation.c:57-70 -/
theorem modeOf_inj {kind : DigestKind} {useSn useSn' : Bool}
    (h : modeOf useSn kind = modeOf useSn' kind) : useSn = useSn' := by
  have huses : ∀ useSn, usesSn (modeOf useSn kind) = useSn := by
    intro useSn
    cases kind with
    | hmac => exact usesSn_digestMode 0x04 (.inl rfl) useSn
    | mac => exact usesSn_digestMode 0x00 (.inr rfl) useSn
  rw [← huses useSn, h, huses useSn']

/-- Messages of 88 bytes that agree behind the key end in the same. -/
theorem drop_eq_of_agree {message message' : Block} (hlen : message.length = 88)
    (hlen' : message'.length = 88) (h : AgreeBehindKey message message') :
    message.drop 32 = message'.drop 32 := by
  apply List.ext_getElem?
  intro i
  rw [List.getElem?_drop, List.getElem?_drop]
  by_cases hi : 32 + i ≤ 87
  · exact h (32 + i) (by omega) hi
  · rw [List.getElem?_eq_none (by omega), List.getElem?_eq_none (by omega)]

/-- Two requests whose messages agree behind the key are the same. -/
theorem sameRequest_of_agree {key key' : Block} (hkey : key.length = 32) (hkey' : key'.length = 32)
    {bound bound' : BoundRequest}
    (h : AgreeBehindKey (messageOf key bound) (messageOf key' bound')) :
    SameRequest bound bound' := by
  have hdrop := drop_eq_of_agree (messageOf_length hkey bound) (messageOf_length hkey' bound') h
  unfold messageOf at hdrop
  rw [List.drop_left' (frontOf_length hkey _), List.drop_left' (frontOf_length hkey' _)] at hdrop
  have hchallenges : bound.request.challenge.val.length = bound'.request.challenge.val.length :=
    bound.request.challenge.property.trans bound'.request.challenge.property.symm
  obtain ⟨hchallenge, htail⟩ := List.append_inj hdrop hchallenges
  unfold messageTail at htail
  simp only [List.cons_append, List.nil_append, List.cons.injEq, true_and] at htail
  obtain ⟨hopcode, hmode, hslot, hbehind⟩ := htail
  have hserials : (serialOf bound).length = (serialOf bound').length := by
    rw [serialOf_length, serialOf_length]
  have hserial : serialOf bound = serialOf bound' :=
    (List.append_inj (by simpa only [List.append_assoc] using hbehind) hserials).1
  have hkind : bound.request.kind = bound'.request.kind := by
    revert hopcode
    cases bound.request.kind <;> cases bound'.request.kind <;> decide
  have huse : bound.request.useSnInDigest = bound'.request.useSnInDigest := by
    rw [← hkind] at hmode
    exact modeOf_inj hmode
  refine ⟨hkind, hslot, Subtype.ext hchallenge, huse, fun hsn => Subtype.ext ?_⟩
  unfold serialOf at hserial
  rwa [← huse, hsn, if_pos rfl, if_pos rfl] at hserial

/-- Two requests, with the keys of their slots: each is answered with the digest of a message of
88 bytes, none of them left over from before; if the messages agree in the bytes 32 to 87 then
the requests are the same; and a message without a serial number does not depend on it.
SOURCE: operations.c:124-161, emulation.c:52-252, api.c:492-618 -/
theorem message_binds_request (bound bound' : BoundRequest) (key key' : List.Vector UInt8 32) :
    ∃ message message', bound.Passes key.val message ∧ bound'.Passes key'.val message' ∧
      (AgreeBehindKey message message' → SameRequest bound bound') ∧
      (bound.request.useSnInDigest = false →
        ∀ sn, ({ bound with sn := sn } : BoundRequest).Passes key.val message) := by
  refine ⟨messageOf key.val bound, messageOf key'.val bound', passes_messageOf key.property bound,
    passes_messageOf key'.property bound', sameRequest_of_agree key.property key'.property, ?_⟩
  intro huse sn
  have hsame : messageOf key.val { bound with sn := sn } = messageOf key.val bound := by
    unfold messageOf serialOf
    simp only [huse]
    rfl
  rw [← hsame]
  exact passes_messageOf key.property { bound with sn := sn }

end Atsha204.Analysis
