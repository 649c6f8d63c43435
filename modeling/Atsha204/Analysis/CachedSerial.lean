import Atsha204.Analysis.EmulatedHandle
import Atsha204.Analysis.Trails

/-!
# The cached serial number is indexed inside

A handle on the emulation layer has eight bytes of a serial number. The digests use the
indices up to seven; only the first word of the configuration zone, read of a server, uses
the ninth byte. So in every run of calls without such a read each index is inside
(`sn_inside_of_calls`). That the packets handed to the emulator are harmless is kept by every
part of every operation.

The indices are those of the cells that the emulator reads: it forms a digest, or an answer,
exactly when they are inside (`digestTail_isSome_iff`, `serverSerialNumber_isSome_iff`).
-/

set_option autoImplicit false

namespace Atsha204.Analysis

open Atsha204.Library
open Atsha204.Model
open Atsha204.Interface

variable {σ α : Type} {env : Env σ}

/-! ## The indices -/

/-- Bytes of a serial number can be looked at exactly where all the indices are inside. -/
theorem mapM_peekAt_isSome_iff (sn : Block) (indices : List Int) :
    (indices.mapM (peekAt (some sn))).isSome ↔ ∀ i ∈ indices, 0 ≤ i ∧ i < sn.length := by
  rw [mapM_isSome_iff]
  exact forall₂_congr fun i _ => peek_isSome_iff sn i

section Indices

variable {packet : Block} {opcode param1 address : UInt8}
  (hopcode : peek packet positionOpcode = some opcode)
  (hparam1 : peek packet positionParam1 = some param1)
  (haddress : peek packet positionAddress = some address)
include hopcode hparam1 haddress

/-- A digest is formed exactly when its indices are inside the serial number. -/
theorem digestTail_isSome_iff {slotHigh : UInt8}
    (hdigest : opcode = atsha204OpcodeHmac ∨ opcode = atsha204OpcodeMac)
    (hhigh : peek packet (positionParam1 + 2) = some slotHigh) (server : Bool) (sn : Block) :
    (digestTail opcode packet (some sn)).isSome ↔
      ∀ i ∈ snIndices server packet, 0 ≤ i ∧ i < sn.length := by
  have hindices : snIndices server packet =
      if usesSn param1 then [0, 1, 2, 3, 4, 5, 6, 7] else [] := by
    simp only [snIndices, hopcode, hparam1, haddress]
    rw [if_pos hdigest]
    rfl
  have hlow : peek packet (positionParam1 + 1) = some address := haddress
  rw [hindices]
  simp only [digestTail, hparam1, hlow, hhigh, useOurSn, Option.bind_eq_bind, Option.bind_some,
    Bool.true_and, Bool.not_true, Bool.false_and, Bool.false_eq_true, if_false]
  cases usesSn param1 with
  | false => exact iff_of_true rfl fun i hi => absurd hi List.not_mem_nil
  | true =>
    rw [if_pos rfl, if_pos rfl, ← mapM_peekAt_isSome_iff]
    generalize ([0, 1, 2, 3, 4, 5, 6, 7] : List Int).mapM (peekAt (some sn)) = otp
    cases otp <;> rfl

/-- A server gives out its serial number exactly when the indices are inside it. -/
theorem serverSerialNumber_isSome_iff (hread : opcode = atsha204OpcodeRead)
    (hzone : param1 &&& 0x3 = ioMemConfig) (hstart : address = 0x00) (sn : Block) :
    (serverSerialNumber (some sn)).isSome ↔
      ∀ i ∈ snIndices true packet, 0 ≤ i ∧ i < sn.length := by
  have hindices : snIndices true packet = [0, 1, 2, 3] ++ [4, 5, 6, 7, 8] := by
    simp only [snIndices, hopcode, hparam1, haddress]
    rw [if_neg (by rw [hread]; decide), if_pos hread, if_pos ⟨hzone, hstart, trivial⟩]
  rw [hindices, List.forall_mem_append, ← mapM_peekAt_isSome_iff, ← mapM_peekAt_isSome_iff]
  unfold serverSerialNumber
  generalize ([0, 1, 2, 3] : List Int).mapM (peekAt (some sn)) = front
  generalize ([4, 5, 6, 7, 8] : List Int).mapM (peekAt (some sn)) = back
  cases front <;> cases back <;> simp

end Indices

/-- The indices that the emulator uses for the packet are below eight. -/
def Harmless (server : Bool) (packet : Block) : Prop :=
  ∀ i ∈ snIndices server packet, 0 ≤ i ∧ i < 8

/-- Only the first word of the configuration zone, read of a server, is not harmless. -/
theorem harmless_commandPacket {server : Bool} {opcode param1 : UInt8} {param2 : UInt16}
    {data : Block} (h : opcode = atsha204OpcodeRead → param1 &&& 0x3 = ioMemConfig →
      peek (commandPacket opcode param1 param2 data) positionAddress = some 0x00 →
      server = false) : Harmless server (commandPacket opcode param1 param2 data) := by
  obtain ⟨address, haddress⟩ : ∃ address,
      peek (commandPacket opcode param1 param2 data) positionAddress = some address := ⟨_, rfl⟩
  rw [haddress] at h
  unfold Harmless
  simp only [snIndices, haddress, positionOpcode, positionParam1, peek_opcode, peek_param1]
  split
  · split
    · exact List.forall_iff_forall_mem.mp (by decide)
    · exact fun i hi => absurd hi List.not_mem_nil
  · split
    · rename_i hread
      split
      · rename_i hstart
        have hdevice := h hread hstart.1 (congrArg some hstart.2.1)
        rw [hdevice] at hstart
        cases hstart.2.2
      · exact fun i hi => absurd hi List.not_mem_nil
    · exact fun i hi => absurd hi List.not_mem_nil

/-- Where the packet can be built, it is harmless. -/
def BuiltHarmless (server : Bool) (packet : Option Block) : Prop :=
  ∀ bytes, packet = some bytes → Harmless server bytes

/-- What is built with another opcode than a read is harmless. -/
theorem builtHarmless_of_opcode (server : Bool) {opcode : UInt8} (hopcode : opcode ≠ atsha204OpcodeRead)
    (param1 : UInt8) (param2 : UInt16) {data : Block} (hdata : data.length ≤ 32)
    (dataCount : UInt8) :
    BuiltHarmless server (generateCommandPacket opcode param1 param2 data dataCount) := by
  intro bytes hbuilt
  obtain ⟨sent, -, rfl⟩ := exists_of_generateCommandPacket hdata hbuilt
  exact harmless_commandPacket fun hread => absurd hread hopcode

/-- A read is harmless unless a server reads the first word of the configuration zone. -/
theorem builtHarmless_read {server : Bool} {zone address : UInt8}
    (h : zone &&& 0x3 = ioMemConfig → address = 0 → server = false) :
    BuiltHarmless server (opRawRead zone address) := by
  intro bytes hbuilt
  rw [opRawRead_eq] at hbuilt
  obtain rfl := Option.some_inj.mp hbuilt
  apply harmless_commandPacket
  intro _ hzone haddress
  rw [positionAddress, peek_address] at haddress
  exact h hzone (Option.some_inj.mp haddress)

/-! ## The emulator -/

/-- What is asked of an event. -/
def HarmlessEvent (server : Bool) : Event σ → Prop
  | .emulated packet => Harmless server packet
  | _ => True

/-- The handle is on the emulation layer, and since the earlier state only harmless packets were
handed to the emulator, and nothing was sent on the bus. -/
structure HarmlessSince (server : Bool) (s₀ s : St σ) : Prop where
  layer : s.handle.bottomLayer = .emulation
  trail : Trail (HarmlessEvent server) s₀ s
  bus : s.bus = s₀.bus

section Emulator

variable {server : Bool} {s₀ : St σ}

/-- A harmless event keeps the trace harmless. -/
theorem emit_keeps {e : Event σ} (h : HarmlessEvent server e) :
    Keeps (HarmlessSince server s₀) (emit e) :=
  fun s hs => ⟨hs.layer, hs.trail.trans (.exchanged s s.bus h), hs.bus⟩

/-- A line of the log does. -/
theorem logMessage_keeps (text : String) : Keeps (HarmlessSince server s₀) (logMessage text) :=
  emit_keeps trivial

/-- A partial access does, also where it faults. -/
theorem access_keeps (o : Option α) : Keeps (HarmlessSince server s₀) (access o) :=
  Keeps.orFault _ o

/-- A look at the handle does. -/
theorem getHandle_keeps : Keeps (HarmlessSince server s₀) getHandle := fun _ hs => hs

/-- An early return with an entry in the log. -/
theorem logged_keeps (text : String) (a : α) :
    Keeps (HarmlessSince server s₀) (do logMessage text; return a) :=
  (logMessage_keeps text).bind fun _ => .pure a

/-- A change of the handle does that keeps its layer. -/
theorem modifyHandle_keeps {f : AtshaHandle → AtshaHandle}
    (h : ∀ handle, (f handle).bottomLayer = handle.bottomLayer) :
    Keeps (HarmlessSince server s₀) (modifyHandle f) :=
  fun s hs => ⟨(h s.handle).trans hs.layer, hs.trail, hs.bus⟩

/-- A read of the file does. -/
theorem withFile_keeps (x : FileProg α) : Keeps (HarmlessSince server s₀) (withFile x) := by
  unfold withFile
  apply getHandle_keeps.bind
  intro handle
  apply (access_keeps handle.file).bind
  intro file
  split
  · apply Keeps.bind
    · exact modifyHandle_keeps fun _ => rfl
    · exact fun _ => .pure _
  · apply Keeps.bind
    · exact modifyHandle_keeps fun _ => rfl
    · exact fun _ => .throw _

/-- Skipping lines does. -/
theorem skipLines_keeps (tooFew : String) (n : ℕ) (line : Model.Line) :
    Keeps (HarmlessSince server s₀) (skipLines tooFew n line) := by
  induction n generalizing line with
  | zero => exact .pure _
  | succ n ih =>
    unfold skipLines
    apply (withFile_keeps _).bind
    intro next
    cases next with
    | none => exact logged_keeps _ _
    | some next => exact ih next

/-- Reading a line of digits does. -/
theorem readHexLine_keeps (noLine tooShort : String) (nextIndex : ℕ → ℕ) (count : ℕ) (out : Block)
    (line : Model.Line) :
    Keeps (HarmlessSince server s₀) (readHexLine noLine tooShort nextIndex count out line) := by
  unfold readHexLine
  apply (withFile_keeps _).bind
  intro next
  cases next with
  | none => exact logged_keeps _ _
  | some next =>
    apply (access_keeps _).bind
    intro bytes
    cases bytes with
    | none => exact logged_keeps _ _
    | some bytes => exact .pure _

/-- An answer of the emulated device does. -/
theorem answerWith_keeps (data : Block) (dataCount : UInt8) :
    Keeps (HarmlessSince server s₀) (answerWith data dataCount) :=
  (access_keeps _).bind fun _ => .pure _

/-- An answer with a line of the file does. -/
theorem answerLine_keeps (tooFew noLine tooShort : String) (nextIndex : ℕ → ℕ) (count : ℕ)
    (out : Block) (dataCount : UInt8) (k : ℕ) (line : Model.Line) :
    Keeps (HarmlessSince server s₀)
      (answerLine tooFew noLine tooShort nextIndex count out dataCount k line) := by
  unfold answerLine
  apply (skipLines_keeps tooFew k line).bind
  intro next
  cases next with
  | none => exact .pure _
  | some next =>
    apply (readHexLine_keeps noLine tooShort nextIndex count out next).bind
    intro data
    cases data with
    | none => exact .pure _
    | some data => exact answerWith_keeps data dataCount

/-- So does an emulated read.
SOURCE: emulation.c:281-451 -/
theorem emulRead_keeps (packet : Block) :
    Keeps (HarmlessSince server s₀) (emulRead env packet) := by
  unfold emulRead
  apply (access_keeps _).bind
  intro param1
  dsimp only
  split
  · apply (access_keeps _).bind
    intro address
    split
    · exact logged_keeps _ _
    · apply getHandle_keeps.bind
      intro handle
      split
      · exact (access_keeps _).bind fun sn => answerWith_keeps sn _
      · exact (withFile_keeps rewind).bind fun _ => answerLine_keeps _ _ _ _ _ _ _ _ _
  · split
    · apply getHandle_keeps.bind
      intro handle
      split
      · exact (access_keeps _).bind fun key => answerWith_keeps key _
      · apply (withFile_keeps rewind).bind
        intro _
        exact (access_keeps _).bind fun address => answerLine_keeps _ _ _ _ _ _ _ _ _
    · split
      · apply getHandle_keeps.bind
        intro handle
        split
        · exact logged_keeps _ _
        · apply (withFile_keeps rewind).bind
          intro _
          apply (skipLines_keeps _ _ _).bind
          intro next
          cases next with
          | none => exact .pure _
          | some next => exact (access_keeps _).bind fun address => answerLine_keeps _ _ _ _ _ _ _ _ _
      · exact logged_keeps _ _

/-- So does an emulated nonce.
SOURCE: emulation.c:41-50 -/
theorem emulNonce_keeps (packet : Block) :
    Keeps (HarmlessSince server s₀) (emulNonce packet) := by
  unfold emulNonce
  apply (access_keeps _).bind
  intro bytes
  apply getHandle_keeps.bind
  intro handle
  apply (access_keeps _).bind
  intro nonce
  apply Keeps.bind
  · exact modifyHandle_keeps fun _ => rfl
  · exact fun _ => answerWith_keeps _ _

section Digests

variable {rawSlotRead : SlotRead σ}
  (hread : ∀ slotNumber number, Keeps (HarmlessSince server s₀) (rawSlotRead slotNumber number))
include hread

/-- So does an emulated HMAC, if its slot read does.
SOURCE: emulation.c:52-157 -/
theorem emulHmac_keeps (packet : Block) :
    Keeps (HarmlessSince server s₀) (emulHmac env rawSlotRead packet) := by
  unfold emulHmac
  apply getHandle_keeps.bind
  intro handle
  apply (access_keeps _).bind
  intro message
  apply (access_keeps _).bind
  intro slot
  apply (hread slot _).bind
  rintro ⟨status, key⟩
  dsimp only
  split
  · exact logged_keeps _ _
  · apply (access_keeps _).bind
    intro keyBytes
    split
    · exact logged_keeps _ _
    · split
      · exact logged_keeps _ _
      · exact answerWith_keeps _ _

/-- So does an emulated MAC, if its slot read does.
SOURCE: emulation.c:159-262 -/
theorem emulMac_keeps (packet : Block) :
    Keeps (HarmlessSince server s₀) (emulMac env rawSlotRead packet) := by
  unfold emulMac
  apply (access_keeps _).bind
  intro slot
  apply (hread slot _).bind
  rintro ⟨status, key⟩
  dsimp only
  split
  · exact logged_keeps _ _
  · apply getHandle_keeps.bind
    intro handle
    apply (access_keeps _).bind
    intro message
    split
    · exact logged_keeps _ _
    · exact answerWith_keeps _ _

/-- So does every harmless command to the emulated device.
SOURCE: emulation.c:453-485 -/
theorem emulCommand_keeps {packet : Block} (hpacket : Harmless server packet) :
    Keeps (HarmlessSince server s₀) (emulCommand env rawSlotRead packet) := by
  have hemit : Keeps (HarmlessSince server s₀) (emit (.emulated packet)) := emit_keeps hpacket
  unfold emulCommand
  apply hemit.bind
  intro _
  apply (access_keeps _).bind
  intro opcode
  split
  · exact emulHmac_keeps hread packet
  · split
    · exact emulMac_keeps hread packet
    · split
      · exact emulRead_keeps packet
      · split
        · exact emulNonce_keeps packet
        · split
          · exact answerWith_keeps _ _
          · exact logged_keeps _ _

/-- A command to the emulation layer is one call of the emulator. -/
theorem command_keeps {packet : Block} (hpacket : Harmless server packet) :
    Keeps (HarmlessSince server s₀) (command env rawSlotRead packet none) := by
  intro s hs
  have hemul : wp (emulCommand env rawSlotRead packet) (fun _ s' => HarmlessSince server s₀ s')
      (HarmlessSince server s₀) s := emulCommand_keeps hread hpacket s hs
  unfold wp at hemul ⊢
  rw [command_run_emulation hs.layer]
  exact hemul

end Digests

end Emulator

/-! ## The operations -/

section Operations

variable {server : Bool} {s₀ : St σ}

/-- A session keeps the trace harmless if its body does. -/
theorem session_keeps (out : α) {body : Prog σ (AtshaErr × α)}
    (hbody : Keeps (HarmlessSince server s₀) body) :
    Keeps (HarmlessSince server s₀) (session env out body) := by
  intro s hs
  rw [wp_session_emulation hs.layer]
  apply wp_mono (hbody (flagged true s) ⟨hs.layer, hs.trail, hs.bus⟩)
  · intro r s' hs'
    split
    · rw [idled_emulation hs'.layer]
      exact ⟨hs'.layer, hs'.trail, hs'.bus⟩
    · exact hs'
  · exact fun _ hE => hE

/-- The way of sending hands only harmless packets on. -/
def SendsHarmless (server : Bool) (s₀ : St σ) (send : Send σ) : Prop :=
  ∀ packet, Harmless server packet → Keeps (HarmlessSince server s₀) (send packet)

/-- An exchange of data does if its packet is harmless. -/
theorem dataExchange_keeps {send : Send σ} (hsend : SendsHarmless server s₀ send)
    {packet : Option Block} (hpacket : BuiltHarmless server packet) {recv : DataRecv σ}
    (hrecv : ∀ answer buffer, Keeps (HarmlessSince server s₀) (recv answer buffer))
    (number : AtshaBigInt) :
    Keeps (HarmlessSince server s₀) (dataExchange send packet recv number) := by
  unfold dataExchange
  cases packet with
  | none => exact .throw _
  | some bytes =>
    apply (hsend bytes (hpacket bytes rfl)).bind
    rintro ⟨status, answer⟩
    dsimp only
    split
    · exact .pure _
    · apply (access_keeps _).bind
      intro answer
      apply (hrecv answer number.data).bind
      rintro ⟨size, data⟩
      dsimp only
      split
      · exact .pure _
      · exact .pure _

/-- So does an exchange for a status. -/
theorem statusExchange_keeps {send : Send σ} (hsend : SendsHarmless server s₀ send)
    {packet : Option Block} (hpacket : BuiltHarmless server packet) {recv : Block → Prog σ AtshaErr}
    (hrecv : ∀ answer, Keeps (HarmlessSince server s₀) (recv answer)) :
    Keeps (HarmlessSince server s₀) (statusExchange send packet recv) := by
  unfold statusExchange
  cases packet with
  | none => exact .throw _
  | some bytes =>
    apply (hsend bytes (hpacket bytes rfl)).bind
    rintro ⟨status, answer⟩
    dsimp only
    split
    · exact .pure _
    · apply (access_keeps _).bind
      intro answer
      exact (hrecv answer).bind fun _ => .pure _

/-- Decoding data does. -/
theorem readLongData_keeps (answer : Block) (buffer : List.Vector UInt8 atshaMaxDataSize) :
    Keeps (HarmlessSince server s₀) (readLongData answer buffer) := by
  unfold readLongData
  apply (access_keeps _).bind
  intro count
  dsimp only
  split
  · exact logged_keeps _ _
  · apply (access_keeps _).bind
    intro bytes
    exact (access_keeps _).bind fun _ => .pure _

/-- Decoding a status does. -/
theorem justCheckStatus_keeps (answer : Block) :
    Keeps (HarmlessSince server s₀) (justCheckStatus answer) := by
  unfold justCheckStatus
  apply (access_keeps _).bind
  intro status
  split
  · exact .pure _
  · exact logged_keeps _ _

/-- A slot read is harmless.
SOURCE: api.c:394-435 -/
theorem rawSlotRead_keeps {send : Send σ} (hsend : SendsHarmless server s₀ send)
    (slotNumber : UInt8) (number : AtshaBigInt) :
    Keeps (HarmlessSince server s₀) (atshaRawSlotReadWith env send slotNumber number) := by
  unfold atshaRawSlotReadWith
  split
  · exact logged_keeps _ _
  · apply session_keeps
    apply dataExchange_keeps hsend _ readLongData_keeps
    intro bytes hbytes
    obtain ⟨address, -, hread⟩ := Option.bind_eq_some_iff.mp hbytes
    have hzone : getZoneConfig ioMemData ioRwNonEnc ioRw32Bytes &&& 0x3 ≠ ioMemConfig := by decide
    exact builtHarmless_read (fun h => absurd h hzone) bytes hread

/-- What a public operation sends is harmless when its packet is. -/
theorem send_keeps : SendsHarmless server s₀ (send env) := by
  have hnested : ∀ slotNumber number,
      Keeps (HarmlessSince server s₀) (nestedSlotRead env slotNumber number) := by
    apply rawSlotRead_keeps
    intro packet hpacket
    exact command_keeps (fun _ _ => .throw _) hpacket
  intro packet hpacket
  exact command_keeps hnested hpacket

/-- A session of one exchange for data. -/
theorem dataSession_keeps {packet : Option Block} (hpacket : BuiltHarmless server packet)
    {recv : DataRecv σ}
    (hrecv : ∀ answer buffer, Keeps (HarmlessSince server s₀) (recv answer buffer))
    (number : AtshaBigInt) :
    Keeps (HarmlessSince server s₀)
      (session env number (dataExchange (send env) packet recv number)) :=
  session_keeps number (dataExchange_keeps send_keeps hpacket hrecv number)

/-- A session of one exchange for a status. -/
theorem statusSession_keeps {packet : Option Block} (hpacket : BuiltHarmless server packet) :
    Keeps (HarmlessSince server s₀)
      (session env () (statusExchange (send env) packet justCheckStatus)) :=
  session_keeps () (statusExchange_keeps send_keeps hpacket justCheckStatus_keeps)

/-- The read of a word is harmless, but for the first one of a server's configuration zone. -/
theorem rawRead_keeps {zone address : UInt8}
    (h : zone &&& 0x3 = ioMemConfig → address = 0 → server = false) (number : AtshaBigInt) :
    Keeps (HarmlessSince server s₀)
      (session env number (dataExchange (send env) (opRawRead zone address) opRawReadRecv number)) :=
  dataSession_keeps (builtHarmless_read h) readLongData_keeps number

/-- An OTP read is. -/
theorem otpRead_keepsHarmless (address : UInt8) (number : AtshaBigInt) :
    Keeps (HarmlessSince server s₀) (atshaRawOtpRead env address number) := by
  have hzone : getZoneConfig ioMemOtp ioRwNonEnc ioRw4Bytes &&& 0x3 ≠ ioMemConfig := by decide
  exact rawRead_keeps (fun h => absurd h hzone) number

/-- A read of the configuration zone is, unless a server reads its first word. -/
theorem confRead_keeps {address : UInt8} (h : address = 0 → server = false) (number : AtshaBigInt) :
    Keeps (HarmlessSince server s₀) (atshaRawConfRead env address number) :=
  rawRead_keeps (fun _ => h) number

/-- No write is a read.
SOURCE: api.c:444-483, api.c:735-769, api.c:809-883 -/
theorem writeCall_keeps (call : WriteCall) (data : AtshaBigInt) :
    Keeps (HarmlessSince server s₀) (call.run env data) := by
  have hwrite : ∀ zone address, BuiltHarmless server
      (opRawWrite zone address data.bytes data.data.val) := fun _ _ =>
    builtHarmless_of_opcode server (by decide) _ _ data.data.property.le _
  cases call with
  | slot slotNumber =>
    change Keeps _ (atshaRawSlotWrite env slotNumber data)
    unfold atshaRawSlotWrite
    split
    · exact logged_keeps _ _
    · apply statusSession_keeps
      intro bytes hbytes
      obtain ⟨address, -, hbuilt⟩ := Option.bind_eq_some_iff.mp hbytes
      exact hwrite _ address bytes hbuilt
  | conf address => exact statusSession_keeps (hwrite _ address)
  | otp address => exact statusSession_keeps (hwrite _ address)
  | otp32 address =>
    change Keeps _ (atshaRawOtp32Write env address data)
    unfold atshaRawOtp32Write
    split
    · exact .pure _
    · exact statusSession_keeps (hwrite _ address)

/-- An HMAC is harmless.
SOURCE: api.c:492-561 -/
theorem challengeResponse_keeps (slotNumber : UInt8) (challenge response : AtshaBigInt)
    (useSn : Bool) :
    Keeps (HarmlessSince server s₀)
      (atshaLowChallengeResponse env slotNumber challenge response useSn) := by
  unfold atshaLowChallengeResponse
  split
  · exact logged_keeps _ _
  · split
    · exact logged_keeps _ _
    · have hnonce : BuiltHarmless server (opNonce challenge.bytes challenge.data.val) :=
        builtHarmless_of_opcode server (by decide) _ _ challenge.data.property.le _
      have hhmac : BuiltHarmless server (opHmac slotNumber useSn) :=
        builtHarmless_of_opcode server (by decide) _ _ (by decide) _
      apply session_keeps
      apply (statusExchange_keeps send_keeps hnonce justCheckStatus_keeps).bind
      rintro ⟨status, _⟩
      dsimp only
      split
      · exact .pure _
      · exact dataExchange_keeps send_keeps hhmac readLongData_keeps response

/-- A MAC is.
SOURCE: api.c:570-618 -/
theorem challengeResponseMac_keeps (slotNumber : UInt8) (challenge response : AtshaBigInt)
    (useSn : Bool) :
    Keeps (HarmlessSince server s₀)
      (atshaLowChallengeResponseMac env slotNumber challenge response useSn) := by
  unfold atshaLowChallengeResponseMac
  split
  · exact logged_keeps _ _
  · split
    · exact logged_keeps _ _
    · apply dataSession_keeps _ readLongData_keeps
      exact builtHarmless_of_opcode server (by decide) _ _ challenge.data.property.le _

/-- The serial number in the OTP zone is. -/
theorem serialNumber_keeps (number : AtshaBigInt) :
    Keeps (HarmlessSince server s₀) (atshaSerialNumber env number) := by
  unfold atshaSerialNumber
  have hours : useOurSn = true := rfl
  rw [if_pos hours]
  apply (otpRead_keepsHarmless _ _).bind
  rintro ⟨status, part⟩
  dsimp only
  split
  · exact .pure _
  · apply (access_keeps _).bind
    intro data
    apply (otpRead_keepsHarmless _ _).bind
    rintro ⟨status', part'⟩
    dsimp only
    split
    · exact .pure _
    · exact (access_keeps _).bind fun _ => .pure _

/-- The word of the address is not the first one.
SOURCE: api.c:680-695 -/
theorem changeAddress_keeps (address : UInt8) :
    Keeps (HarmlessSince server s₀) (atshaChangeAddress env address) := by
  have hword : atsha204CnfMemoryMapI2cAddress ≠ 0 := by decide
  unfold atshaChangeAddress
  split
  · exact .pure _
  · apply (confRead_keeps (fun h => absurd h hword) _).bind
    rintro ⟨status, line⟩
    dsimp only
    split
    · exact .pure _
    · apply (access_keeps _).bind
      intro data
      have hwrite : ∀ data : AtshaBigInt, Keeps (HarmlessSince server s₀)
          (atshaRawConfWrite env atsha204CnfMemoryMapI2cAddress data) :=
        fun data => writeCall_keeps (.conf atsha204CnfMemoryMapI2cAddress) data
      exact hwrite _

/-- The revision is. -/
theorem devRev_keeps (revision : UInt32) :
    Keeps (HarmlessSince server s₀) (atshaDevRev env revision) := by
  have hpacket : BuiltHarmless server opDevRev :=
    builtHarmless_of_opcode server (by decide) _ _ (by decide) _
  unfold atshaDevRev
  apply session_keeps
  cases hbuilt : opDevRev with
  | none => exact .throw _
  | some bytes =>
    apply (send_keeps bytes (hpacket bytes hbuilt)).bind
    rintro ⟨status, answer⟩
    dsimp only
    split
    · exact .pure _
    · apply (access_keeps _).bind
      intro answer
      exact (access_keeps _).bind fun _ => .pure _

/-- The serial number of the chip is, unless a server asks for it. -/
theorem chipSerialNumber_keeps (h : server = false) (number : AtshaBigInt) :
    Keeps (HarmlessSince server s₀) (atshaChipSerialNumber env number) := by
  have hsame : opSerialNumber =
      opRawRead (getZoneConfig ioMemConfig ioRwNonEnc ioRw32Bytes) 0 := rfl
  have hpacket : BuiltHarmless server opSerialNumber := by
    rw [hsame]
    exact builtHarmless_read fun _ _ => h
  apply dataSession_keeps hpacket
  intro answer buffer
  unfold opSerialNumberRecv
  apply (access_keeps _).bind
  intro bytes
  exact (access_keeps _).bind fun _ => .pure _

/-- Every plain call is harmless, unless a server reads the first word of the configuration zone. -/
theorem plainCall_keeps (call : PlainCall) (h : call = .confRead 0 → server = false)
    (number : AtshaBigInt) : Keeps (HarmlessSince server s₀) (call.run env number) := by
  cases call with
  | random =>
    apply dataSession_keeps _ readLongData_keeps
    exact builtHarmless_of_opcode server (by decide) _ _ (by decide) _
  | slotRead slotNumber => exact rawSlotRead_keeps send_keeps slotNumber number
  | confRead address => exact confRead_keeps (fun hzero => h (hzero ▸ rfl)) number
  | otpRead address => exact otpRead_keepsHarmless address number
  | respond kind slotNumber challenge useSn =>
    cases kind with
    | hmac => exact challengeResponse_keeps slotNumber challenge number useSn
    | mac => exact challengeResponseMac_keeps slotNumber challenge number useSn
  | write call data => exact (writeCall_keeps call data).bind fun _ => .pure _
  | lockConfig crc | lockData crc =>
    apply (statusSession_keeps _).bind fun _ => .pure _
    exact builtHarmless_of_opcode server (by decide) _ _ (by decide) _

/-- The search for the slot is harmless. -/
theorem findSlotNumber_keepsHarmless (charSigned : Bool) (dns : Resolution) :
    Keeps (HarmlessSince server s₀) (atshaFindSlotNumber env charSigned dns) := by
  apply findSlotNumber_keeps_of charSigned dns logMessage_keeps
  · exact fun number => otpRead_keepsHarmless _ number
  · exact fun keyOrigin => modifyHandle_keeps fun _ => rfl

/-- So are the operations on the slot that is found. -/
theorem automaticOp_keeps (charSigned : Bool) (dns : Resolution) (op : AutomaticOp) :
    Keeps (HarmlessSince server s₀) (op.result env charSigned dns) := by
  have hslot : ∀ {β : Type} (output : β → Output) (out : β)
      (operation : UInt8 → Prog σ (AtshaErr × β)),
      (∀ slotNumber, Keeps (HarmlessSince server s₀) (operation slotNumber)) →
      Keeps (HarmlessSince server s₀)
        (giving output (withSlotNumber env charSigned dns out operation)) := by
    intro β output out operation hoperation
    unfold giving withSlotNumber
    apply Keeps.bind
    · apply (findSlotNumber_keepsHarmless charSigned dns).bind
      intro slotNumber
      split
      · exact .pure _
      · exact hoperation slotNumber
    · exact fun _ => .pure _
  cases op with
  | slotRead number => exact hslot _ _ _ fun slot => rawSlotRead_keeps send_keeps slot number
  | slotWrite number =>
    have hwrite : ∀ slot, Keeps (HarmlessSince server s₀) (atshaRawSlotWrite env slot number) :=
      fun slot => writeCall_keeps (.slot slot) number
    exact hslot (fun _ => .nothing) _ _ hwrite
  | challengeResponse challenge response =>
    exact hslot _ _ _ fun slot => challengeResponse_keeps slot challenge response _
  | challengeResponseMac challenge response =>
    exact hslot _ _ _ fun slot => challengeResponseMac_keeps slot challenge response _

/-- Any call but a read of the first configuration word of a server is harmless. -/
theorem publicCall_keepsHarmless (charSigned : Bool) {call : PublicCall}
    (h : server = true → ¬ call.ReadsConfigStart) :
    Keeps (HarmlessSince server s₀) (call.run env charSigned) := by
  have hserver : call.ReadsConfigStart → server = false := fun hreads =>
    Bool.eq_false_iff.mpr fun hsrv => h hsrv hreads
  cases call with
  | plain call number =>
    have hplain : call = .confRead 0 → server = false := by
      rintro rfl
      exact hserver rfl
    exact (plainCall_keeps call hplain number).bind fun _ => .pure _
  | devRev revision => exact (devRev_keeps revision).bind fun _ => .pure _
  | chipSerialNumber number =>
    exact (chipSerialNumber_keeps (hserver trivial) number).bind fun _ => .pure _
  | serialNumber number => exact (serialNumber_keeps number).bind fun _ => .pure _
  | changeAddress address => exact (changeAddress_keeps address).bind fun _ => .pure _
  | findSlotNumber dns => exact (findSlotNumber_keepsHarmless charSigned dns).bind fun _ => .pure _
  | automatic op dns => exact automaticOp_keeps charSigned dns op

end Operations

/-! ## Openings -/

/-- The opening of a file reads OTP words only.
SOURCE: api.c:208-257 -/
theorem openEmulation_harmless (server : Bool) (content : List UInt8) (before : St σ) :
    wp (atshaOpenEmulation env (some content)) (fun _ s => HarmlessSince server before s)
      (HarmlessSince server before) before := by
  simp only [atshaOpenEmulation]
  rw [wp_bind, wp_modifyHandle]
  refine Keeps.bind (serialNumber_keeps _) ?_ _ ⟨rfl, Trail.refl before, rfl⟩
  rintro ⟨status, number⟩
  dsimp only
  split
  · exact logged_keeps _ _
  · apply (access_keeps _).bind
    intro sn
    apply Keeps.bind
    · exact modifyHandle_keeps fun _ => rfl
    · intro _
      apply (otpRead_keepsHarmless _ _).bind
      rintro ⟨status', number'⟩
      dsimp only
      split
      · exact logged_keeps _ _
      · apply (access_keeps _).bind
        intro keyOrigin
        apply Keeps.bind
        · exact modifyHandle_keeps fun _ => rfl
        · exact fun _ => .pure _

/-- So is the opening of a handle. -/
theorem opening_harmless {opening : Opening} {before s₀ : St σ}
    (hopened : (opening.run env).run before = .ok true s₀) (server : Bool) :
    HarmlessSince server before s₀ := by
  have hlayer := (opened_resembles ⟨env, before, hopened⟩).layer
  cases opening with
  | emulation file =>
    cases file with
    | none =>
      have hclosed : wp (Opening.run env (.emulation none)) (fun opened _ => opened = false)
          (fun _ => True) before := rfl
      cases hclosed.of_run hopened
    | some content => exact (openEmulation_harmless server content before).of_run hopened
  | server slotId serialNumber key =>
    have htrace : wp (atshaOpenServerEmulation slotId serialNumber key)
        (fun _ s => Trail (HarmlessEvent server) before s ∧ s.bus = before.bus) (fun _ => True)
        before := by
      unfold atshaOpenServerEmulation
      split
      · simp only [wp_bind, wp_access]
        split
        · split
          · exact ⟨Trail.refl before, rfl⟩
          · trivial
        · trivial
      · exact ⟨Trail.refl before, rfl⟩
    obtain ⟨htrail, hbus⟩ := htrace.of_run hopened
    exact ⟨hlayer, htrail, hbus⟩

/-! ## Runs -/

/-- What is reached by some calls is reached by calls. -/
theorem reached_of_calls {charSigned : Bool} {allowed : PublicCall → Prop} {s₀ s : St σ}
    (h : Calls charSigned allowed s₀ s) : Reached charSigned s₀ s := by
  induction h with
  | start => exact .start
  | call _ env call _ ih => exact .call ih env call

/-- The commands to the emulated device in a harmless trace are harmless. -/
theorem harmless_of_emulated {server : Bool} {s₀ s : St σ}
    (h : Trail (HarmlessEvent server) s₀ s) {packet : Block}
    (hpacket : packet ∈ emulatedSince s₀ s) : Harmless server packet := by
  obtain ⟨e, he, hsome⟩ := List.mem_filterMap.mp hpacket
  have hevent := h.mem_drop he
  cases e with
  | emulated sent =>
    obtain rfl := Option.some_inj.mp hsome
    exact hevent
  | _ => cases hsome

/-- From the opening of a handle on, over any calls of it but reads of the first configuration
word of a server, every index that the emulator uses is inside the serial number that was
copied when the handle was opened.
SOURCE: api.c:232-291, emulation.c:85-134, emulation.c:285-347 -/
theorem sn_inside_of_calls (charSigned : Bool) (opening : Opening) (env : Env σ)
    (before s₀ s : St σ) (hopened : (opening.run env).run before = .ok true s₀)
    (hcalls : Calls charSigned
      (fun call => s₀.handle.isSrvEmulation = true → ¬ call.ReadsConfigStart) s₀ s) :
    SnInside before s := by
  have hopening : Opened opening s₀ := ⟨env, before, hopened⟩
  have hs₀ := opened_resembles hopening
  have hs := reached_resembles hopening (reached_of_calls hcalls)
  have hserver : s.handle.isSrvEmulation = s₀.handle.isSrvEmulation :=
    hs.server.trans hs₀.server.symm
  have hsince : HarmlessSince s₀.handle.isSrvEmulation before s := by
    clear hs hserver
    induction hcalls with
    | start => exact opening_harmless hopened _
    | call _ env call hallowed ih =>
      exact (publicCall_keepsHarmless charSigned hallowed).lastState ih
  obtain ⟨sn, hsn, hlen⟩ := openedDevice_sn hopening
  refine ⟨sn, hs.sn.trans hsn, ?_⟩
  intro packet hpacket i hi
  rw [hserver] at hi
  rw [hlen]
  exact harmless_of_emulated hsince.trail hpacket i hi

/-- Over a MAC with the serial number in it, the indices are inside that of a server. -/
theorem sn_inside_mac : SnInside (replayState [])
    (lastState ((PublicCall.run replayEnv true (.plain
      (.respond .mac 3 ⟨32, List.Vector.replicate _ 0⟩ true) ⟨0, List.Vector.replicate _ 0⟩)).run
        zeroServerState)) :=
  sn_inside_of_calls true zeroServer replayEnv (replayState []) zeroServerState _ rfl
    (.call .start replayEnv _ fun _ h => h)

/-- For the chip serial number of that server a ninth byte of eight is used. -/
theorem sn_inside_fails :
    (Opening.run replayEnv zeroServer).run (replayState []) = .ok true zeroServerState ∧
    zeroServerState.handle.sn = some (List.replicate 8 0) ∧
    ¬ SnInside (replayState []) (lastState ((PublicCall.run replayEnv true
      (.chipSerialNumber ⟨0, List.Vector.replicate _ 0⟩)).run zeroServerState)) := by
  refine ⟨rfl, rfl, ?_⟩
  rintro ⟨sn, hsn, hinside⟩
  have hsent : emulatedSince (replayState []) (lastState ((PublicCall.run replayEnv true
      (.chipSerialNumber ⟨0, List.Vector.replicate _ 0⟩)).run zeroServerState)) =
        [commandPacket atsha204OpcodeRead 0x80 0 []] := rfl
  obtain rfl : List.replicate 8 0 = sn := Option.some_inj.mp hsn
  rw [hsent] at hinside
  exact absurd (hinside _ (List.mem_singleton_self _) 8 (by decide)).2 (by decide)

end Atsha204.Analysis
