import Atsha204.Interface.EmulatedDevice

/-!
# What an emulated handle gives back

Three things are asked of a handle on the emulation layer. The OTP words and the slots of a
file are zones of their own: no address of one leads into the lines of another. A server
gives back the serial number, the key and the slot that it was opened with. And the serial
number that is cached in the handle is never indexed past its end.
-/

set_option autoImplicit false

namespace Atsha204.Interface

open Atsha204.Library
open Atsha204.Model

variable {σ : Type}

/-! ## Zones -/

/-- A read of an OTP word that succeeds is of one of the 16 words, and gives its line. -/
def OtpInZone (layout : ConfigLayout) (s : St σ) (address : UInt8) : Prop :=
  ∀ (env : Env σ) (number r : AtshaBigInt) (s' : St σ),
    (atshaRawOtpRead env address number).run s = .ok (.ok, r) s' →
      ∃ word : Fin 16, address.toNat = word ∧ Holds r (layout.otp word).bytes

/-- A read of a slot that succeeds is of one of the 16 slots, and gives its line. -/
def SlotInZone (layout : ConfigLayout) (s : St σ) (slotNumber : UInt8) : Prop :=
  ∀ (env : Env σ) (number r : AtshaBigInt) (s' : St σ),
    (atshaRawSlotRead env slotNumber number).run s = .ok (.ok, r) s' →
      ∃ slot : Fin 16, slotNumber.toNat = slot ∧ Holds r (layout.keys slot).bytes

/-! ## What a server was opened with -/

/-- The library gives out this serial number. -/
def SerialGivenBack (serialNumber : Block) (s : St σ) : Prop :=
  ∀ (env : Env σ) (number : AtshaBigInt), ∃ r s',
    (atshaSerialNumber env number).run s = .ok (.ok, r) s' ∧ Holds r serialNumber

/-- Whatever the resolver would say, the library reads this key. -/
def KeyGivenBack (key : Block) (s : St σ) : Prop :=
  ∀ (env : Env σ) (charSigned : Bool) (dns : Resolution) (number : AtshaBigInt), ∃ r s',
    (atshaSlotRead env charSigned dns number).run s = .ok (.ok, r) s' ∧ Holds r key

/-- Whatever the resolver would say, the library finds this slot. -/
def SlotGivenBack (slotId : UInt8) (s : St σ) : Prop :=
  ∀ (env : Env σ) (charSigned : Bool) (dns : Resolution), ∃ s',
    (atshaFindSlotNumber env charSigned dns).run s = .ok slotId s'

/-- The handle gives back all three, and has no file to take them from. -/
structure GivesBack (slotId : UInt8) (serialNumber key : Block) (s : St σ) : Prop where
  file : s.handle.file = none
  serial : SerialGivenBack serialNumber s
  key : KeyGivenBack key s
  slot : SlotGivenBack slotId s

/-! ## The cached serial number -/

/-- The indices of the cached serial number that the emulator uses for a packet. In a digest
they are those of the OTP part of the message, in a read those of the configuration zone of
a server.
SOURCE: emulation.c:85-96, emulation.c:197-208, emulation.c:289-306 -/
def snIndices (isSrvEmulation : Bool) (rawPacket : Block) : List Int :=
  match peek rawPacket positionOpcode, peek rawPacket positionParam1,
    peek rawPacket positionAddress with
  | some opcode, some param1, some address =>
    if opcode = atsha204OpcodeHmac ∨ opcode = atsha204OpcodeMac then
      if usesSn param1 then
        if useOurSn then [0, 1, 2, 3, 4, 5, 6, 7] else [4, 5, 6, 7, 2, 3]
      else []
    else if opcode = atsha204OpcodeRead then
      if param1 &&& 0x3 = ioMemConfig ∧ address = 0x00 ∧ isSrvEmulation then
        [0, 1, 2, 3] ++ [4, 5, 6, 7, 8]
      else []
    else []
  | _, _, _ => []

/-- The packets handed to the emulator since some earlier state. -/
def emulatedSince (s₀ s : St σ) : List Block :=
  (s.trace.drop s₀.trace.length).filterMap fun
    | .emulated packet => some packet
    | _ => none

/-- Since the earlier state every index was inside the cached serial number. -/
def SnInside (s₀ s : St σ) : Prop :=
  ∃ sn, s.handle.sn = some sn ∧
    ∀ packet ∈ emulatedSince s₀ s, ∀ i ∈ snIndices s.handle.isSrvEmulation packet,
      0 ≤ i ∧ i < sn.length

/-- The call reads the first word of the configuration zone. -/
def PublicCall.ReadsConfigStart : PublicCall → Prop
  | .plain (.confRead address) _ => address = 0
  | .chipSerialNumber _ => True
  | _ => False

/-- A run of calls, each in surroundings of its own. -/
inductive Calls (charSigned : Bool) (allowed : PublicCall → Prop) (s₀ : St σ) : St σ → Prop where
  | start : Calls charSigned allowed s₀ s₀
  | call {s : St σ} (h : Calls charSigned allowed s₀ s) (env : Env σ) (call : PublicCall)
    (hallowed : allowed call) :
    Calls charSigned allowed s₀ (lastState ((call.run env charSigned).run s))

end Atsha204.Interface
