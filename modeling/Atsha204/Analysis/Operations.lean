import Atsha204.Analysis.PacketCodec
import Atsha204.Model.Operations

/-!
# The packets of the operations

Each operation builds the command packet of its opcode, parameters and data; the ones
that carry a number are built exactly when its length, narrowed to a byte, stays inside
the 32 bytes of the number.
-/

set_option autoImplicit false

namespace Atsha204.Analysis

open Atsha204.Library
open Atsha204.Model

/-! ## Building -/

/-- A command packet begins with its length. -/
theorem framed_commandPacket (opcode param1 : UInt8) (param2 : UInt16) {data : Block}
    (h : data.length + 7 < 256) : Framed (commandPacket opcode param1 param2 data) := by
  refine ⟨_, _, rfl, ?_⟩
  rw [ofNat_toNat_of_lt h]
  simp [commandPacket, commandBody]

/-- No command is built from fewer data than it asks for. -/
theorem generateCommandPacket_of_lt {opcode param1 : UInt8} {param2 : UInt16} {data : Block}
    {dataCount : UInt8} (h : data.length < dataCount.toNat) :
    generateCommandPacket opcode param1 param2 data dataCount = none := by
  have hcopy : copyOut data dataCount.toNat = none := by
    rw [copyOut, if_neg (by omega)]
  simp [generateCommandPacket, hcopy]

/-- A command that is built carries some of the data it is built from. -/
theorem exists_of_generateCommandPacket {opcode param1 : UInt8} {param2 : UInt16}
    {data bytes : Block} {dataCount : UInt8} (hdata : data.length ≤ 32)
    (h : generateCommandPacket opcode param1 param2 data dataCount = some bytes) :
    ∃ sent, sent.length ≤ 32 ∧ bytes = commandPacket opcode param1 param2 sent := by
  by_cases hle : dataCount.toNat ≤ data.length
  · rw [generateCommandPacket_eq hle (by omega)] at h
    refine ⟨_, ?_, (Option.some.inj h).symm⟩
    rw [List.length_take]
    omega
  · rw [generateCommandPacket_of_lt (by omega)] at h
    cases h

/-- A command that is built begins with its length. -/
theorem framed_of_generateCommandPacket {opcode param1 : UInt8} {param2 : UInt16}
    {data bytes : Block} {dataCount : UInt8} (hdata : data.length ≤ 32)
    (h : generateCommandPacket opcode param1 param2 data dataCount = some bytes) :
    Framed bytes := by
  obtain ⟨sent, hlen, rfl⟩ := exists_of_generateCommandPacket hdata h
  exact framed_commandPacket _ _ _ (by omega)

/-- A command without data is always built. -/
theorem generateCommandPacket_nil (opcode param1 : UInt8) (param2 : UInt16) :
    generateCommandPacket opcode param1 param2 [] 0 =
      some (commandPacket opcode param1 param2 []) :=
  generateCommandPacket_eq (by decide) (by decide)

/-! ## Parameters -/

/-- A slot begins at eight times its number.
SOURCE: operations.c:34-37, operations.c:102-106 -/
theorem getSlotAddress_eq {slotNumber : UInt8} (h : slotNumber ≤ atsha204MaxSlotNumber) :
    getSlotAddress slotNumber = some (8 * slotNumber) := by
  have hall : ∀ n : Fin 16, getSlotAddress (UInt8.ofNat n) = some (8 * UInt8.ofNat n) := by
    decide
  have hlt : slotNumber.toNat < 16 := by
    have := UInt8.le_iff_toNat_le.mp h
    change slotNumber.toNat ≤ 15 at this
    omega
  simpa using hall ⟨slotNumber.toNat, hlt⟩

/-! ## The operations -/

/-- The packet that asks for the revision. -/
theorem opDevRev_eq : opDevRev = some (commandPacket atsha204OpcodeDevRev 0 0 []) :=
  generateCommandPacket_nil _ _ _

/-- The packet that asks for a random number. -/
theorem opRandom_eq : opRandom = some (commandPacket atsha204OpcodeRandom 0 0 []) :=
  generateCommandPacket_nil _ _ _

/-- The packet of a read. -/
theorem opRawRead_eq (zoneConfig address : UInt8) : opRawRead zoneConfig address =
    some (commandPacket atsha204OpcodeRead zoneConfig address.toUInt16 []) :=
  generateCommandPacket_nil _ _ _

/-- The packet that asks for the serial number of the chip. -/
theorem opSerialNumber_eq : opSerialNumber = some (commandPacket atsha204OpcodeRead
    (getZoneConfig ioMemConfig ioRwNonEnc ioRw32Bytes) 0 []) :=
  generateCommandPacket_nil _ _ _

/-- The packet of an HMAC. -/
theorem opHmac_eq (address : UInt8) (useSnInDigest : Bool) : opHmac address useSnInDigest =
    some (commandPacket atsha204OpcodeHmac (digestMode 0x04 useSnInDigest) address.toUInt16 []) :=
  generateCommandPacket_nil _ _ _

/-- The packet of a lock, with the checksum that it carries. -/
theorem opLock_eq (lockConfig : UInt8) (crc : UInt8 × UInt8) : opLock lockConfig crc =
    some (commandPacket atsha204OpcodeLock lockConfig (crc.2.toUInt16 <<< 8 ||| crc.1.toUInt16)
      []) := by
  simp only [opLock, UInt16.zero_or]
  exact generateCommandPacket_nil _ _ _

/-- The packet of a nonce of 32 bytes. -/
theorem opNonce_eq {data : Block} (h : data.length = 32) :
    opNonce 32 data = some (commandPacket atsha204OpcodeNonce 0x03 0 data) := by
  rw [opNonce, generateCommandPacket_eq (by rw [h]; decide) (by decide)]
  rw [show (UInt8.ofNat 32).toNat = data.length from h.symm, List.take_length]

/-- The packet of a MAC over 32 bytes. -/
theorem opMac_eq {data : Block} (address : UInt8) (useSnInDigest : Bool) (h : data.length = 32) :
    opMac address 32 data useSnInDigest = some (commandPacket atsha204OpcodeMac
      (digestMode 0x00 useSnInDigest) address.toUInt16 data) := by
  rw [opMac, generateCommandPacket_eq (by rw [h]; decide) (by decide)]
  rw [show (UInt8.ofNat 32).toNat = data.length from h.symm, List.take_length]

/-- A write is built when its length, narrowed to a byte, stays inside its data.
SOURCE: operations.c:116-118 -/
theorem opRawWrite_eq (zoneConfig address : UInt8) {cnt : ℕ} {data : Block}
    (hdata : data.length = 32) (h : cnt % 256 ≤ 32) : opRawWrite zoneConfig address cnt data =
      some (commandPacket atsha204OpcodeWrite zoneConfig address.toUInt16
        (data.take (cnt % 256))) := by
  have hcnt : (UInt8.ofNat cnt).toNat = cnt % 256 := UInt8.toNat_ofNat'
  rw [opRawWrite, generateCommandPacket_eq (by omega) (by omega), hcnt]

/-- Otherwise the write would read behind its data. -/
theorem opRawWrite_of_lt (zoneConfig address : UInt8) {cnt : ℕ} {data : Block}
    (hdata : data.length = 32) (h : 32 < cnt % 256) :
    opRawWrite zoneConfig address cnt data = none := by
  have hcnt : (UInt8.ofNat cnt).toNat = cnt % 256 := UInt8.toNat_ofNat'
  exact generateCommandPacket_of_lt (by omega)

/-! ## The fields of a command -/

/-- The second byte of a command is its opcode. -/
@[simp] theorem peek_opcode (opcode param1 : UInt8) (param2 : UInt16) (data : Block) :
    peek (commandPacket opcode param1 param2 data) 1 = some opcode := rfl

/-- The third one is its first parameter. -/
@[simp] theorem peek_param1 (opcode param1 : UInt8) (param2 : UInt16) (data : Block) :
    peek (commandPacket opcode param1 param2 data) 2 = some param1 := rfl

/-- The second parameter of a read is an address of one byte. -/
@[simp] theorem peek_address (opcode param1 address : UInt8) (data : Block) :
    peek (commandPacket opcode param1 address.toUInt16 data) 3 = some address := by
  have hlow : (address.toUInt16 &&& 0x00FF).toUInt8 = address := by
    have hmask : address.toNat &&& 255 = address.toNat := by
      rw [show 255 = 2 ^ 8 - 1 from rfl, Nat.and_two_pow_sub_one_eq_mod]
      exact Nat.mod_eq_of_lt address.toNat_lt
    apply UInt8.toNat_inj.mp
    simpa using hmask
  exact congrArg some hlow

/-- The data of a command can be copied out of it. -/
theorem copyOut_commandData (opcode param1 : UInt8) (param2 : UInt16) {data : Block} {n : ℕ}
    (h : data.length = n) :
    copyOut ((commandPacket opcode param1 param2 data).drop 5) n = some data := by
  have hdrop : (commandPacket opcode param1 param2 data).drop 5 =
      data ++ [(checksum (commandBody opcode param1 param2 data)).1,
        (checksum (commandBody opcode param1 param2 data)).2] := rfl
  rw [hdrop, copyOut_of_le (by rw [List.length_append]; omega), List.take_left' h]

/-! ## Decoding -/

variable {σ : Type}

/-- The buffer of a number with some cells written from its start on. -/
def filled (buffer : List.Vector UInt8 atshaMaxDataSize) (cells : Block) :
    List.Vector UInt8 atshaMaxDataSize := (overwrite buffer cells).getD buffer

/-- A buffer can be filled with up to 32 bytes. -/
theorem overwrite_filled (buffer : List.Vector UInt8 atshaMaxDataSize) {cells : Block}
    (h : cells.length ≤ 32) : overwrite buffer cells = some (filled buffer cells) := by
  obtain ⟨buffer', hbuffer, -⟩ := overwrite_of_le buffer h
  rw [filled, hbuffer, Option.getD_some]

/-- Then it begins with them. -/
theorem filled_take (buffer : List.Vector UInt8 atshaMaxDataSize) {cells : Block}
    (h : cells.length ≤ 32) : (filled buffer cells).val.take cells.length = cells := by
  obtain ⟨buffer', hbuffer, hval⟩ := overwrite_of_le buffer h
  rw [filled, hbuffer, Option.getD_some, hval]
  exact List.take_left' rfl

/-- The bytes between the count byte and the checksum of a packet. -/
def payload (packet : Block) : Block := (packet.drop 1).take (packet.length - 3)

/-- The data of an answer are three bytes shorter than the answer. -/
theorem payload_length {packet : Block} (h : 3 ≤ packet.length) :
    (payload packet).length = packet.length - 3 := by
  rw [payload, List.length_take, List.length_drop]
  omega

/-- An answer whose length fits a byte begins with it. -/
theorem framed_answerPacket {data : Block} (h : data.length + 3 < 256) :
    Framed (answerPacket data) := by
  refine ⟨_, _, rfl, ?_⟩
  rw [ofNat_toNat_of_lt h]
  simp [answerPacket, answerBody]

/-- An answer is three bytes longer than its data. -/
theorem answerPacket_length (data : Block) : (answerPacket data).length = data.length + 3 := by
  simp [answerPacket, answerBody]

/-- The data of an answer are the ones that it was made of. -/
theorem payload_answerPacket (data : Block) : payload (answerPacket data) = data := by
  rw [payload, answerPacket_length, Nat.add_sub_cancel]
  exact List.take_left' rfl

/-- The first byte of a packet is its length. -/
theorem framed_peek_zero {packet : Block} (h : Framed packet) :
    ∃ count, peek packet 0 = some count ∧ count.toNat = packet.length := by
  obtain ⟨count, rest, rfl, hcount⟩ := h
  exact ⟨count, rfl, hcount⟩

/-- The data of an answer are its payload, if the buffer can hold it; a longer answer is
dropped.
SOURCE: operations.c:40-50 -/
theorem wp_readLongData {packet : Block} (hframed : Framed packet) (hlen : 3 ≤ packet.length)
    (buffer : List.Vector UInt8 atshaMaxDataSize)
    (Q : Int × List.Vector UInt8 atshaMaxDataSize → St σ → Prop) (E : St σ → Prop) (s : St σ) :
    wp (readLongData packet buffer) Q E s ↔
      if packet.length ≤ 35 then
        Q (((payload packet).length : ℕ), filled buffer (payload packet)) s
      else Q (0, buffer) (s.exchanged s.bus
        (.message "operations: read_long_data: size is bigger than max size")) := by
  obtain ⟨count, hfirst, hcount⟩ := framed_peek_zero hframed
  have hsize : ((count.toNat : Int) - 3) = ((packet.length - 3 : ℕ) : Int) := by omega
  have hmax : ((packet.length - 3 : ℕ) : Int) > (atshaMaxDataSize : Int) ↔
      ¬ packet.length ≤ 35 := by
    have : atshaMaxDataSize = 32 := rfl
    omega
  simp only [readLongData, wp_bind, wp_access, hfirst, hsize, hmax]
  by_cases hfits : packet.length ≤ 35
  · have hcopy : copyOut (packet.drop 1) (packet.length - 3) = some (payload packet) :=
      copyOut_of_le (by rw [List.length_drop]; omega)
    have hpayload : (payload packet).length ≤ 32 := by
      rw [payload_length hlen]; omega
    have hnonneg : ¬ ((packet.length - 3 : ℕ) : Int) < 0 := by omega
    simp only [hfits, hnonneg, not_true_eq_false, if_false, if_true, Int.toNat_natCast, hcopy,
      overwrite_filled buffer hpayload, wp_bind, wp_access, wp_pure, payload_length hlen]
  · simp only [hfits, not_false_eq_true, if_false, if_true, wp_bind, wp_logMessage, wp_pure]

/-- The status of success is taken, and every other one is logged.
SOURCE: operations.c:52-59 -/
theorem wp_justCheckStatus (packet : Block) (Q : AtshaErr → St σ → Prop) (E : St σ → Prop)
    (s : St σ) :
    wp (justCheckStatus packet) Q E s ↔ match peek packet 1 with
      | none => E s
      | some status =>
        if status = atsha204StatusSucces then Q .ok s
        else Q .badCommunicationStatus (s.exchanged s.bus (.message
          "operations: just_check_status: status is not ATSHA204_STATUS_SUCCES")) := by
  simp only [justCheckStatus, wp_bind, wp_access]
  cases peek packet 1 with
  | none => rfl
  | some status => by_cases h : status = atsha204StatusSucces <;> simp [h]

/-- The serial number is taken from around its hole.
SOURCE: operations.c:171-185 -/
theorem wp_opSerialNumberRecv (packet : Block) (buffer : List.Vector UInt8 atshaMaxDataSize)
    (Q : Int × List.Vector UInt8 atshaMaxDataSize → St σ → Prop) (E : St σ → Prop) (s : St σ) :
    wp (opSerialNumberRecv packet buffer) Q E s ↔
      if 14 ≤ packet.length then
        Q (9, filled buffer ((packet.drop 1).take 4 ++ (packet.drop 9).take 5)) s
      else E s := by
  have hcells : ([1, 2, 3, 4, 9, 10, 11, 12, 13] : List Int).mapM (peek packet) =
      if 14 ≤ packet.length then some ((packet.drop 1).take 4 ++ (packet.drop 9).take 5)
      else none := by
    by_cases h : 14 ≤ packet.length
    · rw [if_pos h]
      match packet, h with
      | _ :: _ :: _ :: _ :: _ :: _ :: _ :: _ :: _ :: _ :: _ :: _ :: _ :: _ :: _, _ => rfl
    · rw [if_neg h]
      refine mapM_eq_none (b := 13) (by simp) ?_
      exact (peek_natCast packet 13).trans (List.getElem?_eq_none (by omega))
  simp only [opSerialNumberRecv, wp_bind, wp_access, hcells]
  by_cases h : 14 ≤ packet.length
  · have hlen : ((packet.drop 1).take 4 ++ (packet.drop 9).take 5).length ≤ 32 := by
      simp only [List.length_append, List.length_take]
      omega
    simp only [h, if_true, overwrite_filled buffer hlen, wp_pure]
  · simp only [h, if_false]

end Atsha204.Analysis
