import Atsha204.Analysis.ConfigFile
import Atsha204.Analysis.Exchanges

/-!
# Reading the emulated device

A read of the emulated device is answered from `storedData`, or refused where there is
none, and leaves the device as it was but for how much of its file has been read
(`wp_emulRead`).
-/

set_option autoImplicit false

namespace Atsha204.Analysis

open Atsha204.Library
open Atsha204.Model
open Atsha204.Interface

variable {σ : Type} {env : Env σ}

/-! ## Answers -/

/-- No answer is built from fewer data than it asks for. -/
theorem generateAnswerPacket_of_lt {data : Block} {dataCount : UInt8}
    (h : data.length < dataCount.toNat) : generateAnswerPacket data dataCount = none := by
  have hcopy : copyOut data dataCount.toNat = none := by
    rw [copyOut, if_neg (by omega)]
  simp [generateAnswerPacket, hcopy]

/-- The emulated device answers with the packet of the data, or faults where it does not fit. -/
theorem wp_answerWith (data : Block) (dataCount : UInt8) (Q : Reply → St σ → Prop)
    (E : St σ → Prop) (s : St σ) :
    wp (answerWith data dataCount) Q E s ↔ match generateAnswerPacket data dataCount with
      | some answer => Q (.ok, some answer) s
      | none => E s := by
  simp only [answerWith, wp_bind, wp_access, wp_pure]
  cases generateAnswerPacket data dataCount <;> rfl

/-- All of the data goes into the answer. -/
theorem wp_answerWith_all {data : Block} {dataCount : UInt8} (hlen : data.length = dataCount.toNat)
    (hsize : dataCount.toNat + 3 < 256) (Q : Reply → St σ → Prop) (E : St σ → Prop) (s : St σ) :
    wp (answerWith data dataCount) Q E s ↔ Q (.ok, some (answerPacket data)) s := by
  rw [wp_answerWith, generateAnswerPacket_eq hlen.ge hsize, ← hlen, List.take_length]

/-- What a read makes of the data there is. -/
def ReadReply (stored : Option Block) (reply : Reply) : Prop :=
  match stored with
  | some data => reply = (.ok, some (answerPacket data))
  | none => reply.1 ≠ .ok

/-- The line behind `k` others is read and put into an answer.
SOURCE: emulation.c:309-347, emulation.c:357-393, emulation.c:403-443 -/
def answerLine (tooFew noLine tooShort : String) (nextIndex : ℕ → ℕ) (count : ℕ) (out : Block)
    (dataCount : UInt8) (k : ℕ) (line : Model.Line) : Prog σ Reply := do
  match ← skipLines tooFew k line with
  | none => return (.configFileBadFormat, none)
  | some line =>
    match ← readHexLine noLine tooShort nextIndex count out line with
    | none => return (.configFileBadFormat, none)
    | some data => answerWith data dataCount

/-- An answer with a line holds the bytes of the line, where the line holds so many. -/
theorem wp_answerLine (tooFew noLine tooShort : String) {nextIndex : ℕ → ℕ}
    (hidem : ∀ i, nextIndex (nextIndex i) = nextIndex i) {count : ℕ} {indices : List ℕ}
    (hvisits : Visits nextIndex count 0 indices) {out : Block} {fill : Block → Block}
    (hfill : ∀ values : Block, values.length = indices.length →
      pokeEach 0 indices values out = some (fill values))
    {dataCount : UInt8} (hsize : dataCount.toNat + 3 < 256)
    (hlen : ∀ values : Block, values.length = indices.length →
      (fill values).length = dataCount.toNat)
    (k : ℕ) (line : Model.Line) {s : St σ} {file : File} (hfile : s.handle.file = some file) :
    wp (answerLine tooFew noLine tooShort nextIndex count out dataCount k line)
      (fun r s' => Kept s s' ∧ ReadReply ((lineBytes file.rest k indices.length).map fill) r)
      (fun _ => lineBytes file.rest k indices.length = none) s := by
  rw [answerLine, wp_bind]
  refine wp_mono (wp_skipLines tooFew k line hfile) ?_ fun _ hF => hF.elim
  rintro (_ | line) s₁ ⟨hkept, hr⟩
  · have hnone := lineBytes_of_after_none hr indices.length
    rw [hnone]
    exact ⟨hkept, by simp [ReadReply]⟩
  · obtain ⟨rest, hrest, hfile₁⟩ := hr
    have hthere := lineBytes_of_after hrest 0 indices.length
    rw [Nat.add_zero] at hthere
    rw [← hthere, wp_bind]
    refine wp_mono (wp_readHexLine noLine tooShort hidem hvisits hfill line hfile₁) ?_ fun _ h => h
    rintro r s' ⟨hkept', rfl⟩
    cases hbytes : lineBytes rest 0 indices.length with
    | none => exact ⟨hkept.trans hkept', by simp [ReadReply]⟩
    | some values =>
      have hvalues : values.length = indices.length := by
        obtain ⟨chunk, -, hread⟩ := Option.bind_eq_some_iff.mp hbytes
        exact readPairs_length hread
      simp only [Option.map_some]
      rw [wp_answerWith_all (hlen values hvalues) hsize]
      exact ⟨hkept.trans hkept', rfl⟩

/-! ## Reading a zone -/

/-- A block that is written from end to end. -/
theorem pokeEach_all (values block : Block) (h : values.length = block.length) :
    pokeEach 0 (List.range' 0 values.length) values block = some values := by
  rw [pokeEach_range' 0 0 values block (by omega), pokeAll, if_pos (by omega)]
  simp [h]

/-- The serial number is written around its hole, into zeros. -/
theorem pokeEach_hole {values : Block} (h : values.length = 9) :
    pokeEach 0 (List.range' 0 4 ++ List.range' 8 5) values
      (List.replicate atsha204SlotByteLen 0) = some (withHole values) := by
  match values, h with
  | [_, _, _, _, _, _, _, _, _], _ => rfl

/-- With the hole inside the serial number fills 32 bytes. -/
theorem withHole_length {sn : Block} (h : sn.length = 9) : (withHole sn).length = 32 := by
  simp [withHole, h]

/-- The serial number of a server has at least nine bytes, or reading it leaves its block.
SOURCE: emulation.c:300-306 -/
theorem serverSerialNumber_eq (sn : Option Block) :
    serverSerialNumber sn = (sn.bind (copyOut · atsha204SnByteLen)).map withHole := by
  match sn with
  | none | some [] | some [_] | some [_, _] | some [_, _, _] | some [_, _, _, _]
  | some [_, _, _, _, _] | some [_, _, _, _, _, _] | some [_, _, _, _, _, _, _]
  | some [_, _, _, _, _, _, _, _] | some (_ :: _ :: _ :: _ :: _ :: _ :: _ :: _ :: _ :: _) => rfl

variable {packet : Block} {zone address : UInt8}

/-- What the file of a handle is read from its start on. -/
theorem wp_rewind {s : St σ} {file : File} (hfile : s.handle.file = some file)
    (Q : Unit → St σ → Prop) (E : St σ → Prop) :
    wp (withFile rewind) Q E s ↔ Q () (atFile s { file with rest := file.content }) := by
  rw [wp_withFile _ _ _ hfile, rewind, wp_modify]

/-- A read whose data are in the handle, in a block of its own.
SOURCE: emulation.c:299-306, emulation.c:352-355 -/
theorem wp_answerBlock {data : Option Block} {dataCount : UInt8}
    (hlen : ∀ block, data = some block → block.length = dataCount.toNat)
    (hsize : dataCount.toNat + 3 < 256) (s : St σ) :
    wp (access data >>= fun data => answerWith data dataCount)
      (fun r s' => Kept s s' ∧ ReadReply data r) (fun _ => data = none) s := by
  rw [wp_bind, wp_access]
  cases data with
  | none => rfl
  | some block =>
    simp only [wp_answerWith_all (hlen block rfl) hsize]
    exact ⟨Kept.refl s, rfl⟩

/-- A read from the file, which begins at its start.
SOURCE: emulation.c:308, emulation.c:356, emulation.c:400 -/
theorem wp_answerFile {x : Prog σ Reply} {k count : ℕ} {fill : Block → Block}
    (hx : ∀ (s : St σ) (file : File), s.handle.file = some file → file.rest = file.content →
      wp x (fun r s' => Kept s s' ∧ ReadReply ((lineBytes file.rest k count).map fill) r)
        (fun _ => lineBytes file.rest k count = none) s) (s : St σ) :
    wp (withFile rewind >>= fun _ => x)
      (fun r s' => Kept s s' ∧ ReadReply ((storedLine s.handle k count).map fill) r)
      (fun _ => (storedLine s.handle k count).map fill = none) s := by
  rw [wp_bind]
  cases hfile : s.handle.file with
  | none => simp [wp_withFile_none _ _ _ hfile, storedLine, hfile]
  | some file =>
    have hkept : Kept s (atFile s { file with rest := file.content }) := .atFile hfile rfl
    simp only [wp_rewind hfile, storedLine, hfile, Option.bind_some]
    refine wp_mono (hx _ _ (atFile_file s _) rfl) ?_ ?_
    · rintro r s' ⟨hkept', hr⟩
      exact ⟨hkept.trans hkept', hr⟩
    · intro s' hnone
      rw [hnone, Option.map_none]

/-- The configuration zone.
SOURCE: emulation.c:285-347 -/
theorem wp_emulRead_config (hzone : peek packet positionParam1 = some zone)
    (haddress : peek packet positionAddress = some address) (hmem : zone &&& 0x3 = ioMemConfig)
    (s : St σ) :
    wp (emulRead env packet)
      (fun r s' => Kept s s' ∧ ReadReply (storedData s.handle zone address) r)
      (fun _ => storedData s.handle zone address = none) s := by
  simp only [emulRead, wp_bind, wp_access, hzone, haddress, hmem, if_true, storedData]
  by_cases hzero : address = 0
  · simp only [hzero, ne_eq, not_true_eq_false, if_false, if_true, wp_bind, wp_getHandle]
    by_cases hserver : s.handle.isSrvEmulation = true
    · simp only [hserver, if_true, storedSn, serverSerialNumber_eq]
      refine wp_answerBlock ?_ (by decide) s
      intro block hblock
      obtain ⟨sn, hsn, rfl⟩ := Option.map_eq_some_iff.mp hblock
      obtain ⟨cells, -, hcells⟩ := Option.bind_eq_some_iff.mp hsn
      obtain ⟨hlen, rfl⟩ := (copyOut_eq_some_iff _ _ _).mp hcells
      exact withHole_length (List.length_take_of_le hlen)
    · simp only [hserver, Bool.false_eq_true, if_false, storedSn]
      refine wp_answerFile (fun s file hfile hrest => ?_) s
      exact wp_answerLine _ _ _ skipHole_idem visits_skipHole (fun values h => pokeEach_hole h)
        (by decide) (fun values h => by exact withHole_length h) 32 _ hfile
  · simp [hzero, ReadReply, Kept.exchanged]

/-- A line without a hole. -/
theorem wp_answerPlainLine (tooFew noLine tooShort : String) {count : ℕ} {out : Block}
    (hout : out.length = count) {dataCount : UInt8} (hcount : count = dataCount.toNat)
    (hsize : dataCount.toNat + 3 < 256) (k : ℕ) (line : Model.Line) {s : St σ} {file : File}
    (hfile : s.handle.file = some file) :
    wp (answerLine tooFew noLine tooShort id count out dataCount k line)
      (fun r s' => Kept s s' ∧ ReadReply (lineBytes file.rest k count) r)
      (fun _ => lineBytes file.rest k count = none) s := by
  have hindices : (List.range' 0 count).length = count := List.length_range'
  have hfill : ∀ values : Block, values.length = (List.range' 0 count).length →
      pokeEach 0 (List.range' 0 count) values out = some (id values) := by
    intro values hvalues
    rw [hindices] at hvalues
    rw [← hvalues]
    exact pokeEach_all values out (hvalues.trans hout.symm)
  have hline := wp_answerLine tooFew noLine tooShort (fun _ => rfl)
    (visits_id count 0 count (by omega)) hfill hsize
    (fun values h => by rwa [hindices, hcount] at h) k line hfile
  simp only [hindices, Option.map_id_fun, id_eq] at hline
  exact hline

/-- The slots.
SOURCE: emulation.c:349-393 -/
theorem wp_emulRead_data (hzone : peek packet positionParam1 = some zone)
    (haddress : peek packet positionAddress = some address) (hmem : zone &&& 0x3 = ioMemData)
    (s : St σ) :
    wp (emulRead env packet)
      (fun r s' => Kept s s' ∧ ReadReply (storedData s.handle zone address) r)
      (fun _ => storedData s.handle zone address = none) s := by
  have hother : ¬ ioMemData = ioMemConfig := by decide
  simp only [emulRead, wp_bind, wp_access, hzone, hmem, hother, if_false, if_true, storedData,
    wp_getHandle]
  by_cases hserver : s.handle.isSrvEmulation = true
  · simp only [hserver, if_true, storedSlot, wp_bind, wp_access]
    cases s.handle.key with
    | none => rfl
    | some key =>
      simp only [Option.bind_some, wp_answerWith]
      by_cases hlen : 32 ≤ key.length
      · have hanswer := @generateAnswerPacket_eq key (UInt8.ofNat atsha204SlotByteLen) hlen
          (by decide)
        have hkey : copyOut key atsha204SlotByteLen = some (key.take 32) := copyOut_of_le hlen
        rw [hanswer, hkey]
        exact ⟨Kept.refl s, rfl⟩
      · have hkey : copyOut key atsha204SlotByteLen = none := if_neg hlen
        have hanswer : generateAnswerPacket key (UInt8.ofNat atsha204SlotByteLen) = none :=
          generateAnswerPacket_of_lt (not_le.mp hlen)
        rw [hanswer, hkey]
  · simp only [hserver, Bool.false_eq_true, if_false, storedSlot]
    have hread := fun x hx => @wp_answerFile σ x (address.toNat / 8) 32 id hx s
    simp only [Option.map_id_fun, id_eq] at hread
    refine hread _ fun s file hfile _ => ?_
    have hcount : 32 = (UInt8.ofNat atsha204SlotByteLen).toNat := by decide
    rw [wp_bind, wp_access, haddress]
    exact wp_answerPlainLine _ _ _ (List.Vector.toList_length _) hcount (by decide) _ _ hfile

/-- The OTP words.
SOURCE: emulation.c:395-443 -/
theorem wp_emulRead_otp (hzone : peek packet positionParam1 = some zone)
    (haddress : peek packet positionAddress = some address) (hmem : zone &&& 0x3 = ioMemOtp)
    (s : St σ) :
    wp (emulRead env packet)
      (fun r s' => Kept s s' ∧ ReadReply (storedData s.handle zone address) r)
      (fun _ => storedData s.handle zone address = none) s := by
  have hother : ¬ ioMemOtp = ioMemConfig := by decide
  have hother' : ¬ ioMemOtp = ioMemData := by decide
  simp only [emulRead, wp_bind, wp_access, hzone, hmem, hother, hother', if_false, if_true,
    storedData, wp_getHandle]
  by_cases hserver : s.handle.isSrvEmulation = true
  · simp only [hserver, if_true, storedOtp, wp_bind, wp_logMessage, wp_pure]
    exact ⟨Kept.exchanged s _, by simp [ReadReply]⟩
  · simp only [hserver, Bool.false_eq_true, if_false, storedOtp]
    have hread := fun x hx => @wp_answerFile σ x (16 + address.toNat) 4 id hx s
    simp only [Option.map_id_fun, id_eq] at hread
    refine hread _ fun s file hfile _ => ?_
    rw [wp_bind]
    refine wp_mono (wp_skipLines _ 16 _ hfile) ?_ fun _ hF => hF.elim
    rintro (_ | line) s₁ ⟨hkept, hr⟩
    · have hnone : afterChunks isNewline (buffsizeLine - 1) (16 + address.toNat) file.rest = none := by
        rw [afterChunks_add, hr, Option.bind_none]
      rw [lineBytes_of_after_none hnone]
      exact ⟨hkept, by simp [ReadReply]⟩
    · obtain ⟨rest, hrest, hfile₁⟩ := hr
      rw [← lineBytes_of_after hrest]
      simp only
      have hcount : 4 = (UInt8.ofNat atsha204OtpByteLen).toNat := by decide
      rw [wp_bind, wp_access, haddress]
      refine wp_mono (wp_answerPlainLine _ _ _ (List.Vector.toList_length _) hcount (by decide) _ _
        hfile₁) ?_ fun _ h => h
      rintro r s' ⟨hkept', hr⟩
      exact ⟨hkept.trans hkept', hr⟩

/-- A read is answered from the data there are.
SOURCE: emulation.c:281-451 -/
theorem wp_emulRead (hzone : peek packet positionParam1 = some zone)
    (haddress : peek packet positionAddress = some address) (s : St σ) :
    wp (emulRead env packet)
      (fun r s' => Kept s s' ∧ ReadReply (storedData s.handle zone address) r)
      (fun _ => storedData s.handle zone address = none) s := by
  by_cases hconfig : zone &&& 0x3 = ioMemConfig
  · exact wp_emulRead_config hzone haddress hconfig s
  by_cases hdata : zone &&& 0x3 = ioMemData
  · exact wp_emulRead_data hzone haddress hdata s
  by_cases hotp : zone &&& 0x3 = ioMemOtp
  · exact wp_emulRead_otp hzone haddress hotp s
  simp only [emulRead, wp_bind, wp_access, hzone, hconfig, hdata, hotp, if_false, wp_logMessage,
    wp_pure, storedData]
  exact ⟨Kept.exchanged s _, by simp [ReadReply]⟩

/-! ## A read through the library -/

/-- A command to the emulated device is decided by its opcode.
SOURCE: emulation.c:453-485 -/
theorem wp_command_emulation {rawSlotRead : SlotRead σ} {packet : Block} {opcode : UInt8}
    (hopcode : peek packet 1 = some opcode) {s : St σ} (hlayer : s.handle.bottomLayer = .emulation)
    (Q : Reply → St σ → Prop) (E : St σ → Prop) :
    wp (command env rawSlotRead packet none) Q E s ↔
      wp (if opcode = atsha204OpcodeHmac then emulHmac env rawSlotRead packet
        else if opcode = atsha204OpcodeMac then emulMac env rawSlotRead packet
        else if opcode = atsha204OpcodeRead then emulRead env packet
        else if opcode = atsha204OpcodeNonce then emulNonce packet
        else if opcode = atsha204OpcodeRandom then emulRandom
        else do
          logMessage "emulation: requested opconde not implemented"
          return (.notImplemented, none)) Q E (s.exchanged s.bus (.emulated packet)) := by
  have hrun : wp (command env rawSlotRead packet none) Q E s ↔
      wp (emulCommand env rawSlotRead packet) Q E s := by
    unfold wp
    rw [command_run_emulation hlayer]
  rw [hrun]
  simp only [emulCommand, wp_bind, wp_emit, wp_access, positionOpcode, hopcode]

/-- A read command to the emulated device. -/
theorem wp_command_read {rawSlotRead : SlotRead σ} (zone address : UInt8) {s : St σ}
    (hlayer : s.handle.bottomLayer = .emulation) :
    wp (command env rawSlotRead
        (commandPacket atsha204OpcodeRead zone address.toUInt16 []) none)
      (fun r s' => Kept s s' ∧ ReadReply (storedData s.handle zone address) r)
      (fun _ => storedData s.handle zone address = none) s := by
  rw [wp_command_emulation (peek_opcode ..) hlayer, if_neg (by decide), if_neg (by decide),
    if_pos rfl]
  refine wp_mono (wp_emulRead (peek_param1 ..) (peek_address ..) _) ?_ fun _ h => h
  rintro r s' ⟨hkept, hr⟩
  exact ⟨(Kept.exchanged s _).trans hkept, hr⟩

/-- The emulated device is awake, and lets itself be put to sleep. -/
def flagged (expected : Bool) (s : St σ) : St σ :=
  { s with handle := { s.handle with wakeIsExpected := expected } }

/-- A session with the emulated device: it always wakes. -/
theorem wp_session_emulation {α : Type} {s : St σ} (hlayer : s.handle.bottomLayer = .emulation)
    (out : α) (body : Prog σ (AtshaErr × α)) (Q : AtshaErr × α → St σ → Prop) (E : St σ → Prop) :
    wp (session env out body) Q E s ↔
      wp body (fun r s' => if r.1 = .ok then Q (.ok, r.2) (idled env s') else Q r s') E
        (flagged true s) := by
  rw [wp_session, wp_of_run (wake_run_emulation hlayer)]
  simp only [if_true]
  rfl

/-- The flag may be set on both sides. -/
theorem Kept.flagged {s s' : St σ} (h : Kept s s') (expected : Bool) :
    Kept (flagged expected s) (Analysis.flagged expected s') :=
  ⟨h.bus, by simp only [Analysis.flagged]; rw [h.handle], h.content⟩

/-- The layer is kept. -/
theorem Kept.bottomLayer {s s' : St σ} (h : Kept s s') :
    s'.handle.bottomLayer = s.handle.bottomLayer := by rw [h.handle]

section Stored

variable {handle handle' : AtshaHandle}
  (hcontent : handle'.file.map File.content = handle.file.map File.content)
include hcontent

/-- The same file stores the same lines. -/
theorem storedLine_congr (k count : ℕ) :
    storedLine handle' k count = storedLine handle k count := by
  have hbind : ∀ file : Option File, (file.bind fun f => lineBytes f.content k count) =
      (file.map File.content).bind fun content => lineBytes content k count := by
    intro file
    cases file <;> rfl
  rw [storedLine, storedLine, hbind, hbind, hcontent]

/-- With the same key and the same file the same slots are stored. -/
theorem storedSlot_congr (hserver : handle'.isSrvEmulation = handle.isSrvEmulation)
    (hkey : handle'.key = handle.key) (slot : ℕ) :
    storedSlot handle' slot = storedSlot handle slot := by
  rw [storedSlot, storedSlot, storedLine_congr hcontent, hserver, hkey]

/-- With the same file the same OTP words are stored. -/
theorem storedOtp_congr (hserver : handle'.isSrvEmulation = handle.isSrvEmulation) (word : ℕ) :
    storedOtp handle' word = storedOtp handle word := by
  rw [storedOtp, storedOtp, storedLine_congr hcontent, hserver]

end Stored

/-- What keeps the handle keeps the slots that it stores. -/
theorem Kept.storedSlot {s s' : St σ} (h : Kept s s') (slot : ℕ) :
    storedSlot s'.handle slot = Interface.storedSlot s.handle slot :=
  storedSlot_congr h.content (by rw [h.handle]) (by rw [h.handle]) slot

/-- It keeps the OTP words. -/
theorem Kept.storedOtp {s s' : St σ} (h : Kept s s') (word : ℕ) :
    storedOtp s'.handle word = Interface.storedOtp s.handle word :=
  storedOtp_congr h.content (by rw [h.handle]) word

/-- What a read leaves: the number and a device that sleeps, or an error and a device that
is still awake. -/
def AfterRead (stored : Option Block) (s : St σ) (r : AtshaErr × AtshaBigInt) (s' : St σ) :
    Prop :=
  match stored with
  | some data => r.1 = .ok ∧ Holds r.2 data ∧ Kept (flagged false s) s'
  | none => r.1 ≠ .ok ∧ Kept (flagged true s) s'

/-- The buffer of a number of full length is its bytes. -/
theorem val_eq_of_holds {number : AtshaBigInt} {data : Block} (h : Holds number data)
    (hlen : data.length = 32) : number.data.val = data := by
  have hbuffer : number.data.val.length ≤ data.length := hlen ▸ number.data.property.le
  have htake := h.take_eq
  rwa [List.take_of_length_le hbuffer] at htake

/-- A buffer that is filled holds the data. -/
theorem holds_filled (buffer : List.Vector UInt8 atshaMaxDataSize) {data : Block}
    (h : data.length ≤ 32) : Holds ⟨data.length, filled buffer data⟩ data :=
  ⟨rfl, filled_take buffer h⟩

/-- A session of one read: the answer is built from `stored` by `wrap` and decoded again. -/
theorem wp_readSession {send : Send σ} {rawSlotRead : SlotRead σ}
    (hsend : ∀ packet, send packet = command env rawSlotRead packet none) {recv : DataRecv σ}
    {number : AtshaBigInt} {zone address : UInt8} {s : St σ}
    (hlayer : s.handle.bottomLayer = .emulation) {stored : Option Block} {wrap : Block → Block}
    (hstored : storedData s.handle zone address = stored.map wrap)
    (hlen : ∀ data, stored = some data → 0 < data.length ∧ data.length ≤ 32)
    (hrecv : ∀ data, stored = some data → ∀ s,
      wp (recv (answerPacket (wrap data)) number.data)
        (fun r s' => r.1 = data.length ∧ r.2 = filled number.data data ∧ s' = s)
        (fun _ => False) s) :
    wp (session env number (dataExchange send
        (some (commandPacket atsha204OpcodeRead zone address.toUInt16 [])) recv number))
      (AfterRead stored s) (fun _ => stored = none) s := by
  have hcommand := @wp_command_read σ env rawSlotRead zone address (flagged true s) hlayer
  rw [show storedData (flagged true s).handle zone address = stored.map wrap from hstored]
    at hcommand
  rw [wp_session_emulation hlayer, wp_dataExchange]
  simp only [hsend]
  refine wp_mono hcommand ?_ fun _ h => Option.map_eq_none_iff.mp h
  rintro reply s₁ ⟨hkept, hreply⟩
  cases stored with
  | none =>
    have hbad : reply.1 ≠ .ok := hreply
    simp only [hbad, if_false]
    exact ⟨hbad, hkept⟩
  | some data =>
    obtain rfl : reply = (.ok, some (answerPacket (wrap data))) := hreply
    obtain ⟨hpos, hmax⟩ := hlen data rfl
    simp only [if_true]
    refine wp_mono (hrecv data rfl s₁) ?_ fun _ hF => hF.elim
    rintro ⟨size, buffer⟩ s₂ ⟨rfl, rfl, rfl⟩
    have hne : ¬ data.length = 0 := by omega
    simp only [Int.toNat_natCast, hne, if_false]
    rw [idled_emulation (hkept.bottomLayer.trans hlayer)]
    exact ⟨rfl, holds_filled _ hmax, hkept.flagged false⟩

/-- As many cells are copied as were asked for. -/
theorem copyOut_length {block cells : Block} {n : ℕ} (h : copyOut block n = some cells) :
    cells.length = n := by
  obtain ⟨hlen, rfl⟩ := (copyOut_eq_some_iff _ _ _).mp h
  exact List.length_take_of_le hlen

/-- A line that is stored has as many bytes as were asked for. -/
theorem storedLine_length {handle : AtshaHandle} {k count : ℕ} {data : Block}
    (h : storedLine handle k count = some data) : data.length = count := by
  obtain ⟨file, -, hline⟩ := Option.bind_eq_some_iff.mp h
  obtain ⟨chunk, -, hread⟩ := Option.bind_eq_some_iff.mp hline
  exact readPairs_length hread

/-- A key that is stored has 32 bytes. -/
theorem storedSlot_length {handle : AtshaHandle} {slot : ℕ} {data : Block}
    (h : storedSlot handle slot = some data) : data.length = 32 := by
  unfold storedSlot at h
  split at h
  · obtain ⟨key, -, hkey⟩ := Option.bind_eq_some_iff.mp h
    exact copyOut_length hkey
  · exact storedLine_length h

/-- An OTP word that is stored has four bytes. -/
theorem storedOtp_length {handle : AtshaHandle} {word : ℕ} {data : Block}
    (h : storedOtp handle word = some data) : data.length = 4 := by
  unfold storedOtp at h
  split at h
  · cases h
  · exact storedLine_length h

/-- A serial number that is stored has eight bytes. -/
theorem storedSerial_length {handle : AtshaHandle} {serial : Block}
    (h : storedSerial handle = some serial) : serial.length = 8 := by
  obtain ⟨front, hfront, hrest⟩ := Option.bind_eq_some_iff.mp h
  obtain ⟨back, hback, hserial⟩ := Option.bind_eq_some_iff.mp hrest
  rw [← Option.some.inj hserial, List.length_append, storedOtp_length hfront, storedOtp_length hback]

/-- A serial number of the chip that is stored has nine bytes. -/
theorem storedSn_length {handle : AtshaHandle} {sn : Block} (h : storedSn handle = some sn) :
    sn.length = 9 := by
  unfold storedSn at h
  split at h
  · obtain ⟨cells, -, hcells⟩ := Option.bind_eq_some_iff.mp h
    exact copyOut_length hcells
  · exact storedLine_length h

/-- The decoder of a raw read gives back what was put into the answer. -/
theorem wp_opRawReadRecv_answer {data : Block} (h : data.length ≤ 32)
    (buffer : List.Vector UInt8 atshaMaxDataSize) (s : St σ) :
    wp (opRawReadRecv (answerPacket data) buffer)
      (fun r s' => r.1 = data.length ∧ r.2 = filled buffer data ∧ s' = s) (fun _ => False) s := by
  have hlen := answerPacket_length data
  rw [opRawReadRecv, wp_readLongData (framed_answerPacket (by omega)) (by omega),
    if_pos (by omega), payload_answerPacket]
  exact ⟨rfl, rfl, rfl⟩

/-- The serial number is taken out of the answer around its hole. -/
theorem wp_opSerialNumberRecv_answer {sn : Block} (h : sn.length = 9)
    (buffer : List.Vector UInt8 atshaMaxDataSize) (s : St σ) :
    wp (opSerialNumberRecv (answerPacket (withHole sn)) buffer)
      (fun r s' => r.1 = sn.length ∧ r.2 = filled buffer sn ∧ s' = s) (fun _ => False) s := by
  have hlen : 14 ≤ (answerPacket (withHole sn)).length := by
    rw [answerPacket_length, withHole_length h]
    decide
  have hcells : ((answerPacket (withHole sn)).drop 1).take 4 ++
      ((answerPacket (withHole sn)).drop 9).take 5 = sn := by
    match sn, h with
    | [_, _, _, _, _, _, _, _, _], _ => rfl
  rw [wp_opSerialNumberRecv, if_pos hlen, hcells, h]
  exact ⟨rfl, rfl, rfl⟩

section Reads

variable {s : St σ} (hlayer : s.handle.bottomLayer = .emulation)
include hlayer

/-- Reading a slot, from above or from inside an emulated command. -/
theorem wp_slotRead_emulation {send : Send σ} {rawSlotRead : SlotRead σ}
    (hsend : ∀ packet, send packet = command env rawSlotRead packet none) {slotNumber : UInt8}
    (hslot : slotNumber ≤ atsha204MaxSlotNumber) (number : AtshaBigInt) :
    wp (atshaRawSlotReadWith env send slotNumber number)
      (AfterRead (storedSlot s.handle slotNumber.toNat) s)
      (fun _ => storedSlot s.handle slotNumber.toNat = none) s := by
  have hle : slotNumber.toNat ≤ 15 := UInt8.le_iff_toNat_le.mp hslot
  have haddress : (8 * slotNumber).toNat / 8 = slotNumber.toNat := by
    rw [UInt8.toNat_mul, show (8 : UInt8).toNat = 8 from rfl]
    omega
  have hstored : storedData s.handle (getZoneConfig ioMemData ioRwNonEnc ioRw32Bytes)
      (8 * slotNumber) = (storedSlot s.handle slotNumber.toNat).map id := by
    rw [storedData, if_neg (by decide), if_pos (by decide), haddress, Option.map_id_fun, id]
  have hsmall : ¬ slotNumber > atsha204MaxSlotNumber := UInt8.not_lt.mpr hslot
  simp only [atshaRawSlotReadWith, hsmall, if_false, getSlotAddress_eq hslot, Option.bind_eq_bind,
    Option.bind_some, opRawRead_eq]
  refine wp_readSession hsend hlayer hstored ?_ ?_
  · intro data hdata
    have := storedSlot_length hdata
    omega
  · intro data hdata s
    exact wp_opRawReadRecv_answer (storedSlot_length hdata).le number.data s

/-- An OTP read of the emulated device gives the word that is stored. -/
theorem wp_otpRead_emulation (address : UInt8) (number : AtshaBigInt) :
    wp (atshaRawOtpRead env address number) (AfterRead (storedOtp s.handle address.toNat) s)
      (fun _ => storedOtp s.handle address.toNat = none) s := by
  have hstored : storedData s.handle (getZoneConfig ioMemOtp ioRwNonEnc ioRw4Bytes) address =
      (storedOtp s.handle address.toNat).map id := by
    rw [storedData, if_neg (by decide), if_neg (by decide), if_pos (by decide), Option.map_id_fun,
      id]
  simp only [atshaRawOtpRead, opRawRead_eq]
  refine wp_readSession (fun _ => rfl) hlayer hstored ?_ ?_
  · intro data hdata
    have := storedOtp_length hdata
    omega
  · intro data hdata s
    have hlen : data.length ≤ 32 := by
      have := storedOtp_length hdata
      omega
    exact wp_opRawReadRecv_answer hlen number.data s

/-- The serial number of the emulated chip is the one that is stored. -/
theorem wp_chipSerialNumber_emulation (number : AtshaBigInt) :
    wp (atshaChipSerialNumber env number) (AfterRead (storedSn s.handle) s)
      (fun _ => storedSn s.handle = none) s := by
  have hstored : storedData s.handle (getZoneConfig ioMemConfig ioRwNonEnc ioRw32Bytes) 0 =
      (storedSn s.handle).map withHole := by
    rw [storedData, if_pos (by decide), if_pos rfl]
  have hzero : (0 : UInt16) = (0 : UInt8).toUInt16 := rfl
  rw [atshaChipSerialNumber, opSerialNumber_eq, hzero]
  refine wp_readSession (fun _ => rfl) hlayer hstored ?_ ?_
  · intro sn hsn
    have := storedSn_length hsn
    omega
  · intro sn hsn s
    exact wp_opSerialNumberRecv_answer (storedSn_length hsn) number.data s

/-- The two OTP words of the serial number.
SOURCE: api.c:658-678 -/
theorem wp_serialNumber_emulation (number : AtshaBigInt) :
    wp (atshaSerialNumber env number) (AfterRead (storedSerial s.handle) s)
      (fun _ => storedSerial s.handle = none) s := by
  simp only [atshaSerialNumber, useOurSn, if_true, wp_bind]
  have hfirst := @wp_otpRead_emulation σ env s hlayer atsha204OtpMemoryMapRevNumber
    (env.uninitBigInt .serialNumberPart)
  rw [show atsha204OtpMemoryMapRevNumber.toNat = 0 from rfl] at hfirst
  cases hfront : storedOtp s.handle 0 with
  | none =>
    have hnone : storedSerial s.handle = none := by simp [storedSerial, hfront]
    rw [hfront] at hfirst
    rw [hnone]
    refine wp_mono hfirst ?_ fun _ _ => rfl
    rintro r s₁ ⟨hbad, hkept⟩
    simp only [hbad, ne_eq, not_false_eq_true, if_true, wp_pure]
    exact ⟨hbad, hkept⟩
  | some front =>
    rw [hfront] at hfirst
    refine wp_mono hfirst ?_ fun _ h => by cases h
    rintro r s₁ ⟨hok, hholds, hkept⟩
    have hfour : front.length = 4 := storedOtp_length hfront
    have hpart : r.2.data.val.take 4 = front := hfour ▸ hholds.take_eq
    have hnext := @wp_otpRead_emulation σ env s₁ (hkept.bottomLayer.trans hlayer)
      atsha204OtpMemoryMapSerialNumber r.2
    rw [show atsha204OtpMemoryMapSerialNumber.toNat = 1 from rfl,
      show storedOtp s₁.handle 1 = storedOtp s.handle 1 from hkept.storedOtp 1] at hnext
    simp only [hok, ne_eq, not_true_eq_false, if_false, wp_bind, hpart, wp_access,
      overwrite_filled number.data (hfour.trans_le (by decide))]
    cases hback : storedOtp s.handle 1 with
    | none =>
      have hnone : storedSerial s.handle = none := by simp [storedSerial, hfront, hback]
      rw [hback] at hnext
      rw [hnone]
      refine wp_mono hnext ?_ fun _ _ => rfl
      rintro r' s₂ ⟨hbad, hkept'⟩
      simp only [hbad, not_false_eq_true, if_true, wp_pure]
      exact ⟨hbad, (hkept.flagged true).trans hkept'⟩
    | some back =>
      have hserial : storedSerial s.handle = some (front ++ back) := by
        simp [storedSerial, hfront, hback]
      rw [hback] at hnext
      rw [hserial]
      refine wp_mono hnext ?_ fun _ h => by cases h
      rintro r' s₂ ⟨hok', hholds', hkept'⟩
      have hfour' : back.length = 4 := storedOtp_length hback
      have hpart' : r'.2.data.val.take 4 = back := hfour' ▸ hholds'.take_eq
      have height : (front ++ back).length = 8 := by rw [List.length_append, hfour, hfour']
      simp only [hok', not_true_eq_false, if_false, hpart',
        overwrite_filled _ (height.trans_le (by decide : 8 ≤ 32))]
      refine ⟨rfl, ⟨height.symm, filled_take _ (height.trans_le (by decide))⟩, ?_⟩
      exact (hkept.flagged false).trans hkept'

/-- Every read gives what is stored.
SOURCE: emulation.c:281-451 -/
theorem wp_storageRead (read : StorageRead) (number : AtshaBigInt) :
    wp (read.run env number) (AfterRead (read.stored s.handle) s)
      (fun _ => read.stored s.handle = none) s := by
  have hindex : ∀ n : Fin 16, (UInt8.ofNat n).toNat = n := fun n => ofNat_toNat_of_lt (by omega)
  cases read with
  | slot slotNumber =>
    have hslot : UInt8.ofNat slotNumber ≤ atsha204MaxSlotNumber := by
      rw [UInt8.le_iff_toNat_le, hindex]
      exact Nat.le_of_lt_succ slotNumber.isLt
    have hread := @wp_slotRead_emulation σ env s hlayer (send env) (nestedSlotRead env)
      (fun _ => rfl) _ hslot number
    rwa [hindex] at hread
  | otp address =>
    have hread := @wp_otpRead_emulation σ env s hlayer (UInt8.ofNat address) number
    rwa [hindex] at hread
  | serialNumber => exact wp_serialNumber_emulation hlayer number
  | chipSerialNumber => exact wp_chipSerialNumber_emulation hlayer number

end Reads

end Atsha204.Analysis
