import Atsha204.Analysis.ChipTest
import Atsha204.Analysis.EmulatedCalls
import Atsha204.Interface.BusCalls
import Atsha204.Interface.ReadingCalls

/-!
# Most operations only ask

An operation that is no write and no lock sends nothing but inquiries
(`asking_packet`): so a run of such calls leaves the chip of a steady device as it is
(`reading_calls_keep_chip`), and so does one of the commands of `chiptools` but `init` and
`set-address` (`reading_commands_keep_chip`).
-/

set_option autoImplicit false

namespace Atsha204.Analysis

open Atsha204.Library
open Atsha204.Model
open Atsha204.Interface

variable {σ α : Type} {env : Env σ}

/-! ## What only asks -/

/-- A packet that carries an inquiry. -/
def Asks (packet : Block) : Prop := ∃ inquiry : Inquiry, inquiry.packet = packet

/-- A packet that asks, if it can be built. -/
def Asking (packet : Option Block) : Prop :=
  ∀ bytes, packet = some bytes → Framed bytes ∧ Asks bytes

/-- What is built of an inquiry asks. -/
theorem asking_inquiry {packet : Option Block} (inquiry : Inquiry)
    (h : packet = some inquiry.packet) : Asking packet := by
  rintro bytes hbuilt
  obtain rfl := Option.some.inj (h.symm.trans hbuilt)
  exact ⟨framed_inquiry inquiry, inquiry, rfl⟩

/-- A number of a slot that there is. -/
theorem exists_slot {slotNumber : UInt8} (h : ¬ atsha204MaxSlotNumber < slotNumber) :
    ∃ slot : Fin 16, slotNumber = UInt8.ofNat slot := by
  have hlt : slotNumber.toNat < 16 :=
    Nat.lt_succ_of_le (UInt8.le_iff_toNat_le.mp (UInt8.not_lt.mp h))
  exact ⟨⟨slotNumber.toNat, hlt⟩, (UInt8.ofNat_toNat).symm⟩

/-- What a call that only reads sends is an inquiry.
SOURCE: operations.c:61-165 -/
theorem asking_packet {call : PlainCall} (hreading : call.Reading) (hrefused : ¬ call.Refused) :
    Asking call.packet := by
  cases call with
  | random => exact asking_inquiry .random opRandom_eq
  | slotRead slotNumber =>
    obtain ⟨slot, rfl⟩ := exists_slot hrefused
    exact asking_inquiry (.slot slot) (slotRead_packet slot)
  | confRead address => exact asking_inquiry (.configWord address) (opRawRead_eq _ _)
  | otpRead address => exact asking_inquiry (.otpWord address) (opRawRead_eq _ _)
  | respond kind slotNumber challenge useSn =>
    obtain ⟨hslot, hbytes⟩ := not_or.mp hrefused
    obtain ⟨slot, rfl⟩ := exists_slot hslot
    cases kind with
    | hmac => exact asking_inquiry (.hmac slot useSn) (opHmac_eq _ _)
    | mac =>
      refine asking_inquiry (.mac slot challenge.data useSn) ?_
      rw [PlainCall.packet, not_not.mp hbytes]
      exact opMac_eq _ _ challenge.data.property
  | write | lockConfig | lockData => exact hreading.elim

/-- A nonce of 32 bytes is an inquiry. -/
theorem asking_nonce {challenge : AtshaBigInt} (h : challenge.bytes = 32) :
    Asking (opNonce challenge.bytes challenge.data.val) := by
  refine asking_inquiry (.nonce challenge.data) ?_
  rw [h]
  exact opNonce_eq challenge.data.property

/-- Over a link to a steady device inquiries leave the chip as it is. -/
theorem undisturbed_of_steady {bus : I2cBus σ} {device : σ → Device} (h : Steady bus device)
    (chip : Chip) : Undisturbed bus Asks fun s => (device s.bus).chip = chip := by
  refine @undisturbed_of_bus _ bus Asks (fun b => (device b).chip = chip) ?_ ?_ ?_
  · exact fun b hb => (h.wakes b).trans hb
  · rintro _ b ⟨inquiry, rfl⟩ hb
    exact (h.inquiries inquiry b).trans hb
  · exact fun b hb => (h.idles b).trans hb

/-! ## The operations -/

section Operations

variable {I : St σ → Prop} (h : Undisturbed env.bus Asks I)
include h

/-- What inquiries keep, a plain call that only reads keeps.
SOURCE: api.c:349-807 -/
theorem readingCall_native (call : PlainCall) (hreading : call.Reading) (number : AtshaBigInt) :
    Keeps (Native I) (call.run env number) := by
  refine plainCall_native h call ?_ ?_ number
  · exact fun hrefused bytes hbuilt => (asking_packet hreading hrefused bytes hbuilt).2
  · rintro slotNumber challenge useSn rfl hrefused bytes hbuilt
    exact (asking_nonce (not_not.mp (not_or.mp hrefused).2) bytes hbuilt).2

/-- The revision is an inquiry.
SOURCE: api.c:321-347 -/
theorem devRev_native (revision : UInt32) : Keeps (Native I) (atshaDevRev env revision) := by
  have hpacket : Asking opDevRev := asking_inquiry .devRev opDevRev_eq
  apply session_native h
  exact exchange_native h hpacket revision fun answer => (access_native _).bind fun _ => .pure _

/-- So is the serial number of the chip.
SOURCE: api.c:620-656 -/
theorem chipSerialNumber_native (number : AtshaBigInt) :
    Keeps (Native I) (atshaChipSerialNumber env number) := by
  have hpacket : Asking opSerialNumber := asking_inquiry .configBlock opSerialNumber_eq
  apply session_native h
  refine exchange_native h hpacket number (decodeData_native (fun answer buffer => ?_) number)
  exact (access_native _).bind fun _ => (access_native _).bind fun _ => .pure _

/-- The serial number in the OTP zone is two inquiries.
SOURCE: api.c:658-678 -/
theorem serialNumber_native (number : AtshaBigInt) :
    Keeps (Native I) (atshaSerialNumber env number) := by
  have hread : ∀ address number, Keeps (Native I) (atshaRawOtpRead env address number) :=
    fun address number => readingCall_native h (.otpRead address) trivial number
  unfold atshaSerialNumber
  have hours : useOurSn = true := rfl
  rw [if_pos hours]
  apply (hread _ _).bind
  rintro ⟨status, part⟩
  dsimp only
  split
  · exact .pure _
  · apply (access_native _).bind
    intro data
    apply (hread _ _).bind
    rintro ⟨status', part'⟩
    dsimp only
    split
    · exact .pure _
    · exact (access_native _).bind fun _ => .pure _

/-- The search for the slot reads the OTP zone at most.
SOURCE: dnsmagic.c:114-137 -/
theorem findSlotNumber_native (charSigned : Bool) (dns : Resolution) :
    Keeps (Native I) (atshaFindSlotNumber env charSigned dns) := by
  apply findSlotNumber_keeps_of charSigned dns fun text => logMessage_native h text
  · exact fun number => readingCall_native h (.otpRead _) trivial number
  · exact fun keyOrigin s hs => ⟨hs.layer, h.handles s _ hs.kept⟩

/-- An operation on the slot that is found. -/
theorem withSlotNumber_native (charSigned : Bool) (dns : Resolution) {out : α}
    {operation : UInt8 → Prog σ (AtshaErr × α)}
    (hoperation : ∀ slotNumber, Keeps (Native I) (operation slotNumber)) :
    Keeps (Native I) (withSlotNumber env charSigned dns out operation) := by
  apply (findSlotNumber_native h charSigned dns).bind
  intro slotNumber
  split
  · exact .pure _
  · exact hoperation slotNumber

omit h in
/-- The output of an operation may be given in another form. -/
theorem giving_native (output : α → Output) {x : Prog σ (AtshaErr × α)}
    (hx : Keeps (Native I) x) : Keeps (Native I) (giving output x) := hx.bind fun _ => .pure _

/-- A response under the key of the slot that is found consists of inquiries.
SOURCE: api.c:485-490 -/
theorem challengeResponse_native (charSigned : Bool) (dns : Resolution)
    (challenge response : AtshaBigInt) :
    Keeps (Native I) (atshaChallengeResponse env charSigned dns challenge response) :=
  withSlotNumber_native h charSigned dns
    fun slot => readingCall_native h (.respond .hmac slot challenge _) trivial response

/-- What inquiries keep, every public operation that only reads keeps. -/
theorem publicCall_native (charSigned : Bool) {call : PublicCall} (hreading : call.Reading) :
    Keeps (Native I) (call.run env charSigned) := by
  cases call with
  | plain call number => exact (readingCall_native h call hreading number).bind fun _ => .pure _
  | devRev revision => exact (devRev_native h revision).bind fun _ => .pure _
  | chipSerialNumber number => exact (chipSerialNumber_native h number).bind fun _ => .pure _
  | serialNumber number => exact (serialNumber_native h number).bind fun _ => .pure _
  | changeAddress address => exact hreading.elim
  | findSlotNumber dns => exact (findSlotNumber_native h charSigned dns).bind fun _ => .pure _
  | automatic op dns =>
    cases op with
    | slotRead number =>
      exact giving_native _ (withSlotNumber_native h charSigned dns
        fun slot => readingCall_native h (.slotRead slot) trivial number)
    | slotWrite number => exact hreading.elim
    | challengeResponse challenge response =>
      exact giving_native _ (challengeResponse_native h charSigned dns challenge response)
    | challengeResponseMac challenge response =>
      exact giving_native _ (withSlotNumber_native h charSigned dns
        fun slot => readingCall_native h (.respond .mac slot challenge _) trivial response)

/-- So does a run of such operations. -/
theorem callAll_native (charSigned : Bool) {calls : List PublicCall}
    (hreading : ∀ call ∈ calls, call.Reading) :
    Keeps (Native I) (callAll env charSigned calls) := by
  induction calls with
  | nil => exact .pure _
  | cons call calls ih =>
    obtain ⟨hcall, hcalls⟩ := List.forall_mem_cons.mp hreading
    exact (publicCall_native h charSigned hcall).bind fun _ => (ih hcalls).bind fun _ => .pure _

end Operations

/-! ## The commands of `chiptools` -/

section Commands

variable {I : St σ → Prop} (h : Undisturbed env.bus Asks I)
include h

/-- So does every request. -/
theorem request_native (request : Request) (number : AtshaBigInt) :
    Keeps (Native I) (request.run env number) := by
  cases request with
  | otp address => exact readingCall_native h (.otpRead _) trivial number
  | serialNumber => exact serialNumber_native h number
  | chipSerialNumber => exact chipSerialNumber_native h number
  | respond slotNumber request =>
    obtain ⟨kind, challenge, useSn⟩ := request
    cases kind with
    | hmac => exact readingCall_native h (.respond .hmac _ _ _) trivial number
    | mac => exact readingCall_native h (.respond .mac _ _ _) trivial number

omit h in
/-- So do the reads of a dump. -/
theorem dumpWords_native (label : ℕ → List UInt8)
    {read : UInt8 → AtshaBigInt → Prog σ (AtshaErr × AtshaBigInt)}
    (hread : ∀ addr data, Keeps (Native I) (read addr data)) (addrs : List ℕ) (data : AtshaBigInt) :
    Keeps (Native I) (dumpWords label read addrs data) := by
  induction addrs generalizing data with
  | nil => exact .pure _
  | cons addr addrs ih =>
    apply (hread _ _).bind
    rintro ⟨status, data⟩
    dsimp only
    split
    · exact .pure _
    · exact (access_native _).bind fun _ => (ih data).bind fun _ => .pure _

end Commands

/-! ## Processes -/

/-- A dump of a zone that is read by a call that only asks. -/
theorem dumpCommand_native {I : St σ → Prop} (title : String) (label : ℕ → List UInt8)
    {read : UInt8 → AtshaBigInt → Prog σ (AtshaErr × AtshaBigInt)}
    (hread : ∀ addr data, Keeps (Native I) (read addr data)) (count : ℕ) (data : AtshaBigInt) :
    Keeps (Native I) (dumpCommand (dumpZone title label read count data)) := by
  apply Keeps.bind
  · exact (dumpWords_native label hread (List.range count) data).bind fun _ => .pure _
  · exact fun _ => .pure _

/-- A command that gives a number. -/
theorem numberCommand_native {I : St σ → Prop} {operation : Prog σ (AtshaErr × AtshaBigInt)}
    (hoperation : Keeps (Native I) operation) : Keeps (Native I) (numberCommand operation) := by
  apply hoperation.bind
  rintro ⟨errcode, abi⟩
  dsimp only
  split
  · exact .pure _
  · exact (access_native _).bind fun _ => .pure _

section Processes

variable {I : σ → Prop} (h : Undisturbed env.bus Asks fun s => I s.bus)
include h

/-- What a test goes by that keeps something about the bus. -/
theorem testRule_native : TestRule env (fun _ => Native fun s => I s.bus)
    (Native fun s => I s.bus) (fun _ => Native fun s => I s.bus) (fun s => I s.bus) where
  asks := by
    intro request n number s hs
    refine wp_mono (request_native h request number s hs) ?_ fun _ hE => hE.kept
    intro r s' hs'
    split <;> exact hs'
  follows := fun n s s' hs hfollows =>
    ⟨by rw [hfollows.handle]; exact hs.layer, by rw [hfollows.bus]; exact hs.kept⟩
  stops := fun _ _ hs => hs
  faults := fun _ s s' hs hbus => by
    rw [hbus]
    exact hs.kept
  rests := fun _ hs => hs
  reads := fun address => readingCall_native h (.confRead address) trivial
  prints := fun _ _ hs => ⟨hs.layer, hs.kept⟩
  ends := fun _ hs => ⟨hs, hs.kept⟩

/-- The command of a process that only asks. A test that faults may leave the other handle in the
place of this one.
SOURCE: main.c:236-335 -/
theorem command_native (charSigned : Bool) {process : Process} (hreading : process.Reading)
    {s : St σ} (hs : Native (fun s => I s.bus) s) :
    wp (process.command.run env charSigned process.dns process.locals)
      (fun _ s' => I s'.bus) (fun s' => I s'.bus) s := by
  obtain ⟨dns, locals, opened, command⟩ := process
  have hkeeps : ∀ {x : Prog σ CommandResult}, Keeps (Native fun s => I s.bus) x →
      wp x (fun _ s' => I s'.bus) (fun s' => I s'.bus) s :=
    fun hx => wp_mono (hx s hs) (fun _ _ h => h.kept) fun _ h => h.kept
  cases command with
  | undefined => exact hs.kept
  | dumpConfig => exact hkeeps (dumpCommand_native _ _
      (fun addr => readingCall_native h (.confRead addr) trivial) _ _)
  | dumpOtp => exact hkeeps (dumpCommand_native _ _
      (fun addr => readingCall_native h (.otpRead addr) trivial) _ _)
  | dumpData => exact hkeeps (dumpCommand_native _ _
      (fun addr => readingCall_native h (.slotRead addr) trivial) _ _)
  | sn => exact hkeeps (numberCommand_native (serialNumber_native h _))
  | chipsn => exact hkeeps (numberCommand_native (chipSerialNumber_native h _))
  | random => exact hkeeps (numberCommand_native (readingCall_native h .random trivial _))
  | getSlot => exact hkeeps ((findSlotNumber_native h charSigned dns).bind fun _ => .pure _)
  | init file => exact hreading.elim
  | test file =>
    cases file with
    | none => exact hs.kept
    | some file =>
      simp only [Command.run, withArgument, traceCommand, wp_bind]
      refine wp_mono (wp_test (testRule_native h) file _ _ _ hs) ?_ fun _ hE => hE
      intro passed s' hs'
      cases passed <;> exact hs'.kept
  | setAddress number => exact hreading.elim
  | devRev =>
    apply hkeeps
    apply (devRev_native h _).bind
    rintro ⟨errcode, rev⟩
    dsimp only
    split <;> exact .pure _
  | sleep seconds =>
    cases seconds with
    | none => exact hs.kept
    | some seconds =>
      simp only [Command.run, withArgument]
      split <;> exact hs.kept

omit h in
/-- A process that gets the device runs its command on a new handle. -/
theorem chiptools_run (charSigned : Bool) (dns : Resolution) (locals : CommandLocals)
    (command : Command) (s : St σ) : (chiptools env charSigned dns locals true command).run s =
      (command.run env charSigned dns locals).run { s with handle := openNi2cDev } := rfl

/-- A process that only asks. It has a handle of its own.
SOURCE: main.c:192-346 -/
theorem process_native (charSigned : Bool) (process : Process) (hreading : process.Reading) :
    Keeps (fun s : St σ => I s.bus)
      (chiptools env charSigned process.dns process.locals process.opened process.command) := by
  intro s hs
  rw [chiptools]
  split
  · exact hs
  · rw [wp_bind, wp_modifyHandle]
    exact command_native h charSigned hreading ⟨rfl, hs⟩

/-- So do processes of `chiptools` that only read, one after the other. -/
theorem processes_native (charSigned : Bool) {list : List Process}
    (hreading : ∀ process ∈ list, process.Reading) :
    Keeps (fun s : St σ => I s.bus) (processes env charSigned list) := by
  induction list with
  | nil => exact .pure _
  | cons process list ih =>
    obtain ⟨hfirst, hrest⟩ := List.forall_mem_cons.mp hreading
    exact (process_native h charSigned process hfirst).contained.bind
      fun _ => (ih hrest).bind fun _ => .pure _

end Processes

/-- A device behind a link is steady.
SOURCE: communication.c:90-165 -/
theorem deviceBus_steady (openssl : OpenSsl) (script : ℕ → LinkStep) (noise : ℕ → Block) :
    Steady (deviceBus openssl script noise) DeviceLink.device where
  wakes := deviceWake_chip
  inquiries := fun inquiry b => (deviceExchange_cases b inquiry).1.chip
  idles := write_chip _

/-- A number is printed as what it holds.
SOURCE: main.c:165-170 -/
theorem printAbi_of_holds {abi : AtshaBigInt} {bytes : Block} (h : Holds abi bytes) :
    printAbi abi = some (spacedPairs bytes ++ [0x0A]) := by
  rw [printAbi, copyOut_of_holds h (holds_length_le h)]
  rfl

/-- A number that an operation gives is printed. -/
theorem numberCommand_of_run {operation : Prog σ (AtshaErr × AtshaBigInt)} {abi : AtshaBigInt}
    {bytes : Block} {s s' : St σ} (hrun : operation.run s = .ok (.ok, abi) s')
    (hholds : Holds abi bytes) :
    (numberCommand operation).run s = .ok ⟨0, [spacedPairs bytes ++ [0x0A]], ""⟩ s' := by
  rw [numberCommand, run_bind_of_run hrun]
  exact run_bind_of_run (run_access_some (printAbi_of_holds hholds) s')

/-- A process for a command, that gets the device. -/
def lockedProcess (command : Command) : Process where
  dns := .noContext
  locals := ⟨zeroNumber, zeroNumber, zeroNumber, zeroNumber, 0⟩
  opened := true
  command := command

end Atsha204.Analysis
