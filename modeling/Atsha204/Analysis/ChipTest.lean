import Atsha204.Analysis.CachedSerial
import Atsha204.Analysis.FileStandsIn
import Atsha204.Model.ChipTest

/-!
# A test, and its alarm

`test` asks the device and the file the same, one request after the other. What behind each request
is as it should be, the whole test leaves so (`wp_test`). A test that passes has therefore waited
for the device 196 times at the least, which is longer than its alarm allows: the process has been
ended before (`test_outlives_alarm`). Without the alarm a chip would pass the test with its copy
(`test_reliable`).
-/

set_option autoImplicit false

namespace Atsha204.Analysis

open Atsha204.Library
open Atsha204.Model
open Atsha204.Interface

variable {σ : Type}

/-! ## Two handles -/

/-- An operation on the other handle is one on the state that has it, and this handle is put
back. -/
@[simp] theorem wp_onHandle {α : Type} (other : AtshaHandle) (x : Prog σ α)
    (Q : α × AtshaHandle → St σ → Prop) (E : St σ → Prop) (s : St σ) :
    wp (onHandle other x) Q E s ↔
      wp x (fun a s' => Q (a, s'.handle) { s' with handle := s.handle }) E
        { s with handle := other } := by
  simp only [onHandle, wp_bind, wp_getHandle, wp_modifyHandle, wp_pure]

/-- It runs as it does there. -/
theorem onHandle_run {α : Type} {other : AtshaHandle} {x : Prog σ α} {s s' : St σ} {a : α}
    (h : x.run { s with handle := other } = .ok a s') :
    (onHandle other x).run s = .ok (a, s'.handle) { s' with handle := s.handle } := by
  rw [run_eq_ok_iff, wp_onHandle, wp_of_run h]
  exact ⟨rfl, rfl⟩

/-! ## What is kept -/

/-- Nothing has happened to the handle and the bus, and the library may have waited. -/
structure Follows (s s' : St σ) : Prop where
  handle : s'.handle = s.handle
  bus : s'.bus = s.bus
  waits : s.ni2cWaits ≤ s'.ni2cWaits

/-- A printed line follows. -/
theorem Follows.printed {s s' : St σ} (h : Follows s s') (text : String) :
    Follows s (s'.exchanged s'.bus (.printed text)) :=
  ⟨h.handle, h.bus, h.waits.trans (by rw [ni2cWaits_exchanged]; exact Nat.le_add_right _ _)⟩

/-- A program that does nothing but print. -/
def OnlyPrints (x : Prog σ Unit) : Prop := ∀ s, Keeps (Follows s) x

/-- A number is printed, and nothing else is done. -/
theorem printNumberLine_onlyPrints (label : String) (number : AtshaBigInt) :
    OnlyPrints (printNumberLine (σ := σ) label number) :=
  fun _ => (Keeps.orFault _ _).bind fun _ _ hs => hs.printed _

/-- Two numbers are printed, and nothing else is done. -/
theorem printBoth_onlyPrints (label : String) (r1 r2 : AtshaBigInt) :
    OnlyPrints (printBoth (σ := σ) label r1 r2) :=
  fun s => (printNumberLine_onlyPrints _ _ s).bind fun _ => printNumberLine_onlyPrints _ _ s

/-- So is a line with an OTP word of either side. -/
theorem printOtpLine_onlyPrints (addr : UInt8) (r1 r2 : AtshaBigInt) :
    OnlyPrints (printOtpLine (σ := σ) addr r1 r2) :=
  fun _ => (Keeps.orFault _ _).bind fun _ => (Keeps.orFault _ _).bind fun _ _ hs => hs.printed _

/-- What a test goes by: what holds behind so many waits for the device (`J`), and from the last
comparison on (`G`), what it ends in (`Q`), and what a fault leaves (`E`). -/
structure TestRule (env : Env σ) (J : ℕ → St σ → Prop) (G : St σ → Prop) (Q : Bool → St σ → Prop)
    (E : St σ → Prop) : Prop where
  asks : ∀ (request : Request) n number s, J n s → wp (request.run env number)
    (fun r s' => if r.1 = .ok then J (n + request.waits) s' else Q false s') E s
  follows : ∀ n s s', J n s → Follows s s' → J n s'
  stops : ∀ n s, J n s → Q false s
  faults : ∀ n s s', J n s → s'.bus = s.bus → E s'
  rests : ∀ s, J 196 s → G s
  reads : ∀ address number, Keeps G (atshaRawConfRead env address number)
  prints : ∀ text, Keeps G (emit (.printed text))
  ends : ∀ s, G s → Q true s ∧ E s

section Rule

variable {env : Env σ} {J : ℕ → St σ → Prop} {G : St σ → Prop} {Q : Bool → St σ → Prop}
  {E : St σ → Prop}

/-- A part of the test with so many waits: where it goes on, the second handle is still an emulated
one. -/
def Round (J : ℕ → St σ → Prop) (Q : Bool → St σ → Prop) (E : St σ → Prop) (waits : ℕ)
    (part : TestLocals → Prog σ (Option TestLocals)) : Prop :=
  ∀ n locals s, J n s → locals.handleEmul.bottomLayer = .emulation →
    wp (part locals) (fun r s' => match r with
      | none => Q false s'
      | some locals' => J (n + waits) s' ∧ locals'.handleEmul.bottomLayer = .emulation) E s

/-- Two parts, one after the other. -/
theorem Round.andThen {waits waits' : ℕ} {part part' : TestLocals → Prog σ (Option TestLocals)}
    (hpart : Round J Q E waits part) (hpart' : Round J Q E waits' part') :
    Round J Q E (waits + waits') (fun locals => do
      match ← part locals with
      | none => return none
      | some locals => part' locals) := by
  intro n locals s hs hemul
  simp only [wp_bind]
  refine wp_mono (hpart n locals s hs hemul) ?_ fun _ hE => hE
  rintro (_ | locals₁) s₁ hs₁
  · exact hs₁
  · rw [← Nat.add_assoc]
    exact hpart' _ locals₁ s₁ hs₁.1 hs₁.2

/-- The rounds of a loop. -/
theorem Round.foldWhile {waits : ℕ} {body : ℕ → TestLocals → Prog σ (Option TestLocals)}
    {range : List ℕ} (hbody : ∀ i ∈ range, Round J Q E waits (body i)) :
    Round J Q E (range.length * waits) (Library.foldWhile body range) := by
  induction range with
  | nil =>
    intro n locals s hs hemul
    rw [List.length_nil, Nat.zero_mul]
    exact ⟨hs, hemul⟩
  | cons i range ih =>
    obtain ⟨hfirst, hrest⟩ := List.forall_mem_cons.mp hbody
    intro n locals s hs hemul
    rw [List.length_cons, Nat.succ_mul, Nat.add_comm (range.length * waits), ← Nat.add_assoc,
      Library.foldWhile, wp_bind]
    refine wp_mono (hfirst n locals s hs hemul) ?_ fun _ hE => hE
    rintro (_ | locals₁) s₁ hs₁
    · exact hs₁
    · exact ih hrest _ locals₁ s₁ hs₁.1 hs₁.2

/-- What a request does with a handle on the emulation layer. -/
theorem request_keeps (request : Request) (number : AtshaBigInt) (s : St σ) :
    Keeps (HarmlessSince false s) (request.run env number) := by
  cases request with
  | otp address => exact plainCall_keeps (.otpRead _) (fun _ => rfl) number
  | serialNumber => exact serialNumber_keeps number
  | chipSerialNumber => exact chipSerialNumber_keeps rfl number
  | respond slotNumber challenge =>
    obtain ⟨kind, challenge, useSn⟩ := challenge
    cases kind with
    | hmac => exact plainCall_keeps (.respond .hmac _ _ _) (fun _ => rfl) number
    | mac => exact plainCall_keeps (.respond .mac _ _ _) (fun _ => rfl) number

variable (h : TestRule env J G Q E)
include h

/-- Both are asked, and the answers compared.
SOURCE: test.c:57-71, test.c:75-89, test.c:143-158 -/
theorem compareAnswers_round (request : Request) {print : AtshaBigInt → AtshaBigInt → Prog σ Unit}
    (hprint : ∀ r1 r2, OnlyPrints (print r1 r2)) :
    Round J Q E request.waits (compareAnswers (request.run env) print) := by
  intro n locals s hs hemul
  rw [compareAnswers, wp_bind]
  refine wp_mono (h.asks request n _ s hs) ?_ fun _ hE => hE
  rintro ⟨status, r1⟩ s₁ hs₁
  dsimp only at hs₁ ⊢
  by_cases hok : status = .ok
  · rw [if_pos hok] at hs₁
    rw [if_neg (not_not.mpr hok), wp_bind, wp_onHandle]
    set s₂ : St σ := { s₁ with handle := locals.handleEmul }
    refine wp_mono (request_keeps request _ s₂ s₂ ⟨hemul, .refl s₂, rfl⟩) ?_
      fun s' hs' => h.faults _ _ s' hs₁ hs'.bus
    rintro ⟨status', r2⟩ s₃ hs₃
    have hfollows : Follows s₁ { s₃ with handle := s₁.handle } :=
      ⟨rfl, hs₃.bus, ni2cWaits_trail hs₃.trail⟩
    dsimp only
    split
    · exact h.stops _ _ (h.follows _ _ _ hs₁ hfollows)
    · rw [wp_bind]
      refine wp_mono (hprint r1 r2 s₁ _ hfollows) ?_ fun s' hs' => h.faults _ _ s' hs₁ hs'.bus
      intro _ s₄ hs₄
      have hs₄ := h.follows _ _ _ hs₁ hs₄
      rw [wp_bind, wp_access]
      cases cmpResponses r1 r2 with
      | none => exact h.faults _ _ s₄ hs₄ rfl
      | some equal =>
        cases equal with
        | false => exact h.stops _ _ hs₄
        | true => exact ⟨hs₄, hs₃.layer⟩
  · rw [if_neg hok] at hs₁
    rw [if_pos hok]
    exact hs₁

/-- The four digests under the key of a slot make ten waits.
SOURCE: test.c:74-137 -/
theorem testSlot_round (slot : Fin 16) : Round J Q E 10 (testSlot env (UInt8.ofNat slot)) := by
  have hround : ∀ kind useSn label, Round J Q E (Request.waits
      (.respond slot ⟨kind, testChallenge.data, useSn⟩)) (compareAnswers
      (Request.run env · (.respond slot ⟨kind, testChallenge.data, useSn⟩)) (printBoth label)) :=
    fun kind useSn label => compareAnswers_round h _ (printBoth_onlyPrints label)
  intro n locals s hs hemul
  rw [testSlot, wp_bind, wp_emit]
  have hs := h.follows _ _ _ hs (Follows.printed ⟨rfl, rfl, Nat.le_refl _⟩
    (titleLine (" " ++ twoDigits (UInt8.ofNat slot).toNat ++ " ") 50))
  exact ((hround .hmac true "HMAC ").andThen ((hround .hmac false "HMAC ").andThen
    ((hround .mac true "MAC  ").andThen (hround .mac false "MAC  ")))) n locals _ hs hemul

/-- Printing the configuration zone keeps what every read of it keeps.
SOURCE: test.c:161-171 -/
theorem printConfig_keeps (data : AtshaBigInt) : Keeps G
    ((List.range 22).foldlM (fun data addr => printConfigWord env (UInt8.ofNat addr) data)
      data) := by
  apply Keeps.foldlM
  intro data addr
  apply (h.reads _ data).bind
  rintro ⟨status, data⟩
  exact ((Keeps.orFault _ _).bind fun _ => h.prints _).bind fun _ => .pure _

/-- The rule for a test. It waits 4 times for the serial number, 10 times for the digests of each
slot, and twice for each OTP word.
SOURCE: test.c:36-178 -/
theorem wp_test (file : Option (List UInt8)) (r1 r2 data : AtshaBigInt) {s : St σ} (hs : J 0 s) :
    wp (test env file r1 r2 data) Q E s := by
  rw [test, wp_bind, wp_onHandle]
  have hprinted : ∀ {n : ℕ} {s : St σ} (text : String), J n s →
      J n (s.exchanged s.bus (.printed text)) :=
    fun text hs => h.follows _ _ _ hs (Follows.printed ⟨rfl, rfl, Nat.le_refl _⟩ text)
  cases file with
  | none =>
    simp only [atshaOpenEmulation, wp_bind, wp_logMessage, wp_pure, Bool.not_false, if_true,
      wp_emit]
    refine h.stops 0 _ (hprinted _ (h.follows _ s _ hs ⟨rfl, rfl, ?_⟩))
    change s.ni2cWaits ≤ (s.exchanged s.bus _).ni2cWaits
    rw [ni2cWaits_exchanged]
    exact Nat.le_add_right _ _
  | some content =>
    set s₀ : St σ := { s with handle := callocHandle }
    refine wp_mono (openEmulation_harmless false content s₀) ?_
      fun s' hs' => h.faults 0 s s' hs hs'.bus
    intro opened s₁ hs₁
    have hs₂ : J 0 { s₁ with handle := s.handle } :=
      h.follows _ s _ hs ⟨rfl, hs₁.bus, ni2cWaits_trail hs₁.trail⟩
    cases opened with
    | false => exact h.stops 0 _ (hprinted _ hs₂)
    | true =>
      have hslots : Round J Q E (16 * 10) (foldWhile
          (fun slot locals => testSlot env (UInt8.ofNat slot) locals) (List.range 16)) :=
        Round.foldWhile fun slot hslot => testSlot_round h ⟨slot, List.mem_range.mp hslot⟩
      have hwords : Round J Q E (16 * 2) (foldWhile
          (fun addr locals => testOtp env (UInt8.ofNat addr) locals) (List.range 16)) :=
        Round.foldWhile fun addr haddr => compareAnswers_round h
          (.otp ⟨addr, List.mem_range.mp haddr⟩) (printOtpLine_onlyPrints _)
      simp only [Bool.not_true, Bool.false_eq_true, if_false, wp_bind]
      refine wp_mono (compareAnswers_round h .serialNumber (printBoth_onlyPrints "SN ") 0 _ _ hs₂
        hs₁.layer) ?_ fun _ hE => hE
      rintro (_ | locals₃) s₃ hs₃
      · exact hs₃
      simp only [wp_bind]
      refine wp_mono (hslots _ _ _ hs₃.1 hs₃.2) ?_ fun _ hE => hE
      rintro (_ | locals₄) s₄ hs₄
      · exact hs₄
      simp only [wp_bind, wp_emit]
      refine wp_mono (hwords _ _ _ (hprinted _ hs₄.1) hs₄.2) ?_ fun _ hE => hE
      rintro (_ | locals₅) s₅ hs₅
      · exact hs₅
      simp only [wp_bind, wp_emit]
      exact wp_mono (printConfig_keeps h data _ (h.rests _ (hprinted _ hs₅.1)))
        (fun _ s' hs' => (h.ends s' hs').1) fun s' hs' => (h.ends s' hs').2

end Rule

/-! ## The alarm -/

/-- A request that is answered with success has waited as often as it should.
SOURCE: api.c:349-807 -/
theorem request_rests {env : Env σ} (request : Request) (number : AtshaBigInt) {s : St σ}
    (hlayer : s.handle.bottomLayer = .ni2c) (hasleep : s.handle.wakeIsExpected = false) :
    wp (request.run env number) (fun r s' => r.1 = .ok → Rested request.waits s s')
      (fun _ => True) s := by
  have hread : ∀ address number {s : St σ}, s.handle.bottomLayer = .ni2c →
      s.handle.wakeIsExpected = false → wp (atshaRawOtpRead env address number)
        (fun r s' => r.1 = .ok → Rested 2 s s') (fun _ => True) s :=
    fun address number _ => plainCall_rests (.otpRead address) number
  cases request with
  | otp address => exact hread _ number hlayer hasleep
  | serialNumber =>
    have hours : useOurSn = true := rfl
    simp only [Request.run, atshaSerialNumber, hours, if_true, wp_bind]
    refine wp_mono (hread _ _ hlayer hasleep) ?_ fun _ _ => trivial
    rintro ⟨status, part⟩ s₁ hs₁
    dsimp only
    split
    · exact fun hok => absurd hok (by assumption)
    · rename_i hok
      have hs₁ := hs₁ (not_not.mp hok)
      rw [wp_bind, wp_access]
      split
      · rw [wp_bind]
        refine wp_mono (hread _ _ hs₁.layer hs₁.asleep) ?_ fun _ _ => trivial
        rintro ⟨status', part'⟩ s₂ hs₂
        dsimp only
        split
        · exact fun hok => absurd hok (by assumption)
        · rename_i hok'
          rw [wp_bind, wp_access]
          split
          · exact fun _ => hs₁.trans (hs₂ (not_not.mp hok'))
          · trivial
      · trivial
  | chipSerialNumber =>
    have hpacket : ∀ bytes, opSerialNumber = some bytes → Framed bytes :=
      fun _ hbuilt => framed_of_generateCommandPacket (by decide) hbuilt
    refine session_rests number (exchange_waits hpacket number fun answer => .of_keeps fun n =>
      decodeData_native (fun answer buffer => ?_) number answer) hlayer hasleep
    exact (access_native _).bind fun _ => (access_native _).bind fun _ => .pure _
  | respond slotNumber challenge =>
    obtain ⟨kind, challenge, useSn⟩ := challenge
    cases kind with
    | hmac => exact plainCall_rests (.respond .hmac _ _ _) number hlayer hasleep
    | mac => exact plainCall_rests (.respond .mac _ _ _) number hlayer hasleep

/-- What a test goes by that counts the waits. -/
theorem testRule_rested (env : Env σ) (s₀ : St σ) : TestRule env (fun n s => Rested n s₀ s)
    (Native fun s => s₀.ni2cWaits + 196 ≤ s.ni2cWaits)
    (fun passed s => passed = true → s₀.ni2cWaits + 196 ≤ s.ni2cWaits) (fun _ => True) where
  asks := by
    intro request n number s hs
    refine wp_mono (request_rests request number hs.layer hs.asleep) ?_ fun _ _ => trivial
    intro r s' hs'
    split
    · exact hs.trans (hs' (by assumption))
    · exact fun hfalse => by cases hfalse
  follows := fun n s s' hs hfollows =>
    ⟨by rw [hfollows.handle]; exact hs.layer, by rw [hfollows.handle]; exact hs.asleep,
      hs.waits.trans hfollows.waits⟩
  stops := fun _ _ _ hfalse => by cases hfalse
  faults := fun _ _ _ _ _ => trivial
  rests := fun s hs => ⟨hs.layer, hs.waits⟩
  reads := fun address => plainCall_native (undisturbed_waits env.bus (fun _ => True) _)
    (.confRead address) (fun _ _ _ => trivial) fun _ _ _ _ _ _ _ => trivial
  prints := fun text s hs => ⟨hs.layer, hs.kept.trans
    (by rw [ni2cWaits_exchanged]; exact Nat.le_add_right _ _)⟩
  ends := fun s hs => ⟨fun _ => hs.kept, trivial⟩

/-! ## Comparing numbers -/

/-- The comparison tells whether the bytes are the same. -/
theorem cmpBytes_eq (r1 r2 : AtshaBigInt) {left i : ℕ} (h : i + left ≤ 32) :
    cmpBytes r1 r2 left i =
      some (decide ((r1.data.val.drop i).take left = (r2.data.val.drop i).take left)) := by
  induction left generalizing i with
  | zero => simp [cmpBytes]
  | succ left ih =>
    have hcell : ∀ number : AtshaBigInt, ∃ cell, peek number.data.val i = some cell ∧
        number.data.val.drop i = cell :: number.data.val.drop (i + 1) := by
      intro number
      have hlen : number.data.val.length = 32 := number.data.property
      have hcell : peek number.data.val i = number.data.val[i]? := by simp [peek]
      exact ⟨_, hcell.trans (List.getElem?_eq_getElem (by omega)),
        List.drop_eq_getElem_cons (by omega)⟩
    obtain ⟨a, ha, hdrop⟩ := hcell r1
    obtain ⟨b, hb, hdrop'⟩ := hcell r2
    simp only [cmpBytes, ha, hb, Option.bind_eq_bind, Option.bind_some, hdrop, hdrop',
      List.take_succ_cons]
    by_cases hab : a = b
    · simp [hab, ih (i := i + 1) (by omega)]
    · simp [hab]

/-- Two numbers are compared as what they hold.
SOURCE: test.c:26-34 -/
theorem cmpResponses_eq {r1 r2 : AtshaBigInt} {bytes bytes' : Block} (h : Holds r1 bytes)
    (h' : Holds r2 bytes') : cmpResponses r1 r2 = some (decide (bytes = bytes')) := by
  have hle := holds_length_le h
  rw [cmpResponses, h.bytes_eq, h'.bytes_eq]
  by_cases hlen : bytes.length = bytes'.length
  · rw [if_neg (not_not.mpr hlen), cmpBytes_eq r1 r2 (by omega), List.drop_zero, List.drop_zero,
      h.take_eq, hlen, h'.take_eq]
  · have hne : bytes ≠ bytes' := fun heq => hlen (congrArg List.length heq)
    rw [if_pos hlen, decide_eq_false hne]

/-! ## Without the alarm -/

/-- A program that returns, and does nothing but print. -/
def Prints (x : Prog σ Unit) : Prop :=
  ∀ s, wp x (fun _ s' => s'.handle = s.handle ∧ s'.bus = s.bus) (fun _ => False) s

/-- A number that holds its bytes can be printed. -/
theorem printNumberLine_prints (label : String) {number : AtshaBigInt} {bytes : Block}
    (h : Holds number bytes) : Prints (printNumberLine (σ := σ) label number) := by
  intro s
  simp only [printNumberLine, wp_bind, wp_access, copyOut_of_holds h (holds_length_le h)]
  exact ⟨rfl, rfl⟩

/-- Printing two answers. -/
def PrintsAnswers (print : AtshaBigInt → AtshaBigInt → Prog σ Unit) : Prop :=
  ∀ r1 r2 bytes bytes', Holds r1 bytes → Holds r2 bytes' → Prints (print r1 r2)

/-- So can the answers of both sides. -/
theorem printBoth_prints (label : String) : PrintsAnswers (printBoth (σ := σ) label) := by
  intro r1 r2 bytes bytes' h h' s
  rw [printBoth, wp_bind]
  refine wp_mono (printNumberLine_prints _ h s) ?_ fun _ hF => hF
  rintro _ s₁ ⟨hhandle, hbus⟩
  refine wp_mono (printNumberLine_prints _ h' s₁) ?_ fun _ hF => hF
  rintro _ s₂ ⟨hhandle', hbus'⟩
  exact ⟨hhandle'.trans hhandle, hbus'.trans hbus⟩

/-- So can those for an OTP word. -/
theorem printOtpLine_prints (addr : UInt8) : PrintsAnswers (printOtpLine (σ := σ) addr) := by
  intro r1 r2 bytes bytes' _ _ s
  have hfour : ∀ number : AtshaBigInt,
      copyOut number.data.val 4 = some (number.data.val.take 4) := by
    intro number
    apply copyOut_of_le
    rw [show number.data.val.length = 32 from number.data.property]
    decide
  simp only [printOtpLine, wp_bind, wp_access, hfour]
  exact ⟨rfl, rfl⟩

section Complete

variable {env : Env σ} {openssl : OpenSsl} {device : σ → Device} {content : List UInt8}
  {chip : Chip}

/-- In the middle of a test: the one handle is on the device with the chip, the other one on the
file. -/
structure Comparing (device : σ → Device) (content : List UInt8) (chip : Chip)
    (locals : TestLocals) (s : St σ) : Prop where
  relying : Relying device chip s.ni2cWaits s
  ofFile : OfFile content locals.handleEmul

/-- What leaves the handle and the bus alone, leaves the device as it is relied on. -/
theorem relying_same {waited : ℕ} {s s' : St σ} (h : Relying device chip waited s)
    (hsame : s'.handle = s.handle ∧ s'.bus = s.bus) : Relying device chip s'.ni2cWaits s' := by
  obtain ⟨hhandle, hbus⟩ := hsame
  exact ⟨⟨by rw [hhandle]; exact h.layer, by rw [hhandle]; exact h.asleep,
    by rw [hbus]; exact h.chip_eq⟩, by rw [hbus]; exact h.sleeps, rfl⟩

/-- A title leaves everything as it is. -/
theorem Comparing.titled {locals : TestLocals} {s : St σ}
    (h : Comparing device content chip locals s) (text : String) :
    Comparing device content chip locals (s.exchanged s.bus (.printed text)) :=
  ⟨relying_same h.relying ⟨rfl, rfl⟩, h.ofFile⟩

variable (hreliable : Reliable openssl env.bus device) (hopenssl : env.openssl = openssl)
  (hchip : chip.Provisioned) (hcopied : CopiedIn content chip)
  (hanswers : ∀ request : Request, ∃ bytes, request.answer openssl chip = some bytes)
include hreliable hopenssl hchip hcopied hanswers

/-- A round goes through where the device can be relied on and the file is a copy of its chip. -/
theorem compareAnswers_complete (request : Request)
    {print : AtshaBigInt → AtshaBigInt → Prog σ Unit} (hprint : PrintsAnswers print)
    {locals : TestLocals} {s : St σ} (h : Comparing device content chip locals s) :
    ∃ locals' s', (compareAnswers (request.run env) print locals).run s = .ok (some locals') s' ∧
      Comparing device content chip locals' s' := by
  obtain ⟨bytes, hbytes⟩ := hanswers request
  obtain ⟨r1, s₁, hrun, hholds, hrelying⟩ :=
    request_reliable hreliable h.relying hchip hbytes locals.responseI2c
  have hround : wp (compareAnswers (request.run env) print locals)
      (fun r s' => ∃ locals', r = some locals' ∧ Comparing device content chip locals' s')
      (fun _ => False) s := by
    rw [compareAnswers, wp_bind, wp_of_run hrun]
    simp only [ne_eq, not_true_eq_false, if_false, wp_bind, wp_onHandle]
    have hfile := @wp_request_file _ _ { s₁ with handle := locals.handleEmul } env
      h.ofFile request locals.responseEmul
    rw [hopenssl, fileAnswer_copied hcopied, hbytes] at hfile
    refine wp_mono hfile ?_ fun _ hnone => by cases hnone
    rintro ⟨_, r2⟩ s₂ ⟨hofFile, hbus, rfl, hholds'⟩
    simp only [not_true_eq_false, if_false, wp_bind]
    refine wp_mono (hprint r1 r2 bytes bytes hholds hholds' _) ?_ fun _ hF => hF
    rintro _ s₃ ⟨hhandle, hbus'⟩
    rw [wp_access, cmpResponses_eq hholds hholds']
    simp only [decide_true, Bool.not_true, Bool.false_eq_true, if_false, wp_pure]
    exact ⟨_, rfl, relying_same hrelying ⟨hhandle, hbus'.trans hbus⟩, hofFile⟩
  obtain ⟨_, s', hreturns, locals', rfl, hcomparing⟩ := (wp_returns_iff _ _ _).mp hround
  exact ⟨locals', s', hreturns, hcomparing⟩

/-- The four digests under the key of a slot agree. -/
theorem testSlot_complete (slot : Fin 16) {locals : TestLocals} {s : St σ}
    (h : Comparing device content chip locals s) :
    ∃ locals' s', (testSlot env (UInt8.ofNat slot) locals).run s = .ok (some locals') s' ∧
      Comparing device content chip locals' s' := by
  have hround := fun kind useSn label {locals : TestLocals} {s : St σ}
      (h : Comparing device content chip locals s) =>
    compareAnswers_complete hreliable hopenssl hchip hcopied hanswers
      (.respond slot ⟨kind, testChallenge.data, useSn⟩) (printBoth_prints label) h
  obtain ⟨locals₁, s₁, hrun₁, h₁⟩ := hround .hmac true "HMAC " (h.titled _)
  obtain ⟨locals₂, s₂, hrun₂, h₂⟩ := hround .hmac false "HMAC " h₁
  obtain ⟨locals₃, s₃, hrun₃, h₃⟩ := hround .mac true "MAC  " h₂
  obtain ⟨locals', s', hrun', h'⟩ := hround .mac false "MAC  " h₃
  refine ⟨locals', s', ?_, h'⟩
  have hemit : (emit (.printed (titleLine (" " ++ twoDigits (UInt8.ofNat slot).toNat ++ " ") 50))
      : Prog σ Unit).run s = .ok () (s.exchanged s.bus _) := rfl
  rw [testSlot, run_bind_of_run hemit]
  exact (run_bind_of_run hrun₁).trans ((run_bind_of_run hrun₂).trans
    ((run_bind_of_run hrun₃).trans hrun'))

omit hopenssl hchip hcopied hanswers in
/-- The configuration zone is printed.
SOURCE: test.c:161-171 -/
theorem printConfig_complete (data : AtshaBigInt) {s : St σ}
    (h : Relying device chip s.ni2cWaits s) :
    ∃ data' s', ((List.range 22).foldlM
        (fun data addr => printConfigWord env (UInt8.ofNat addr) data) data).run s =
      .ok data' s' ∧ Relying device chip s'.ni2cWaits s' := by
  refine foldlM_runs _ _ (fun _ s => Relying device chip s.ni2cWaits s) ?_ data s h
  intro address haddress data s₁ h₁
  have hlt : address < 22 := List.mem_range.mp haddress
  have hnumber : (UInt8.ofNat address).toNat = address := ofNat_toNat_of_lt (by omega)
  obtain ⟨r, s₂, hrun, hholds, h₂⟩ :=
    confRead_reliable hreliable h₁ (UInt8.ofNat address) (by omega) data
  obtain ⟨_, s₃, hprint, hprinted⟩ := (wp_returns_iff _ _ _).mp
    (printNumberLine_prints ("0x" ++ asText (pairText (UInt8.ofNat address)) ++ ": ") hholds s₂)
  refine ⟨r, s₃, ?_, relying_same h₂ hprinted⟩
  rw [printConfigWord, run_bind_of_run hrun]
  exact run_bind_of_run hprint

/-- If it is not for the alarm, a chip passes the test with its copy.
SOURCE: test.c:36-178 -/
theorem test_reliable (r1 r2 data : AtshaBigInt) {s : St σ}
    (h : Relying device chip s.ni2cWaits s) :
    ∃ s', (test env (some content) r1 r2 data).run s = .ok true s' := by
  -- the file can be opened
  obtain ⟨s₁, hopen, hofFile, -, hbus⟩ :=
    openEmulation_ofFile env (opens_copied hcopied) { s with handle := callocHandle }
  have hrun₁ := onHandle_run hopen
  have h₁ : Comparing device content chip ⟨s₁.handle, r1, r2⟩ { s₁ with handle := s.handle } :=
    ⟨relying_same h ⟨rfl, hbus⟩, hofFile⟩
  -- every round goes through
  obtain ⟨locals₂, s₂, hrun₂, h₂⟩ := compareAnswers_complete hreliable hopenssl hchip hcopied
    hanswers .serialNumber (printBoth_prints "SN ") h₁
  obtain ⟨locals₃, s₃, hrun₃, h₃⟩ := foldWhile_runs (List.range 16)
    (fun slot locals => testSlot env (UInt8.ofNat slot) locals)
    (Comparing device content chip)
    (fun slot hslot locals s₁ h₁ => testSlot_complete hreliable hopenssl hchip hcopied hanswers
      ⟨slot, List.mem_range.mp hslot⟩ h₁) locals₂ s₂ h₂
  obtain ⟨locals₄, s₄, hrun₄, h₄⟩ := foldWhile_runs (List.range 16)
    (fun addr locals => testOtp env (UInt8.ofNat addr) locals)
    (Comparing device content chip)
    (fun addr haddr locals s₁ h₁ => compareAnswers_complete hreliable hopenssl hchip hcopied
      hanswers (.otp ⟨addr, List.mem_range.mp haddr⟩) (printOtpLine_prints _) h₁)
    locals₃ _ (h₃.titled (titleLine " OTP " 49))
  obtain ⟨data', s₅, hrun₅, -⟩ :=
    printConfig_complete hreliable data (h₄.titled (titleLine " CNF " 49)).relying
  refine ⟨s₅, ?_⟩
  rw [test, run_bind_of_run hrun₁]
  refine (run_bind_of_run hrun₂).trans ((run_bind_of_run hrun₃).trans ?_)
  exact (run_bind_of_run hrun₄).trans (run_bind_of_run hrun₅)

end Complete

/-! ## What becomes of a test -/

/-- Whatever the link and the device are: a test that passes has waited for the device 196 times or
more, and so for longer than the alarm that was set when the device was opened leaves time for. No
process of `chiptools test` lives to say that it has passed.
SOURCE: test.c:36-178, api.c:125-129, layer_ni2c.c:41-43 -/
theorem test_outlives_alarm (env : Env σ) (file : Option (List UInt8)) (r1 r2 data : AtshaBigInt)
    (s s' : St σ) (hlayer : s.handle.bottomLayer = .ni2c)
    (hasleep : s.handle.wakeIsExpected = false)
    (hrun : (test env file r1 r2 data).run s = .ok true s') :
    s.ni2cWaits + 196 ≤ s'.ni2cWaits ∧ OutlivesAlarm s s' := by
  have hrested : Rested 0 s s := ⟨hlayer, hasleep, Nat.le_refl _⟩
  have hwaits : s.ni2cWaits + 196 ≤ s'.ni2cWaits :=
    (wp_test (testRule_rested env s) file r1 r2 data hrested).of_run hrun rfl
  have halarm : waitsUntilAlarm ≤ 196 := by decide
  exact ⟨hwaits, (Nat.add_le_add_left halarm _).trans hwaits⟩

/-- So it is with a locked chip and its copy, over a link without faults. -/
theorem test_outlives_alarm_locked :
    ∃ s', (test goodEnv (some (chipCopy lockedChip).text) zeroNumber zeroNumber zeroNumber).run
        (deviceState lockedChip) = .ok true s' ∧
      (deviceState lockedChip).ni2cWaits + 196 ≤ s'.ni2cWaits ∧
      OutlivesAlarm (deviceState lockedChip) s' := by
  have hstart : Relying DeviceLink.device lockedChip (deviceState lockedChip).ni2cWaits
      (deviceState lockedChip) := relying_deviceState lockedChip
  obtain ⟨s', hrun⟩ := test_reliable goodEnv_reliable rfl lockedChip_provisioned
    (copiedIn_chipCopy lockedChip) (answer_total _ _ lockedChip) zeroNumber zeroNumber zeroNumber
    hstart
  exact ⟨s', hrun, test_outlives_alarm goodEnv _ _ _ _ (deviceState lockedChip) s' rfl rfl hrun⟩

end Atsha204.Analysis
