import Atsha204.Analysis.EmulatedHandle
import Atsha204.Analysis.LockedContent
import Atsha204.Analysis.Waits

/-!
# Provisioning is too slow for the alarm

Each of the calls of `init` waits for its wake and for its command, so with every word of the
chip that it goes through it comes nearer to the alarm of its handle. A `Leg` is a part of the
run that, where it goes on, has waited so often, and that does not lock the data zones. The legs
up to the lock of the data zones make 118 waits, more than the alarm leaves time for: a process
that lives to send that lock, or to report that everything is locked, has outlived its alarm
(`init_outlives_alarm`).
-/

set_option autoImplicit false

namespace Atsha204.Analysis

open Atsha204.Library
open Atsha204.Model
open Atsha204.Interface

variable {σ α β : Type} {env : Env σ}

/-! ## Legs -/

/-- The data zones are not locked on the way. -/
abbrev Unlocked (s s' : St σ) : Prop := Trail (fun e => ¬ LocksData e) s s'

/-- A part of a run that does not lock the data zones, and that has waited so often or more and
leaves the device asleep where its value is one to go on with. -/
def Leg (n : ℕ) (good : α → Prop) (x : Prog σ α) : Prop :=
  ∀ s, s.handle.bottomLayer = .ni2c → s.handle.wakeIsExpected = false →
    wp x (fun a s' => Unlocked s s' ∧ (good a → Rested n s s')) (Unlocked s) s

/-- The end of a run with a value that is none to go on with. -/
def Ends (good : α → Prop) (x : Prog σ α) : Prop :=
  ∀ s, wp x (fun a s' => Unlocked s s' ∧ ¬ good a) (Unlocked s) s

section Legs

variable {n m : ℕ} {good : α → Prop} {good' : β → Prop}

/-- A value that is none to go on with ends the run. -/
theorem Ends.pure {a : α} (h : ¬ good a) : Ends good (pure a : Prog σ α) :=
  fun s => ⟨Trail.refl s, h⟩

/-- Returning a value takes no time. -/
theorem Leg.pure (a : α) : Leg 0 good (pure a : Prog σ α) :=
  fun s hlayer hasleep => ⟨Trail.refl s, fun _ => ⟨hlayer, hasleep, Nat.le_refl _⟩⟩

/-- Nor does a partial access. -/
theorem Leg.access (o : Option α) : Leg 0 (fun _ => True) (access (σ := σ) o) := by
  cases o with
  | none => exact fun s _ _ => Trail.refl s
  | some a => exact Leg.pure a

/-- A leg, and another one behind it where there is something to go on with. -/
theorem Leg.bind {x : Prog σ α} {f : α → Prog σ β} (hx : Leg n good x)
    (hgood : ∀ a, good a → Leg m good' (f a)) (hbad : ∀ a, ¬ good a → Ends good' (f a)) :
    Leg (n + m) good' (x >>= f) := by
  intro s hlayer hasleep
  rw [wp_bind]
  refine wp_mono (hx s hlayer hasleep) ?_ fun _ hE => hE
  rintro a s₁ ⟨htrail₁, hrested⟩
  by_cases ha : good a
  · have hrested₁ := hrested ha
    refine wp_mono (hgood a ha s₁ hrested₁.layer hrested₁.asleep) ?_ fun _ hE => htrail₁.trans hE
    exact fun b s₂ ⟨htrail₂, hrested₂⟩ =>
      ⟨htrail₁.trans htrail₂, fun hb => hrested₁.trans (hrested₂ hb)⟩
  · refine wp_mono (hbad a ha s₁) ?_ fun _ hE => htrail₁.trans hE
    exact fun b s₂ ⟨htrail₂, hb⟩ => ⟨htrail₁.trans htrail₂, fun h => absurd h hb⟩

/-- A leg behind something that does not touch the bus. -/
theorem Leg.after_access {o : Option α} {f : α → Prog σ β} (hf : ∀ a, Leg m good' (f a)) :
    Leg m good' (Model.access o >>= f) := by
  have h := (Leg.access (σ := σ) o).bind (fun a _ => hf a) fun _ h => absurd trivial h
  rwa [Nat.zero_add] at h

/-- A step begins with a call: it gives up, or goes on. -/
theorem Leg.then {x : Prog σ (AtshaErr × α)} {f : AtshaErr × α → Prog σ (Option β)}
    (hx : Leg n (·.1 = .ok) x) (hbad : ∀ status a, status ≠ .ok → f (status, a) = Pure.pure none)
    (hgood : ∀ a, Leg m (·.isSome) (f (.ok, a))) : Leg (n + m) (·.isSome) (x >>= f) := by
  refine hx.bind ?_ ?_
  · rintro ⟨_, a⟩ rfl
    exact hgood a
  · rintro ⟨status, a⟩ hstatus
    rw [hbad status a hstatus]
    exact .pure fun h => by cases h

/-- A part that hands a value on, where it has one. -/
theorem Leg.thenSome {x : Prog σ (Option α)} {f : Option α → Prog σ β}
    (hx : Leg n (·.isSome) x) (hnone : Ends good' (f none))
    (hsome : ∀ a, Leg m good' (f (some a))) : Leg (n + m) good' (x >>= f) := by
  refine hx.bind (fun r hr => ?_) fun r hr => ?_
  · cases r with
    | none => cases hr
    | some a => exact hsome a
  · cases r with
    | none => exact hnone
    | some a => exact absurd rfl hr

/-- The rounds of a loop. -/
theorem Leg.foldWhile {ι : Type} {body : ι → α → Prog σ (Option α)}
    (hbody : ∀ i a, Leg n (·.isSome) (body i a)) (range : List ι) (a : α) :
    Leg (range.length * n) (·.isSome) (foldWhile body range a) := by
  induction range generalizing a with
  | nil =>
    rw [List.length_nil, Nat.zero_mul]
    exact Leg.pure _
  | cons i is ih =>
    rw [List.length_cons, Nat.succ_mul, Nat.add_comm]
    exact (hbody i a).thenSome (.pure fun h => by cases h) ih

/-- The value of a leg in another form. -/
theorem Leg.map {x : Prog σ α} (hx : Leg n good x) (g : α → β) (h : ∀ a, good' (g a) → good a) :
    Leg n good' (do return g (← x)) :=
  hx.bind (fun _ _ => Leg.pure _) fun _ ha => .pure fun hb => ha (h _ hb)

/-- Leaving a number as it is takes no time. -/
theorem leg_of_leaving {x : Prog σ (AtshaErr × Unit)} {number : AtshaBigInt}
    (h : Leg n (·.1 = .ok) (leaving number x)) : Leg n (·.1 = .ok) x := by
  intro s hlayer hasleep
  have hleaving := h s hlayer hasleep
  rwa [leaving, wp_bind] at hleaving

end Legs

/-! ## The calls -/

/-- What is sent to lock no data zone leaves them unlocked. -/
theorem undisturbed_unlocked (bus : I2cBus σ) (s₀ : St σ) :
    Undisturbed bus (fun packet => lockedZone packet ≠ some lockData) (Unlocked s₀) := by
  refine undisturbed_of_trail ?_ ?_ (fun _ _ h => h) s₀
  · rintro e he
    cases e with
    | written bytes ok b => exact he.elim
    | _ => exact id
  · rintro packet hpacket e he
    cases e with
    | written bytes ok b =>
      obtain rfl : bytes = atsha204I2cWaCommand :: packet := he
      exact hpacket
    | _ => exact id

/-- A call that ends well, and does not lock the data zones. -/
theorem leg_call (call : PlainCall) (number : AtshaBigInt)
    (hpacket : ∀ bytes, call.packet = some bytes → lockedZone bytes ≠ some lockData)
    (hnonce : ∀ slotNumber challenge useSn, call ≠ .respond .hmac slotNumber challenge useSn) :
    Leg (PlainCall.leastWaits call) (·.1 = .ok) (call.run env number) := by
  intro s hlayer hasleep
  have htrail := plainCall_native (undisturbed_unlocked env.bus s) call (fun _ => hpacket)
    (fun slotNumber challenge useSn h => absurd h (hnonce _ _ _)) number s ⟨hlayer, Trail.refl s⟩
  exact wp_mono (wp_and htrail (plainCall_rests call number hlayer hasleep))
    (fun _ _ ⟨hnative, hrested⟩ => ⟨hnative.kept, hrested⟩) fun _ hE => hE.1.kept

/-- What carries another opcode is no lock. -/
theorem built_not_lock {opcode param1 : UInt8} {param2 : UInt16} {data bytes : Block}
    {dataCount : UInt8} (hopcode : opcode ≠ atsha204OpcodeLock) (hdata : data.length ≤ 32)
    (h : generateCommandPacket opcode param1 param2 data dataCount = some bytes) :
    lockedZone bytes ≠ some lockData := by
  obtain ⟨sent, -, rfl⟩ := exists_of_generateCommandPacket hdata h
  rw [lockedZone_of_ne hopcode]
  exact fun h => by cases h

/-- A read of the configuration zone makes two waits. -/
theorem leg_confRead (address : UInt8) (number : AtshaBigInt) :
    Leg 2 (·.1 = .ok) (atshaRawConfRead env address number) :=
  leg_call (.confRead address) number
    (fun _ => built_not_lock (by decide) (by decide)) fun _ _ _ h => by cases h

/-- So does a write. -/
theorem leg_write (call : WriteCall) (number : AtshaBigInt) :
    Leg 2 (·.1 = .ok) (call.run env number) :=
  leg_of_leaving (leg_call (.write call number) number
    (fun _ => built_not_lock (by decide) number.data.property.le) fun _ _ _ h => by cases h)

/-- The lock of the configuration zone is not the one of the data zones. -/
theorem leg_lockConfig (crc : UInt8 × UInt8) : Leg 2 (·.1 = .ok) (atshaLockConfig env crc) := by
  refine leg_of_leaving (leg_call (.lockConfig crc) (env.uninitBigInt .configRecord) ?_
    fun _ _ _ h => by cases h)
  intro bytes hbuilt
  obtain ⟨sent, -, rfl⟩ := exists_of_generateCommandPacket (by decide) hbuilt
  exact fun h => absurd (Option.some.inj h) (by decide)

/-! ## Up to the lock of the data zones -/

/-- Reading the configuration zone makes two waits for each word.
SOURCE: init.c:105-116 -/
theorem leg_readConfigZone : Leg 44 (·.isSome) (readConfigZone env) := by
  refine (Leg.foldWhile (n := 2) (fun item acc => ?_) (List.range configCnt) _).map _
    fun r hr => by rwa [Option.isSome_map] at hr
  refine (leg_confRead (UInt8.ofNat item) acc.2).then (m := 0) ?_ fun record => ?_
  · exact fun _ _ h => if_pos h
  simp only [ne_eq, not_true_eq_false, if_false]
  exact .after_access fun bytes => .after_access fun config => .pure _

/-- Setting the OTP mode is a read and a write.
SOURCE: init.c:72-84 -/
theorem leg_setOtpMode (config : Block) : Leg 4 (·.isSome) (setOtpMode env config) := by
  refine (leg_confRead 0x04 _).then (m := 2) ?_ fun record => ?_
  · exact fun _ _ h => if_pos h
  simp only [ne_eq, not_true_eq_false, if_false]
  refine (leg_write (.conf 0x04) _).then (m := 0) ?_ fun _ => ?_
  · exact fun _ _ h => if_pos h
  simp only [not_true_eq_false, if_false]
  exact .after_access fun config => .pure _

/-- So is setting each of the eight words with the slot settings.
SOURCE: init.c:86-103 -/
theorem leg_setSlotConfig (config : Block) : Leg 32 (·.isSome) (setSlotConfig env config) := by
  refine (Leg.foldWhile (n := 4) (fun addr acc => ?_) (List.range' 0x05 8) _).map _
    fun r hr => by rwa [Option.isSome_map] at hr
  refine (leg_confRead (UInt8.ofNat addr) acc.2).then (m := 2) ?_ fun record => ?_
  · exact fun _ _ h => if_pos h
  simp only [ne_eq, not_true_eq_false, if_false]
  refine .after_access fun data => ?_
  refine (leg_write (.conf (UInt8.ofNat addr)) _).then (m := 0) ?_ fun _ => ?_
  · exact fun _ _ h => if_pos h
  simp only [not_true_eq_false, if_false]
  exact .after_access fun config => .pure _

/-- All that is done before the configuration zone is locked makes 80 waits.
SOURCE: init.c:106-119 -/
theorem leg_prepareConfig : Leg 80 (·.isSome) (prepareConfig env) :=
  leg_readConfigZone.thenSome (m := 36) (.pure fun h => by cases h) fun config =>
    (leg_setOtpMode config).thenSome (m := 32) (.pure fun h => by cases h) leg_setSlotConfig

/-- The lock makes two more.
SOURCE: init.c:105-125 -/
theorem leg_createAndLockConfig : Leg 82 (· = true) (createAndLockConfig env) :=
  leg_prepareConfig.thenSome (m := 2) (.pure fun h => by cases h) fun _ =>
    .after_access fun crc => (leg_lockConfig crc).map _ fun _ h => of_decide_eq_true h

/-- Each of the keys is a write.
SOURCE: init.c:128-135 -/
theorem leg_writeKeys (data : Block) : Leg 32 (·.isSome) (writeKeys env data) := by
  refine Leg.foldWhile (n := 2) (fun item number => ?_) (List.range slotCnt) _
  refine .after_access fun bytes => .after_access fun buffer => ?_
  refine (leg_write (.slot (UInt8.ofNat item)) _).then (m := 0) ?_ fun _ => ?_
  · exact fun _ _ h => if_pos h
  simp only [ne_eq, not_true_eq_false, if_false]
  exact .pure _

/-- The OTP words are two.
SOURCE: init.c:137-145 -/
theorem leg_writeOtp (otp : Block) (number : AtshaBigInt) :
    Leg 4 (·.isSome) (writeOtp env otp number) := by
  refine Leg.foldWhile (n := 2) (fun base number => ?_) [0, 32] _
  refine .after_access fun bytes => .after_access fun buffer => ?_
  refine (leg_write (.otp32 (UInt8.ofNat (base / 4))) _).then (m := 0) ?_ fun _ => ?_
  · exact fun _ _ h => if_pos h
  simp only [ne_eq, not_true_eq_false, if_false]
  exact .pure _

/-- All that is done between the locks makes 36 waits. -/
theorem leg_writeData (data otp : Block) : Leg 36 (· = true) (writeData env data otp) :=
  (leg_writeKeys data).thenSome (m := 4) (.pure fun h => by cases h) fun number =>
    (leg_writeOtp otp number).map _ fun _ h => h

/-! ## The run -/

/-- From the one state to the other the data zones are not locked, or only behind a state by which
the alarm has gone off. -/
def Late (s s' : St σ) : Prop :=
  ∃ s₁, Unlocked s s₁ ∧ (s₁ = s' ∨ OutlivesAlarm s s₁ ∧ Trail (fun _ => True) s₁ s')

/-- What a run of `init` leaves behind with this value: if it is `true`, the alarm has gone off. -/
structure LateWith (s : St σ) (locked : Bool) (s' : St σ) : Prop where
  late : Late s s'
  reported : locked = true → OutlivesAlarm s s'

/-- A run that fails before the data zones are locked. -/
theorem LateWith.of_unlocked {s s' : St σ} (h : Unlocked s s') : LateWith s false s' :=
  ⟨⟨s', h, .inl rfl⟩, fun h => by cases h⟩

/-- A line for the user is no wait and no lock. -/
theorem LateWith.report {s s' : St σ} {locked : Bool} (h : LateWith s locked s') (line : String) :
    LateWith s locked (s'.exchanged s'.bus (.printed line)) := by
  have hline : ∀ {P : Event σ → Prop}, P (.printed line) →
      Trail P s' (s'.exchanged s'.bus (.printed line)) := Trail.exchanged s' s'.bus
  have hwaits := ni2cWaits_trail (hline (P := fun _ => True) trivial)
  obtain ⟨⟨s₁, hunlocked, hlate⟩, hreported⟩ := h
  refine ⟨?_, fun hlocked => (hreported hlocked).trans hwaits⟩
  obtain rfl | ⟨halarm, htrail⟩ := hlate
  · exact ⟨_, hunlocked.trans (hline id), .inl rfl⟩
  · exact ⟨s₁, hunlocked, .inr ⟨halarm, htrail.trans (hline trivial)⟩⟩

/-- Behind a late lock there is the alarm. -/
theorem Late.waits {s s' : St σ} (h : Late s s') {front back : List (Event σ)} {e : Event σ}
    (htrace : s'.trace = s.trace ++ front ++ e :: back) (he : LocksData e) :
    waitsUntilAlarm ≤ front.countP Event.ni2cWait := by
  obtain ⟨s₁, ⟨events, hevents, hunlocked⟩, hlate⟩ := h
  obtain ⟨later, hlater, halarm⟩ : ∃ later, front ++ e :: back = events ++ later ∧
      (later ≠ [] → OutlivesAlarm s s₁) := by
    obtain rfl | ⟨halarm, later, hlater, -⟩ := hlate
    · refine ⟨[], ?_, fun h => absurd rfl h⟩
      rw [hevents, List.append_assoc] at htrace
      rw [List.append_nil, List.append_cancel_left htrace]
    · refine ⟨later, ?_, fun _ => halarm⟩
      rw [hlater, hevents, List.append_assoc, List.append_assoc] at htrace
      exact (List.append_cancel_left htrace).symm
  -- the lock is not among the events without one
  obtain ⟨between, rfl⟩ : ∃ between, front = events ++ between := by
    rcases List.append_eq_append_iff.mp hlater with ⟨rest, rfl, hrest⟩ | ⟨between, rfl, -⟩
    · cases rest with
      | nil => exact ⟨[], by simp⟩
      | cons e' rest =>
        obtain ⟨rfl, -⟩ := List.cons.inj hrest
        exact absurd he (hunlocked e (by simp))
    · exact ⟨between, rfl⟩
  have hsome : later ≠ [] := by
    rintro rfl
    simp at hlater
  have hwaits : s.ni2cWaits + waitsUntilAlarm ≤ s₁.ni2cWaits := halarm hsome
  rw [St.ni2cWaits, St.ni2cWaits, hevents, List.countP_append] at hwaits
  rw [List.countP_append]
  omega

/-- What comes behind the alarm. -/
theorem LateWith.behind {s s₁ s' : St σ} (hunlocked : Unlocked s s₁) (halarm : OutlivesAlarm s s₁)
    (h : Trail (fun _ => True) s₁ s') (locked : Bool) : LateWith s locked s' :=
  ⟨⟨s₁, hunlocked, .inr ⟨halarm, h⟩⟩, fun _ => halarm.trans (ni2cWaits_trail h)⟩

/-- The lock of the data zones only adds to the trace.
SOURCE: api.c:843-883 -/
theorem wp_lockData_trail (crc : UInt8 × UInt8) {s : St σ} (hlayer : s.handle.bottomLayer = .ni2c) :
    wp (atshaLockData env crc) (fun _ s' => Trail (fun _ => True) s s')
      (Trail (fun _ => True) s) s := by
  have hany : Undisturbed env.bus (fun _ => True) (Trail (fun _ => True) s) :=
    undisturbed_of_trail (fun _ _ => trivial) (fun _ _ _ _ => trivial) (fun _ _ => trivial) s
  have h := plainCall_native hany (.lockData crc) (fun _ _ _ => trivial)
    (fun _ _ _ _ _ _ _ => trivial) (env.uninitBigInt .configRecord) s ⟨hlayer, Trail.refl s⟩
  rw [PlainCall.run, leaving, wp_bind] at h
  exact wp_mono h (fun _ _ h => h.kept) fun _ h => h.kept

/-- The data zones are locked behind 118 waits.
SOURCE: init.c:127-157 -/
theorem wp_writeAndLockData_late (data otp : Block) {s s₁ : St σ} (htrail₁ : Unlocked s s₁)
    (hrested₁ : Rested 82 s s₁) :
    wp (writeAndLockData env data otp) (LateWith s) (Late s) s₁ := by
  rw [writeAndLockData, wp_bind]
  refine wp_mono (leg_writeData data otp s₁ hrested₁.layer hrested₁.asleep) ?_
    fun s₂ hE => ⟨s₂, htrail₁.trans hE, .inl rfl⟩
  rintro written s₂ ⟨htrail₂, hrested₂⟩
  have hunlocked := htrail₁.trans htrail₂
  cases written with
  | false => exact .of_unlocked hunlocked
  | true =>
    -- 118 waits, where the alarm leaves time for 100
    have hrested := hrested₁.trans (hrested₂ rfl)
    have halarm : OutlivesAlarm s s₂ := by
      refine Nat.le_trans (Nat.add_le_add_left ?_ _) hrested.waits
      decide
    suffices hrest : wp _ (fun _ s' => Trail (fun _ => True) s₂ s') (Trail (fun _ => True) s₂) s₂ from
      wp_mono hrest (fun locked s' h => .behind hunlocked halarm h locked)
        fun s' h => ⟨s₂, hunlocked, .inr ⟨halarm, h⟩⟩
    simp only [Bool.not_true, Bool.false_eq_true, if_false, wp_bind, access, wp_orFault]
    split
    swap
    · exact Trail.refl s₂
    split
    swap
    · exact Trail.refl s₂
    split
    swap
    · exact Trail.refl s₂
    exact wp_mono (wp_lockData_trail _ hrested.layer) (fun _ _ h => h) fun _ h => h

/-- A run of `init`, however it ends, locks the data zones late if at all. -/
theorem wp_init_late (env : Env σ) (file : Option (List UInt8)) {s : St σ}
    (hlayer : s.handle.bottomLayer = .ni2c) (hasleep : s.handle.wakeIsExpected = false) :
    wp (init env file) (LateWith s) (Late s) s := by
  have hfailed : ∀ line, LateWith s false (s.exchanged s.bus (.printed line)) :=
    (LateWith.of_unlocked (Trail.refl s)).report
  have hstart : Late s s := ⟨s, Trail.refl s, .inl rfl⟩
  cases file with
  | none => exact hfailed _
  | some content =>
    rw [init]
    simp only [wp_bind, wp_withLocalFile]
    split
    case h_2 => exact hstart
    case h_1 data conf hkeys =>
    cases data with
    | none => exact hfailed _
    | some data =>
      simp only [wp_bind, wp_withLocalFile]
      split
      case h_2 => exact hstart
      case h_1 otp conf' hwords =>
      cases otp with
      | none => exact hfailed _
      | some otp =>
        simp only [wp_bind]
        refine wp_mono (leg_createAndLockConfig s hlayer hasleep) ?_
          fun s₁ hE => ⟨s₁, hE, .inl rfl⟩
        rintro locked s₁ ⟨htrail₁, hrested₁⟩
        cases locked with
        | false => exact (LateWith.of_unlocked htrail₁).report _
        | true =>
          simp only [Bool.not_true, Bool.false_eq_true, if_false, wp_bind, wp_emit]
          have hprinted := htrail₁.trans (Trail.exchanged s₁ s₁.bus
            (show ¬ LocksData (.printed "Configuration is locked") from id))
          refine wp_mono (wp_writeAndLockData_late data otp hprinted ?_) ?_ fun _ hE => hE
          · have hrested := hrested₁ rfl
            exact ⟨hrested.layer, hrested.asleep, hrested.waits.trans
              (ni2cWaits_trail (Trail.exchanged (P := fun _ => True) s₁ s₁.bus trivial))⟩
          · intro both s₂ h
            cases both with
            | false => exact h.report _
            | true => exact h.report _

/-- An alarm that is set before `init` goes off before the data zones are locked, and a process that
is to report that everything is locked has outlived it: whatever the bus does, there have been
too many waits.
SOURCE: init.c:72-201, api.c:125-129, layer_ni2c.c:41-43 -/
theorem init_outlives_alarm (env : Env σ) (file : Option (List UInt8)) (s : St σ)
    (hlayer : s.handle.bottomLayer = .ni2c) (hasleep : s.handle.wakeIsExpected = false) :
    LocksDataLate env file s ∧
      ∀ s', (init env file).run s = .ok true s' → OutlivesAlarm s s' := by
  have hinit := wp_init_late env file hlayer hasleep
  constructor
  · intro front e back htrace he
    have hlate := (wp_lastState_iff (init env file) (Late s) s).mp
      (wp_mono hinit (fun _ _ h => h.late) fun _ h => h)
    exact hlate.waits htrace he
  · exact fun s' hrun => (wp.of_run hinit hrun).reported rfl

/-- What is behind the reading of the file: all that `init` does with the chip. -/
theorem init_run_of_read {content : List UInt8} {data otp : Block} {s s' : St σ}
    (hread : ReadByInit env content data otp)
    (hrun : (do
      if !(← createAndLockConfig env) then
        return false
      emit (.printed "Configuration is locked")
      writeAndLockData env data otp).run s = .ok true s') :
    (init env (some content)).run s =
      .ok true (s'.exchanged s'.bus (.printed "Data and OTP zones are locked")) := by
  obtain ⟨conf, conf', hkeys, hwords⟩ := hread
  obtain ⟨locked, s₁, hconfig, hrest⟩ := (run_bind_eq_ok_iff _ _ _ _ _).mp hrun
  have hfile : ∀ {file file' : File} {x : FileProg (Option Block)} {bytes : Block},
      x.run file = .ok (some bytes) file' →
      (withLocalFile (σ := σ) file x).run s = .ok (some bytes, file') s := by
    intro file file' x bytes hx
    rw [withLocalFile, hx]
    rfl
  rw [init, run_bind_of_run (hfile hkeys)]
  dsimp only
  rw [run_bind_of_run (hfile hwords)]
  dsimp only
  rw [run_bind_of_run hconfig]
  cases locked with
  | false => cases hrest
  | true =>
    obtain ⟨_, s₂, hprinted, hdata⟩ := (run_bind_eq_ok_iff _ _ _ _ _).mp hrest
    simp only [Bool.not_true, Bool.false_eq_true, if_false]
    rw [run_bind_of_run hprinted, run_bind_of_run hdata]
    rfl

/-- Over a link without a fault, with a file that can be read: the run goes well, too late. -/
theorem init_outlives_alarm_good_link :
    LocksDataLate (chipEnv replayEnv.openssl replayEnv.uninit) (some markedLayout.text)
        (linkState fun _ => goodStep) ∧
      ∃ s', (init (chipEnv replayEnv.openssl replayEnv.uninit) (some markedLayout.text)).run
          (linkState fun _ => goodStep) = .ok true s' ∧
        OutlivesAlarm (linkState fun _ => goodStep) s' := by
  have houtlives := init_outlives_alarm (chipEnv replayEnv.openssl replayEnv.uninit)
    (some markedLayout.text) (linkState fun _ => goodStep) rfl rfl
  have hread : ReadByInit (chipEnv replayEnv.openssl replayEnv.uninit) markedLayout.text
      (List.replicate 512 0) (List.replicate 64 0) :=
    (readByInit_iff _ _ _ _).mpr ⟨markedLayout.text.drop (16 * 65),
      markedLayout.text.drop (16 * 65 + 16 * 9), by decide +kernel, by decide +kernel⟩
  have hlocked : (match (do
      if !(← createAndLockConfig (chipEnv replayEnv.openssl replayEnv.uninit)) then
        return false
      emit (.printed "Configuration is locked")
      writeAndLockData (chipEnv replayEnv.openssl replayEnv.uninit) (List.replicate 512 0)
        (List.replicate 64 0)).run (linkState fun _ => goodStep) with
      | .ok locked _ => locked
      | .error _ _ => false) = true := by decide +kernel
  refine ⟨houtlives.1, ?_⟩
  split at hlocked
  · rename_i locked s' hrun
    obtain rfl := hlocked
    have hinit := init_run_of_read hread hrun
    exact ⟨_, hinit, houtlives.2 _ hinit⟩
  · cases hlocked

end Atsha204.Analysis
