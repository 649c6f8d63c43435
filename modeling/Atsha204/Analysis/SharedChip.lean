import Atsha204.Analysis.HonestSessions
import Atsha204.Analysis.LockTurns
import Atsha204.Analysis.ReadingCalls
import Atsha204.Interface.SharedChip

/-!
# A chip that is shared

Users of the device that make no writes and no locks leave the chip as it is, also those who are
stopped in the middle of a call. To see it, a bus notes whether all the commands so far only asked
(`notedBus`): behind a whole run they did, and so they did in the middle of it. Then every user that
got through was told the truth about the one chip (`shared_chip_answers`).
-/

set_option autoImplicit false

namespace Atsha204.Analysis

open Atsha204.Library
open Atsha204.Model
open Atsha204.Interface

variable {σ α : Type} {openssl : OpenSsl} {bus : I2cBus σ} {device : σ → Device}

/-! ## Single calls -/

/-- If the call is a command, it only asks. -/
def AskingCall (call : BusCall) : Prop :=
  ∀ packet, call = .write (atsha204I2cWaCommand :: packet) → Asks packet

/-- A call that only asks leaves the chip as it is. -/
theorem chip_of_askingCall (hsteady : SteadyCalls bus device) {call : BusCall}
    (hasking : AskingCall call) (b : σ) :
    (device (busAnswer bus call b).2).chip = (device b).chip := by
  by_cases hcommand : ∃ packet, call = .write (atsha204I2cWaCommand :: packet)
  · obtain ⟨packet, rfl⟩ := hcommand
    obtain ⟨inquiry, rfl⟩ := hasking packet rfl
    exact hsteady.inquiries inquiry b
  · exact hsteady.others call b fun packet heq => hcommand ⟨packet, heq⟩

/-! ## A bus that takes notes -/

/-- The bus, with a note whether all the commands so far only asked. -/
def notedBus (bus : I2cBus σ) : I2cBus (σ × Prop) where
  openPath := fun b => ((bus.openPath b.1).1, (bus.openPath b.1).2, b.2)
  bindGeneralCall := fun b => ((bus.bindGeneralCall b.1).1, (bus.bindGeneralCall b.1).2, b.2)
  writeWake := fun b => (bus.writeWake b.1, b.2)
  write := fun bytes b =>
    ((bus.write bytes b.1).1, (bus.write bytes b.1).2, b.2 ∧ AskingCall (.write bytes))
  read := fun b => ((bus.read b.1).1, (bus.read b.1).2, b.2)

/-- An inquiry that is sent only asks. -/
theorem askingCall_command {packet : Block} (h : Asks packet) :
    AskingCall (.write (atsha204I2cWaCommand :: packet)) := by
  intro packet' heq
  obtain rfl := List.tail_eq_of_cons_eq (BusCall.write.inj heq)
  exact h

/-- So does the idle byte. -/
theorem askingCall_idle : AskingCall (.write [atsha204I2cWaIdle]) := by
  intro packet heq
  have hhead := List.head_eq_of_cons_eq (BusCall.write.inj heq)
  exact absurd hhead (by decide)

/-- Operations that only ask leave it noted. -/
theorem undisturbed_noted (bus : I2cBus σ) :
    Undisturbed (notedBus bus) Asks fun s => s.bus.2 := by
  refine @undisturbed_of_bus _ (notedBus bus) Asks (fun b => b.2) ?_ ?_ ?_
  · intro b hb
    dsimp only [wakeExchange, notedBus]
    cases (bus.openPath b.1).1 with
    | false => exact hb
    | true => cases (bus.bindGeneralCall (bus.openPath b.1).2).1 <;> exact hb
  · intro packet b hasks hb
    dsimp only [commandExchange, notedBus]
    cases (bus.write (atsha204I2cWaCommand :: packet) b.1).1 <;>
      exact ⟨hb, askingCall_command hasks⟩
  · exact fun b hb => ⟨hb, askingCall_idle⟩

/-- What is noted behind a call was so before, and the call only asked. -/
theorem noted_of_call (call : BusCall) (b : σ × Prop)
    (h : (busAnswer (notedBus bus) call b).2.2) : b.2 ∧ AskingCall call := by
  cases call with
  | write bytes => exact h
  | openPath | bindGeneralCall | writeWake | read =>
    refine ⟨h, ?_⟩
    intro packet heq
    cases heq

/-- Behind a run that is noted to have asked only, the chip is as it was. -/
theorem chip_of_noted (hsteady : SteadyCalls bus device) (t : BusProgram α) (b : σ × Prop)
    (h : (t.run (busAnswer (notedBus bus)) b).2.2) :
    b.2 ∧ (device (t.run (busAnswer bus) b.1).2).chip = (device b.1).chip := by
  induction t generalizing b with
  | done a => exact ⟨h, rfl⟩
  | call c k ih =>
    rw [Interaction.run_call] at h ⊢
    have hsame : (busAnswer (notedBus bus) c b).1 = (busAnswer bus c b.1).1 := by cases c <;> rfl
    have hstate : (busAnswer (notedBus bus) c b).2.1 = (busAnswer bus c b.1).2 := by
      cases c <;> rfl
    obtain ⟨hnoted, hchip⟩ := ih _ _ h
    obtain ⟨hb, hasking⟩ := noted_of_call c b hnoted
    rw [hsame, hstate] at hchip
    exact ⟨hb, hchip.trans (chip_of_askingCall hsteady hasking b.1)⟩

/-- A run in progress is one on the bus that takes notes. -/
theorem progress_noted (hsteady : SteadyCalls bus device) {t left : BusProgram α} {b b' : σ}
    (h : Progress (busAnswer bus) t b left b') :
    ∃ noted : Prop, Progress (busAnswer (notedBus bus)) t (b, True) left (b', noted) ∧
      (noted → (device b').chip = (device b).chip) := by
  induction h with
  | start => exact ⟨True, .start, fun _ => rfl⟩
  | @call c k b' _ ih =>
    obtain ⟨noted, hprogress, hchip⟩ := ih
    have hnext := hprogress.call
    have hkept : (busAnswer (notedBus bus) c (b', noted)).2.2 →
        (device (busAnswer bus c b').2).chip = (device b).chip := by
      intro hnoted
      obtain ⟨hbefore, hasking⟩ := noted_of_call c (b', noted) hnoted
      exact (chip_of_askingCall hsteady hasking b').trans (hchip hbefore)
    cases c <;> exact ⟨_, hnext, hkept⟩

/-! ## Tenures -/

section Tenures

variable {uninit : Uninit} {charSigned : Bool} {calls : List PublicCall}
  (hreading : ∀ call ∈ calls, call.Reading)
  {t : BusProgram (List (AtshaErr × Output))} (hperforms : Performs openssl uninit charSigned t calls)
include hreading hperforms

/-- A program of calls that only ask is noted to be one. -/
theorem noted_of_performs (bus : I2cBus σ) (b : σ) :
    (t.run (busAnswer (notedBus bus)) (b, True)).2.2 := by
  have hkeeps : Keeps (Native fun s : St (σ × Prop) => s.bus.2)
      (callAll (envOn openssl uninit (notedBus bus)) charSigned calls) :=
    callAll_native (undisturbed_noted bus) charSigned hreading
  have hlast : (lastState ((callAll (envOn openssl uninit (notedBus bus)) charSigned calls).run
      ⟨openNi2cDev, (b, True), []⟩)).bus.2 := (hkeeps.lastState ⟨rfl, trivial⟩).kept
  rw [hperforms (σ × Prop) (notedBus bus) (b, True), aloneOn]
  cases hrun : (callAll (envOn openssl uninit (notedBus bus)) charSigned calls).run
      ⟨openNi2cDev, (b, True), []⟩ with
  | ok results s' =>
    rw [hrun] at hlast
    exact hlast
  | error e s' =>
    rw [hrun] at hlast
    exact hlast

variable (hsteady : SteadyCalls bus device)
include hsteady

/-- A program of such calls leaves the chip as it is. -/
theorem chip_of_run (b : σ) : (device (t.run (busAnswer bus) b).2).chip = (device b).chip :=
  (chip_of_noted hsteady t (b, True) (noted_of_performs hreading hperforms bus b)).2

/-- In the middle of a program that only asks the chip is as it was. -/
theorem chip_of_progress {left : BusProgram (List (AtshaErr × Output))} {b b' : σ}
    (h : Progress (busAnswer bus) t b left b') : (device b').chip = (device b).chip := by
  obtain ⟨noted, hprogress, hchip⟩ := progress_noted hsteady h
  have hnoted := noted_of_performs hreading hperforms bus b
  rw [hprogress.run_eq] at hnoted
  exact hchip (chip_of_noted hsteady left (b', noted) hnoted).1

end Tenures

/-! ## Users -/

section Users

variable {ι π : Type} {uninit : Uninit} {charSigned : Bool} {process : ι → π}
  {program : ι → BusProgram (List (AtshaErr × Output))} {calls : ι → List PublicCall}
  {alarm₀ : π → Option ℕ} {action₀ : π → SigAction} {b₀ : σ}

/-- Tenures of programs that only ask leave the chip as it is. -/
theorem chip_of_serial (hreading : ∀ i, ∀ call ∈ calls i, call.Reading)
    (hperforms : ∀ i, Performs openssl uninit charSigned (program i) (calls i))
    (hsteady : SteadyCalls bus device) {tenures : Tenures ι (List (AtshaErr × Output))}
    {b : σ} (h : Serial (busAnswer bus) program b₀ tenures b) :
    (device b).chip = (device b₀).chip := by
  induction h with
  | nil => rfl
  | whole _ i _ ih => exact (chip_of_run (hreading i) (hperforms i) hsteady _).trans ih
  | cut _ i _ ht ih => exact (chip_of_progress (hreading i) (hperforms i) hsteady ht).trans ih

/-- The public operation of a request runs the request. -/
theorem request_call_run (env : Env σ) (charSigned : Bool) (request : Request)
    (number : AtshaBigInt) : (request.call number).run env charSigned =
      giving .number (request.run env number) := by
  cases request with
  | otp | serialNumber | chipSerialNumber => rfl
  | respond slotNumber challenge =>
    obtain ⟨kind, challenge, useSn⟩ := challenge
    cases kind <;> rfl

/-- Requests that are made on an opened device are answered truly. -/
theorem callAll_truly {env : Env σ} (hhonest : Honest env.openssl env.bus device) {chip : Chip}
    (hchip : chip.Provisioned) {requests : List (Request × AtshaBigInt)}
    (hworks : ∀ asked ∈ requests, ∃ bytes, asked.1.answer env.openssl chip = some bytes)
    {results : List (AtshaErr × Output)} {s s' : St σ} (hs : Resting device chip s)
    (hrun : (callAll env charSigned (requests.map fun asked => asked.1.call asked.2)).run s =
      .ok results s') : AnsweredTruly env.openssl chip requests results := by
  induction requests generalizing results s s' with
  | nil => exact (EStateM.Result.ok.inj hrun).1.symm
  | cons asked requests ih =>
    obtain ⟨request, number⟩ := asked
    obtain ⟨⟨bytes, hbytes⟩, hworks⟩ := List.forall_mem_cons.mp hworks
    obtain ⟨⟨status, output⟩, s₁, hfirst, hrun⟩ := (run_bind_eq_ok_iff _ _ _ _ _).mp hrun
    obtain ⟨rest, s₂, hrest, hrun⟩ := (run_bind_eq_ok_iff _ _ _ _ _).mp hrun
    obtain ⟨rfl, -⟩ := EStateM.Result.ok.inj hrun
    refine ⟨status, output, rest, rfl, ?_⟩
    rintro rfl
    dsimp only at hfirst
    rw [request_call_run] at hfirst
    obtain ⟨⟨status, r⟩, s₃, hanswer, hgiven⟩ := (run_bind_eq_ok_iff _ _ _ _ _).mp hfirst
    obtain ⟨hvalue, rfl⟩ := EStateM.Result.ok.inj hgiven
    obtain ⟨rfl, rfl⟩ := Prod.mk.inj hvalue
    obtain ⟨hholds, hs₁⟩ := request_honest hhonest hs hchip hbytes hanswer
    exact ⟨⟨r, bytes, rfl, hbytes, hholds⟩, ih hworks hs₁ hrest⟩

variable [DecidableEq ι] [DecidableEq π]

end Users

/-! ## A device behind a link -/

/-- Nothing that is written on such a link, and no other call on it, changes the chip: it writes and
locks nothing.
SOURCE: layer_ni2c.c:60-114 -/
theorem deviceBus_steadyCalls (openssl : OpenSsl) (script : ℕ → LinkStep) (noise : ℕ → Block) :
    SteadyCalls (deviceBus openssl script noise) DeviceLink.device where
  inquiries := fun inquiry b => write_chip _ b
  others := by
    intro call b _
    cases call with
    | openPath | bindGeneralCall | read => rfl
    | writeWake =>
      simp only [busAnswer, deviceBus, DeviceLink.carry]
      split <;> rfl
    | write bytes => exact write_chip bytes b

/-- A request to a locked chip, over a link without faults and with nobody else, is answered. -/
theorem aloneOn_locked (request : Request) {b : DeviceLink} (hchip : b.device.chip = lockedChip)
    (hsleeps : b.device.awake = 0) : ∃ results handle b',
      aloneOn mixedDigests goodEnv.uninit true goodEnv.bus [request.call zeroNumber] b =
        ((.ok results, handle), b') ∧ b'.device.chip = lockedChip ∧ b'.device.awake = 0 := by
  obtain ⟨bytes, hanswer⟩ := answer_total (fun key message => mixed (key ++ message)) mixed
    lockedChip request
  obtain ⟨r, s', hrun, -, hs'⟩ := request_reliable goodEnv_reliable
    (⟨⟨rfl, rfl, hchip⟩, hsleeps, rfl⟩ :
      Relying DeviceLink.device lockedChip 0 ⟨openNi2cDev, b, []⟩)
    lockedChip_provisioned hanswer zeroNumber
  have hcall : ((request.call zeroNumber).run goodEnv true).run ⟨openNi2cDev, b, []⟩ =
      .ok (.ok, .number r) s' := by
    rw [request_call_run]
    exact run_bind_of_run hrun
  have hcalls : (callAll goodEnv true [request.call zeroNumber]).run ⟨openNi2cDev, b, []⟩ =
      .ok [(.ok, .number r)] s' := run_bind_of_run hcall
  exact ⟨_, s'.handle, s'.bus, congrArg ending hcalls, hs'.chip_eq, hs'.sleeps⟩

/-- What either of two users asks for. -/
def askedOf (i : Bool) : Request :=
  if i then .serialNumber else .respond ⟨6, by decide⟩ (⟨.hmac, mixed [0x5A], true⟩)

end Atsha204.Analysis
