import Atsha204.Analysis.Communication
import Atsha204.Interface.Session

/-!
# The wake flag and the device

`wake_is_expected` is meant to say that the device is awake. Two functions break this:
`wake` sets the flag behind its loop even when no wake was confirmed, and `idle` clears
it without a look at whether the idle byte was written. In every run in which no call
does so, the flag is what the trace says of the device (`wake_flag_tracks`); a run of one
`wake` on a dead bus is enough to break it (`wake_flag_fails`).
-/

set_option autoImplicit false

namespace Atsha204.Analysis

open Atsha204.Library
open Atsha204.Model
open Atsha204.Interface

variable {σ : Type} {env : Env σ}

/-- The flag says of the device what the trace says, and no wake token waits. -/
def Synced (s : St σ) : Prop := sessionOf s.trace = ⟨false, s.handle.wakeIsExpected⟩

/-- The frames that confirm a wake are the ones that `wake` accepts. -/
theorem confirmsWake_iff (frame : Frame) :
    confirmsWake frame = true ↔ ∃ answer, judgeWake frame = some (.accept answer) := by
  constructor
  · intro h
    unfold confirmsWake at h
    split at h
    · rename_i answer hanswer
      simp only [Bool.and_eq_true, decide_eq_true_eq] at h
      exact ⟨answer, judgeWake_of_confirmed hanswer h.1 h.2⟩
    · cases h
  · rintro ⟨answer, h⟩
    rcases judgeWake_cases frame with hj | hj | ⟨answer, -, hanswer, hcheck, hstatus⟩
    · rw [hj] at h; cases h
    · rw [hj] at h; cases h
    · simp [confirmsWake, hanswer, hcheck, hstatus]

/-! ## One call -/

/-- What the calls of one attempt to wake say of a device that sleeps. -/
theorem foldl_wakeEvents (bus : I2cBus σ) (b : σ) (messages : List String) :
    (wakeEvents bus b ++ messages.map Event.message).foldl Session.step ⟨false, false⟩ =
      ⟨false, (wakeExchange bus b).1.any confirmsWake⟩ := by
  rw [List.foldl_append, foldl_step_messages]
  simp only [wakeEvents, wakeExchange]
  cases (bus.openPath b).1 with
  | false => rfl
  | true =>
    simp only [if_true]
    cases (bus.bindGeneralCall (bus.openPath b).2).1 with
    | false => rfl
    | true =>
      simp only [if_true]
      cases (bus.read (bus.writeWake (bus.bindGeneralCall (bus.openPath b).2).2)).1 <;> rfl

/-- The events of a command say nothing new of a device no wake token waits for. -/
theorem foldl_ofCommand {packet : Block} {awake : Bool} {events : List (Event σ)}
    (h : ∀ e ∈ events, OfCommand packet e) :
    events.foldl Session.step ⟨false, awake⟩ = ⟨false, awake⟩ := by
  induction events with
  | nil => rfl
  | cons e events ih =>
    have hstep : Session.step ⟨false, awake⟩ e = ⟨false, awake⟩ := by
      have he := h e (by simp)
      cases e with
      | written bytes ok b =>
        obtain rfl : bytes = atsha204I2cWaCommand :: packet := he
        simp [Session.step, atsha204I2cWaCommand, atsha204I2cWaIdle]
      | received frame => cases frame <;> simp [Session.step]
      | message text => rfl
      | _ => exact he.elim
    rw [List.foldl_cons, hstep]
    exact ih fun e he => h e (by simp [he])

/-- A wake that is confirmed keeps the flag true to the device. -/
theorem wake_synced {s s' : St σ} {status : AtshaErr} (hlayer : s.handle.bottomLayer = .ni2c)
    (hsync : Synced s) (hok : CommCall.Orderly env s .wake)
    (hrun : (wake env).run s = .ok status s') : Synced s' := by
  by_cases hflag : s.handle.wakeIsExpected = true
  · have hreturn : wp (wake env) (fun _ s' => s' = s) (fun _ => False) s := by
      simp only [wake, wp_bind, wp_getHandle, hflag, if_true, wp_pure]
    rw [hreturn.of_run hrun]
    exact hsync
  · have hasleep : s.handle.wakeIsExpected = false := by simpa using hflag
    obtain ⟨b', answer, haccepts⟩ := hok.resolve_left hflag
    have hsession : wp (retry (wakeAttempt env) maxAttempts (.ok, none))
        (fun r s' => sessionOf s'.trace = ⟨false, r.isOk⟩ ) (fun _ => True) s := by
      refine wp_retry_link judgeWake_givesUpBadly (wakeAttempt_spec hlayer)
        (fun _ s' => sessionOf s'.trace = ⟨false, false⟩) ?_ (fun _ _ _ _ hI => hI) rfl
        (by rw [hsync, hasleep])
      intro n s₁ messages _ hI
      have hnext : sessionOf (s₁.after (wakeExchange env.bus s₁.bus).2
          (wakeEvents env.bus s₁.bus) messages).trace =
          ⟨false, (wakeExchange env.bus s₁.bus).1.any confirmsWake⟩ := by
        rw [St.after_trace, List.append_assoc, sessionOf_append, hI, foldl_wakeEvents]
      generalize s₁.after _ _ _ = s₂ at hnext ⊢
      cases hframe : (wakeExchange env.bus s₁.bus).1 with
      | none => simpa [AfterAttempt, hframe] using hnext
      | some frame =>
        rw [hframe, Option.any_some] at hnext
        have hconfirms := confirmsWake_iff frame
        rcases judgeWake_cases frame with hj | hj | ⟨answer, hj, -⟩
        · simp [AfterAttempt, hj]
        · have hno : confirmsWake frame = false := by
            simpa [hj] using hconfirms
          simpa [AfterAttempt, hj, liftVerdict, hno] using hnext
        · have hyes : confirmsWake frame = true := hconfirms.mpr ⟨answer, hj⟩
          simpa [AfterAttempt, hj, liftVerdict, hyes, Except.isOk, Except.toBool] using hnext
    obtain ⟨r, s₁, hretry, -, hr⟩ := (retry_accepts_iff judgeWake_givesUpBadly
      (wakeRetry_simulates hlayer) fun r _ _ => r.isOk = true).mpr
      ⟨answer, b', haccepts, rfl⟩
    have hawake := hsession.of_run hretry
    rw [wake_run hasleep, hretry] at hrun
    obtain ⟨-, rfl⟩ := EStateM.Result.ok.inj hrun
    rw [hr] at hawake
    exact hawake

/-- Where the idle byte is written, or nothing was awake, the flag stays true to the
device. -/
theorem idle_synced {s s' : St σ} {status : AtshaErr} (hlayer : s.handle.bottomLayer = .ni2c)
    (hsync : Synced s) (hok : CommCall.Orderly env s .idle)
    (hrun : (idle env).run s = .ok status s') : Synced s' := by
  rw [idle_run, idled_ni2c hlayer] at hrun
  obtain ⟨-, rfl⟩ := EStateM.Result.ok.inj hrun
  unfold Synced at hsync ⊢
  simp only [St.exchanged_trace, sessionOf_append, hsync, List.foldl_cons, List.foldl_nil,
    Session.step]
  rcases hok with hflag | hwritten
  · simp [hflag]
  · simp [hwritten]

/-- A command leaves both the flag and the device as they are. -/
theorem command_synced {s s' : St σ} {status : AtshaErr} {rawPacket : Block}
    (hlayer : s.handle.bottomLayer = .ni2c) (hsync : Synced s)
    (hrun : ((CommCall.command rawPacket).run env).run s = .ok status s') :
    Synced s' ∧ s'.handle = s.handle := by
  obtain ⟨reply, s₁, hcommand, hpure⟩ := (run_bind_eq_ok_iff _ _ _ _ _).mp hrun
  obtain ⟨-, rfl⟩ := EStateM.Result.ok.inj hpure
  cases hbytes : sentBytes rawPacket with
  | none => exact ((wp_command_of_none hlayer hbytes).of_run hcommand).elim
  | some bytes =>
    obtain ⟨hhandle, events, htrace, hof, -⟩ := (wp_command_trace hlayer hbytes).of_run hcommand
    refine ⟨?_, hhandle⟩
    rw [Synced, htrace, sessionOf_append, hsync, foldl_ofCommand hof, hhandle]

/-! ## Runs -/

/-- Every call that keeps the flag true to the device leads from a synced state to one. -/
theorem call_synced {s s' : St σ} {status : AtshaErr} {call : CommCall}
    (hlayer : s.handle.bottomLayer = .ni2c) (hsync : Synced s) (hok : call.Orderly env s)
    (hrun : (call.run env).run s = .ok status s') :
    Synced s' ∧ s'.handle.bottomLayer = .ni2c := by
  cases call with
  | wake =>
    refine ⟨wake_synced hlayer hsync hok hrun, ?_⟩
    rw [((wp_wake_trace hlayer).of_run hrun).1]
    exact hlayer
  | idle =>
    refine ⟨idle_synced hlayer hsync hok hrun, ?_⟩
    rw [CommCall.run, idle_run] at hrun
    rw [← (EStateM.Result.ok.inj hrun).2]
    exact hlayer
  | command rawPacket =>
    obtain ⟨hsync', hhandle⟩ := command_synced hlayer hsync hrun
    exact ⟨hsync', hhandle ▸ hlayer⟩

/-- In every run from a new handle whose calls keep the flag true to the device, the flag is
true exactly when the device has confirmed a wake since it was last put to sleep.
SOURCE: communication.c:41-109, layer_ni2c.c:60-95, api.h:60 -/
theorem wake_flag_tracks (env : Env σ) (s s' : St σ) (calls : List CommCall) (hfresh : Fresh s)
    (hruns : Runs env (CommCall.Orderly env) s calls s') :
    s'.handle.wakeIsExpected = (sessionOf s'.trace).awake := by
  have hall : Synced s' := by
    have hsync : Synced s := by rw [Synced, hfresh.silent, hfresh.asleep]; rfl
    have hlayer := hfresh.layer
    clear hfresh
    induction hruns with
    | nil => exact hsync
    | cons hok hrun _ ih =>
      obtain ⟨hsync', hlayer'⟩ := call_synced hlayer hsync hok hrun
      exact ih hsync' hlayer'
  rw [hall]

/-- A device that answers at once: behind the wake the flag agrees with the trace. -/
theorem wake_flag_tracks_answer :
    ∃ s', Runs replayEnv (CommCall.Orderly replayEnv) (replayState [some wakeOkFrame]) [.wake] s' ∧
      s'.handle.wakeIsExpected = (sessionOf s'.trace).awake := by
  have hconfirms := confirms_wakeOkFrame []
  obtain ⟨s', hrun, -⟩ := (@wake_ok_iff _ replayEnv (replayState [some wakeOkFrame])
    rfl rfl fun _ _ => True).mpr ⟨[], hconfirms, trivial⟩
  have hruns : Runs replayEnv (CommCall.Orderly replayEnv) (replayState [some wakeOkFrame])
      [.wake] s' := .cons (.inr ⟨[], hconfirms⟩) hrun (.nil s')
  exact ⟨s', hruns, wake_flag_tracks replayEnv _ s' [.wake] ⟨rfl, rfl, rfl⟩ hruns⟩

/-- On a bus that brings no frame, `wake` fails and the flag is true all the same. -/
theorem wake_flag_fails : ¬ ∀ (σ : Type) (env : Env σ) (s s' : St σ) (calls : List CommCall),
    Fresh s → Runs env (fun _ _ => True) s calls s' →
      s'.handle.wakeIsExpected = (sessionOf s'.trace).awake := by
  intro h
  have hrun : (match (wake replayEnv).run (replayState []) with
      | .ok _ s' => s'.handle.wakeIsExpected && !(sessionOf s'.trace).awake
      | .error _ _ => false) = true := by decide +kernel
  cases hwake : (wake replayEnv).run (replayState []) with
  | error e s' => simp [hwake] at hrun
  | ok status s' =>
    have hflag := h _ replayEnv (replayState []) s' [.wake] ⟨rfl, rfl, rfl⟩
      (.cons trivial hwake (.nil s'))
    simp [hwake, hflag] at hrun

end Atsha204.Analysis
