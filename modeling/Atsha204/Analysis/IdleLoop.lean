import Mathlib.Data.Nat.Find
import Atsha204.Interface.IdleLoop

/-!
# The loop of `idle` counts nothing

`tries` keeps its first value, so a failed call of the layer is always followed by another one:
the loop leaves with the first success (`idleLoop_run_ok`) and not before
(`idleLoop_run_failing`). It is bounded exactly when a success comes within the calls that
the counter was meant to allow (`idle_bounded_iff`).
-/

set_option autoImplicit false

namespace Atsha204.Analysis

open Atsha204.Library
open Atsha204.Model
open Atsha204.Interface

/-- The first success among some calls. -/
theorem exists_first_ok {statuses : ℕ → AtshaErr} {s : St ℕ} {calls : ℕ}
    (h : OkWithin statuses s calls) : ∃ n < calls,
      (∀ i < n, statuses (s.bus + i) ≠ .ok) ∧ statuses (s.bus + n) = .ok := by
  classical
  obtain ⟨i, hi, hok⟩ := h
  have hex : ∃ n, statuses (s.bus + n) = .ok := ⟨i, hok⟩
  exact ⟨Nat.find hex, lt_of_le_of_lt (Nat.find_min' hex hok) hi, fun _ => Nat.find_min hex,
    Nat.find_spec hex⟩

section Loop

variable {statuses : ℕ → AtshaErr} {s : St ℕ} (hlayer : s.handle.bottomLayer = .ni2c)
include hlayer

/-! ## The rounds -/

/-- A round with a good status is the last one.
SOURCE: communication.c:103-106 -/
theorem idleLoop_run_succ_ok (hok : statuses s.bus = .ok) (tries : Int) (fuel : ℕ) :
    (idleLoop (scriptedIdle statuses) tries (fuel + 1)).run s = .ok .ok
      { s with bus := s.bus + 1, handle := { s.handle with wakeIsExpected := false } } := by
  rw [run_eq_ok_iff]
  simp only [idleLoop, wp_bind, wp_getHandle, hlayer, scriptedIdle, wp_get, wp_modify, wp_pure, hok,
    if_true, wp_setWakeIsExpected]
  trivial

/-- A round with another status leads into the next one, with the counter as it was.
SOURCE: communication.c:93-107 -/
theorem idleLoop_run_succ_failing (hfail : statuses s.bus ≠ .ok) {tries : Int} (htries : 0 ≤ tries)
    (fuel : ℕ) : (idleLoop (scriptedIdle statuses) tries (fuel + 1)).run s =
      (idleLoop (scriptedIdle statuses) tries fuel).run { s with bus := s.bus + 1 } := by
  have hhandle : (getHandle (σ := ℕ)).run s = .ok s.handle s := rfl
  have hcall : (scriptedIdle statuses).run s = .ok (statuses s.bus) { s with bus := s.bus + 1 } := rfl
  rw [idleLoop, run_bind_of_run hhandle]
  simp only [hlayer]
  rw [run_bind_of_run hcall, if_neg hfail, if_neg (by omega)]

/-- While every call fails, the loop goes on.
SOURCE: communication.c:91-108 -/
theorem idleLoop_run_failing (tries : Int) (htries : 0 ≤ tries) (calls fuel : ℕ)
    (hfail : ∀ i < calls, statuses (s.bus + i) ≠ .ok) :
    (idleLoop (scriptedIdle statuses) tries (calls + fuel)).run s =
      (idleLoop (scriptedIdle statuses) tries fuel).run { s with bus := s.bus + calls } := by
  induction calls generalizing s with
  | zero => rw [Nat.zero_add, Nat.add_zero]
  | succ calls ih =>
    have hnext : ∀ i < calls, statuses (s.bus + 1 + i) ≠ .ok := by
      intro i hi
      rw [Nat.add_assoc, Nat.add_comm 1 i]
      exact hfail (i + 1) (by omega)
    rw [Nat.succ_add, idleLoop_run_succ_failing hlayer (hfail 0 (by omega)) htries,
      @ih { s with bus := s.bus + 1 } hlayer hnext]
    simp only [Nat.add_assoc, Nat.add_comm 1 calls]

/-! ## The loop -/

/-- The loop leaves with the first success.
SOURCE: communication.c:87-109 -/
theorem idleLoop_run_ok {tries : Int} (htries : 0 ≤ tries) (n fuel : ℕ)
    (hfail : ∀ i < n, statuses (s.bus + i) ≠ .ok) (hok : statuses (s.bus + n) = .ok) :
    (idleLoop (scriptedIdle statuses) tries (n + (fuel + 1))).run s = .ok .ok
      { s with bus := s.bus + n + 1, handle := { s.handle with wakeIsExpected := false } } := by
  rw [idleLoop_run_failing hlayer tries htries n (fuel + 1) hfail]
  exact @idleLoop_run_succ_ok statuses { s with bus := s.bus + n } hlayer hok tries fuel

/-- A loop that has returned has met a success.
SOURCE: communication.c:87-109 -/
theorem okWithin_of_run {tries : Int} (htries : 0 ≤ tries) {fuel : ℕ} {status : AtshaErr}
    {s' : St ℕ} (hrun : (idleLoop (scriptedIdle statuses) tries fuel).run s = .ok status s') :
    OkWithin statuses s fuel := by
  by_contra hnone
  have hfail : ∀ i < fuel, statuses (s.bus + i) ≠ .ok := fun i hi hok => hnone ⟨i, hi, hok⟩
  have hout := idleLoop_run_failing hlayer tries htries fuel 0 hfail
  rw [Nat.add_zero, hrun] at hout
  cases hout

end Loop

/-- Over a layer with these statuses, `idle` returns after at most `maxAttempts` calls, with the
outcome that they say, exactly when one of the first `maxAttempts` calls returns OK.
SOURCE: communication.c:87-109, configuration.h:25 -/
theorem idle_bounded_iff (statuses : ℕ → AtshaErr) (s : St ℕ)
    (hlayer : s.handle.bottomLayer = .ni2c) :
    IdleBounded statuses s ↔ OkWithin statuses s maxAttempts := by
  have htries : (0 : Int) ≤ (trySendRecvOnCommError : ℕ) := Int.natCast_nonneg _
  constructor
  · rintro ⟨fuel, calls, status, s', hrun, houtcome⟩
    obtain ⟨n, hn, hfail, hok⟩ := exists_first_ok (okWithin_of_run hlayer htries hrun)
    have hfirst := idleLoop_run_ok hlayer htries n (fuel - n - 1) hfail hok
    rw [show n + (fuel - n - 1 + 1) = fuel by omega, hrun] at hfirst
    have hbus : s'.bus = s.bus + n + 1 := congrArg St.bus (EStateM.Result.ok.inj hfirst).2
    have hcounted := houtcome.counted
    have hbounded := houtcome.bounded
    exact ⟨n, by omega, hok⟩
  · intro hmet
    obtain ⟨n, hn, hfail, hok⟩ := exists_first_ok hmet
    have hwithin : OkWithin statuses s (n + 1) := ⟨n, Nat.lt_succ_self n, hok⟩
    exact ⟨_, n + 1, .ok, _, idleLoop_run_ok hlayer htries n 0 hfail hok, rfl, hn,
      iff_of_true ⟨rfl, rfl⟩ hwithin, fun h => absurd hwithin h⟩

/-- A layer whose third call is the first to succeed. -/
def thirdTimeStatuses (call : ℕ) : AtshaErr := if call = 2 then .ok else .communication

/-- A device that idles when it is told so the third time is left in time. -/
theorem idle_bounded_third : IdleBounded thirdTimeStatuses ⟨openNi2cDev, 0, []⟩ :=
  (idle_bounded_iff thirdTimeStatuses ⟨openNi2cDev, 0, []⟩ rfl).mpr ⟨2, by decide, rfl⟩

/-- Over a layer that always fails, the loop does not end. -/
theorem idle_bounded_fails : ¬ ∀ (statuses : ℕ → AtshaErr) (s : St ℕ),
    s.handle.bottomLayer = .ni2c → IdleBounded statuses s := by
  intro h
  obtain ⟨fuel, _, _, _, hrun, -⟩ := h (fun _ => .communication) ⟨openNi2cDev, 0, []⟩ rfl
  obtain ⟨_, _, hok⟩ := okWithin_of_run rfl (Int.natCast_nonneg _) hrun
  cases hok

end Atsha204.Analysis
