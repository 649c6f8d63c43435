import Atsha204.Analysis.Communication
import Atsha204.Analysis.Operations

/-!
# The frame of an operation

What `session`, `statusExchange` and `dataExchange` do, in terms of the wake, the reply to
the packet and the decoder: every public operation is one of these applied to its packet,
so these are the rules all later results go through.
-/

set_option autoImplicit false

namespace Atsha204.Analysis

open Atsha204.Library
open Atsha204.Model
open Atsha204.Interface

variable {σ α : Type} {env : Env σ}

/-- A session wakes, runs its body where that succeeds, and idles where that succeeds too.
SOURCE: api.c:321-347 -/
theorem wp_session (out : α) (body : Prog σ (AtshaErr × α)) (Q : AtshaErr × α → St σ → Prop)
    (E : St σ → Prop) (s : St σ) :
    wp (session env out body) Q E s ↔ wp (wake env) (fun status s' =>
      if status = .ok then wp body (fun r s' =>
        if r.1 = .ok then Q (.ok, r.2) (idled env s') else Q r s') E s'
      else Q (status, out) s') E s := by
  have hidle : ∀ (s : St σ) (Q : AtshaErr → St σ → Prop),
      wp (idle env) Q E s ↔ Q .ok (idled env s) := fun s Q => wp_of_run (idle_run s) Q E
  simp only [session, wp_bind]
  refine iff_of_eq (congrArg (fun Q => wp (wake env) Q E s) (funext fun status => funext fun s' => ?_))
  by_cases hstatus : status = .ok
  · simp only [hstatus, ne_eq, not_true_eq_false, if_false, if_true, wp_bind]
    refine congrArg (fun Q => wp body Q E s') (funext fun r => funext fun s'' => ?_)
    by_cases hr : r.1 = .ok
    · simp [hr, hidle]
    · simp [hr]
  · simp [hstatus]

/-- The status of an exchange: a packet that cannot be built is an access outside its data.
SOURCE: api.c:458-471 -/
theorem wp_statusExchange (send : Send σ) (packet : Option Block)
    (recv : Block → Prog σ AtshaErr) (Q : AtshaErr × Unit → St σ → Prop) (E : St σ → Prop)
    (s : St σ) :
    wp (statusExchange send packet recv) Q E s ↔ match packet with
      | none => E s
      | some packet => wp (send packet) (fun reply s' =>
          if reply.1 = .ok then match reply.2 with
            | none => E s'
            | some answer => wp (recv answer) (fun status s' => Q (status, ()) s') E s'
          else Q (reply.1, ()) s') E s := by
  cases packet with
  | none => simp [statusExchange]
  | some packet =>
    simp only [statusExchange, wp_bind, wp_access]
    refine iff_of_eq (congrArg (fun Q => wp (send packet) Q E s)
      (funext fun reply => funext fun s' => ?_))
    by_cases hreply : reply.1 = .ok
    · cases reply.2 <;> simp [hreply]
    · simp [hreply]

/-- The data of an exchange.
SOURCE: api.c:358-373 -/
theorem wp_dataExchange (send : Send σ) (packet : Option Block) (recv : DataRecv σ)
    (number : AtshaBigInt) (Q : AtshaErr × AtshaBigInt → St σ → Prop) (E : St σ → Prop)
    (s : St σ) :
    wp (dataExchange send packet recv number) Q E s ↔ match packet with
      | none => E s
      | some packet => wp (send packet) (fun reply s' =>
          if reply.1 = .ok then match reply.2 with
            | none => E s'
            | some answer => wp (recv answer number.data) (fun r s' =>
                if r.1.toNat = 0 then Q (.memoryAllocationError, ⟨r.1.toNat, r.2⟩) s'
                else Q (.ok, ⟨r.1.toNat, r.2⟩) s') E s'
          else Q (reply.1, number) s') E s := by
  cases packet with
  | none => simp [dataExchange]
  | some packet =>
    simp only [dataExchange, wp_bind, wp_access]
    refine iff_of_eq (congrArg (fun Q => wp (send packet) Q E s)
      (funext fun reply => funext fun s' => ?_))
    by_cases hreply : reply.1 = .ok
    · cases reply.2 with
      | none => simp [hreply]
      | some answer =>
        simp only [hreply, ne_eq, not_true_eq_false, if_false, if_true, wp_bind,
          wp_access]
        refine congrArg (fun Q => wp (recv answer number.data) Q E s')
          (funext fun r => funext fun s'' => ?_)
        by_cases hsize : r.1.toNat = 0 <;> simp [hsize]
    · simp [hreply]

end Atsha204.Analysis
