import Atsha204.Analysis.LockTurns
import Atsha204.Analysis.ReadingCalls
import Mathlib.Data.Nat.PSub

/-!
# The files that are left open

An opener that is done with has closed the lock file, and the device node, unless its open failed
behind `open(path)`. Its wakes open the node once more, and close it behind the wake token. So in
the program of an opener each of these files is closed again or belongs to a wake that has failed
(`Paired`), and what is left open behind the program are the files of the failed wakes
(`files_given_back`).
-/

set_option autoImplicit false

namespace Atsha204.Analysis

open Atsha204.Library
open Atsha204.Model
open Atsha204.Interface

variable {ι π α σ : Type}

/-! ## Any operation -/

section Operations

variable {env : Env σ} {I : St σ → Prop} (h : Undisturbed env.bus (fun _ => True) I)
include h

/-- What no exchange disturbs, every plain call keeps. -/
theorem plainCall_any (call : PlainCall) (number : AtshaBigInt) :
    Keeps (Native I) (call.run env number) :=
  plainCall_native h call (fun _ _ _ => trivial) (fun _ _ _ _ _ _ _ => trivial) number

/-- So do the writes. -/
theorem writeCall_any (call : WriteCall) (number : AtshaBigInt) :
    Keeps (Native I) (call.run env number) := by
  intro s hs
  have hleaving := plainCall_any h (.write call number) number s hs
  rwa [PlainCall.run, leaving, wp_bind] at hleaving

/-- What no exchange disturbs, every public operation keeps. -/
theorem publicCall_any (charSigned : Bool) (call : PublicCall) :
    Keeps (Native I) (call.run env charSigned) := by
  have hasks : Undisturbed env.bus Asks I := h.mono fun _ _ => trivial
  cases call with
  | plain call number => exact (plainCall_any h call number).bind fun _ => .pure _
  | changeAddress address =>
    have hchange : Keeps (Native I) (atshaChangeAddress env address) := by
      unfold atshaChangeAddress
      split
      · exact .pure _
      · apply (plainCall_any h (.confRead _) _).bind
        rintro ⟨status, line⟩
        dsimp only
        split
        · exact .pure _
        · exact (access_native _).bind fun _ => writeCall_any h (.conf _) _
    exact hchange.bind fun _ => .pure _
  | automatic op dns =>
    cases op with
    | slotWrite number =>
      have hwrite : Keeps (Native I) (withSlotNumber env charSigned dns ()
          fun slot => atshaRawSlotWrite env slot number) :=
        withSlotNumber_native hasks charSigned dns fun slot => writeCall_any h (.slot slot) number
      exact giving_native (fun _ => Output.nothing) hwrite
    | _ => exact publicCall_native hasks charSigned trivial
  | _ => exact publicCall_native hasks charSigned trivial

/-- So does a run of public operations. -/
theorem callAll_any (charSigned : Bool) (calls : List PublicCall) :
    Keeps (Native I) (callAll env charSigned calls) := by
  induction calls with
  | nil => exact .pure _
  | cons call calls ih =>
    exact (publicCall_any h charSigned call).bind fun _ => ih.bind fun _ => .pure _

end Operations

/-! ## The files of the wakes -/

/-- A program that closes all the files of its wakes that do not fail: `n` of them are open, with
calls to come that close each of them or lose it. -/
def Paired : ℕ → BusProgram α → Prop
  | n, .done _ => n = 0
  | n, .call .openPath k => Paired n (k false) ∧ Paired (n + 1) (k true)
  | n, .call .bindGeneralCall k => Paired n (k true) ∧ ∃ m, n = m + 1 ∧ Paired m (k false)
  | n, .call .writeWake k => ∃ m, n = m + 1 ∧ Paired m (k ())
  | n, .call (.write _) k => ∀ written, Paired n (k written)
  | n, .call .read k => ∀ frame, Paired n (k frame)

/-- A bus that answers from a tape, and counts the files of the wakes, where they are neither
closed nor lost before they are open. -/
def tapeBus : I2cBus (List (Bool × Option Frame) × Option ℕ) where
  openPath := fun b => ((b.1.headD (false, none)).1,
    (b.1.tail, if (b.1.headD (false, none)).1 then b.2.map Nat.succ else b.2))
  bindGeneralCall := fun b => ((b.1.headD (false, none)).1,
    (b.1.tail, if (b.1.headD (false, none)).1 then b.2 else b.2.bind Nat.ppred))
  writeWake := fun b => (b.1, b.2.bind Nat.ppred)
  write := fun _ b => ((b.1.headD (false, none)).1, (b.1.tail, b.2))
  read := fun b => ((b.1.headD (false, none)).2, (b.1.tail, b.2))

/-- What is wrong stays wrong. -/
theorem tape_none (t : BusProgram α) (tape : List (Bool × Option Frame)) :
    (t.run (busAnswer tapeBus) (tape, none)).2.2 = none := by
  induction t generalizing tape with
  | done a => rfl
  | call c k ih =>
    rw [Interaction.run_call]
    cases c with
    | openPath | bindGeneralCall =>
      dsimp only [busAnswer, tapeBus]
      cases (tape.headD (false, none)).1 <;> exact ih _ _
    | writeWake | write bytes | read => exact ih _ _

/-- A program that comes out even on every tape is paired. -/
theorem paired_of_tapes {t : BusProgram α} {n : ℕ}
    (h : ∀ tape, (t.run (busAnswer tapeBus) (tape, some n)).2.2 = some 0) : Paired n t := by
  induction t generalizing n with
  | done a => exact Option.some.inj (h [])
  | call c k ih =>
    have hcloses : ∀ {r : BusAnswer c}, (∀ tape,
        ((k r).run (busAnswer tapeBus) (tape, (some n).bind Nat.ppred)).2.2 = some 0) →
        ∃ m, n = m + 1 ∧ Paired m (k r) := by
      intro r hr
      cases n with
      | zero => exact absurd ((tape_none (k r) []).symm.trans (hr [])) nofun
      | succ m => exact ⟨m, rfl, ih r hr⟩
    cases c with
    | openPath =>
      exact ⟨ih false fun tape => h ((false, none) :: tape),
        ih true fun tape => h ((true, none) :: tape)⟩
    | bindGeneralCall =>
      exact ⟨ih true fun tape => h ((true, none) :: tape),
        hcloses fun tape => h ((false, none) :: tape)⟩
    | writeWake => exact hcloses h
    | write bytes => exact fun written => ih written fun tape => h ((written, none) :: tape)
    | read => exact fun frame => ih frame fun tape => h ((false, frame) :: tape)

/-- No exchange leaves a file open that is not lost. -/
theorem undisturbed_tape (n : ℕ) : Undisturbed tapeBus (fun _ => True)
    fun s : St (List (Bool × Option Frame) × Option ℕ) => s.bus.2 = some n := by
  refine @undisturbed_of_bus _ tapeBus (fun _ => True) (fun b => b.2 = some n) ?_ ?_ ?_
  · rintro ⟨tape, _⟩ rfl
    simp only [wakeExchange, tapeBus]
    by_cases hopened : (tape.headD (false, none)).1 = true
    · by_cases hbound : (tape.tail.headD (false, none)).1 = true
      · simp only [hopened, hbound, if_true]
        rfl
      · simp only [hopened, hbound, if_true, Bool.false_eq_true, if_false]
        rfl
    · simp only [hopened, Bool.false_eq_true, if_false]
  · rintro packet ⟨tape, _⟩ - rfl
    unfold commandExchange
    dsimp only
    split <;> rfl
  · rintro ⟨tape, _⟩ rfl
    rfl

/-- The programs of the library are paired.
SOURCE: layer_ni2c.c:60-87 -/
theorem paired_of_performs {openssl : OpenSsl} {uninit : Uninit} {charSigned : Bool}
    {t : BusProgram (List (AtshaErr × Output))} {calls : List PublicCall}
    (h : Performs openssl uninit charSigned t calls) : Paired 0 t := by
  refine paired_of_tapes fun tape => ?_
  have hkeeps := @callAll_any _ (envOn openssl uninit tapeBus) _ (undisturbed_tape 0) charSigned
    calls
  have hlast := (hkeeps.lastState (s := ⟨openNi2cDev, (tape, some 0), []⟩) ⟨rfl, rfl⟩).kept
  rw [h _ tapeBus (tape, some 0), aloneOn]
  cases hrun : (callAll (envOn openssl uninit tapeBus) charSigned calls).run
      ⟨openNi2cDev, (tape, some 0), []⟩ with
  | ok results s' =>
    rw [hrun] at hlast
    exact hlast
  | error e s' =>
    rw [hrun] at hlast
    exact hlast

section Openers

variable [DecidableEq ι] [DecidableEq π] {process : ι → π} {bus : I2cBus σ}
  {program : ι → BusProgram α} {alarm₀ : π → Option ℕ} {action₀ : π → SigAction} {b₀ : σ}
  {u u' : Users ι π α σ} {i : ι}

/-! ## The files of an opener -/

/-- The opener has the lock file open. -/
def keepsLockFile : Place α → Bool
  | .start | .closed _ | .refused _ | .killed => false
  | _ => true

/-- The opener has the device node open, or has left it open. -/
def keepsNode : Place α → Bool
  | .opened | .bound | .allocated | .alarmed .. | .running .. => true
  | .failing why | .refused why => leavesNode why
  | _ => false

/-- The open files of an opener are those that it has at the place where it is. -/
def Files (u : Users ι π α σ) (i : ι) : Prop :=
  u.lockFd i = keepsLockFile (u.place i) ∧ u.nodeFd i = keepsNode (u.place i)

omit [DecidableEq ι] [DecidableEq π] in
/-- What leaves an opener and its files alone keeps them. -/
theorem Files.congr {u u' : Users ι π α σ} (h : Files u i) (hplace : u'.place i = u.place i)
    (hfiles : u'.lockFd i = u.lockFd i ∧ u'.nodeFd i = u.nodeFd i) : Files u' i := by
  unfold Files
  rw [hplace, hfiles.1, hfiles.2]
  exact h

/-- Each place behind a call that opens or closes a file is one of those with it open or
closed. -/
theorem Files.openStep (h : Files u i) (hstep : OpenStep process program u i u') : Files u' i := by
  cases hstep <;> simp_all [Files, Users.goto, Users.setLockFd, Users.setNodeFd, Users.setAlarm,
    Users.setAction, closeLockFd_eq, keepsLockFile, keepsNode, leavesNode]

/-- A step of a close keeps the files as they should be. -/
theorem Files.closeStep (h : Files u i) (hstep : CloseStep process u i u') : Files u' i := by
  cases hstep <;> simp_all [Files, Users.goto, Users.setNodeFd, Users.setAlarm, Users.setAction,
    release_eq, closeLockFd_eq, keepsLockFile, keepsNode]

omit [DecidableEq ι] in
/-- So does a death. -/
theorem Files.die (h : Files u i) (p : π) : Files (u.die process p) i := by
  obtain ⟨hlock, hnode⟩ := h
  by_cases hp : process i = p
  · have hplace : (u.die process p).place i = (u.place i).behindDeath := by simp [Users.die, hp]
    unfold Files
    rw [hplace]
    cases u.place i <;> simp [Users.die, hp, Place.behindDeath, keepsLockFile, keepsNode]
  · simp [Files, Users.die, hp, hlock, hnode]

/-- So does every step of the system. -/
theorem Files.step (h : ∀ i, Files u i) (hstep : UsersStep process bus program u u') (j : ι) :
    Files u' j := by
  have hmove : ∀ {i}, Moves process u u' i → Files u' i → Files u' j := by
    intro i hmove hi
    by_cases hj : j = i
    · exact hj ▸ hi
    · exact (h j).congr (hmove.place_of_ne hj) (hmove.files j hj)
  cases hstep with
  | opening hopen => exact hmove (openStep_moves hopen) ((h _).openStep hopen)
  | @calling i saved c k hplace =>
    refine hmove (callStep_moves process bus hplace _) ?_
    obtain ⟨hlock, hnode⟩ := h i
    rw [hplace] at hlock hnode
    exact ⟨by rw [place_goto_self]; exact hlock, by rw [place_goto_self]; exact hnode⟩
  | closing hclose => exact hmove (closeStep_moves hclose) ((h _).closeStep hclose)
  | tick htick => exact h j
  | handled halarm hdue haction => exact h j
  | die p => exact (h j).die p

/-- In every run the files are as they should be. -/
theorem files_of_reaches (h : Reaches process bus program (.initial alarm₀ action₀ b₀) u) (i : ι) :
    Files u i := by
  induction h generalizing i with
  | refl => exact ⟨rfl, rfl⟩
  | tail _ hstep ih => exact Files.step ih hstep i

/-- The files that the wakes of an opener have left open: while its program runs those of the wakes
that have failed and, at times, one more; behind it just those. -/
def WakeFiles (u : Users ι π α σ) (i : ι) : Prop :=
  match u.place i with
  | .running _ left => ∃ n, Paired n left ∧ u.wakeFds i = u.wakesLost i + n
  | .fdClosed .. | .unlocked .. | .sigRestored .. | .alarmRestored _ | .closed _ =>
    u.wakeFds i = u.wakesLost i
  | _ => u.wakeFds i = 0 ∧ u.wakesLost i = 0

/-- What a call of a paired program opens, closes or loses. -/
theorem Paired.call {c : BusCall} {k : BusAnswer c → BusProgram α} {n fds lost : ℕ}
    (h : Paired n (.call c k)) (hfds : fds = lost + n) (answer : BusAnswer c) :
    ∃ m, Paired m (k answer) ∧
      wakeFdsBehind fds c answer = wakesLostBehind lost c answer + m := by
  subst hfds
  cases c with
  | openPath =>
    cases answer with
    | false => exact ⟨n, h.1, rfl⟩
    | true => exact ⟨n + 1, h.2, rfl⟩
  | bindGeneralCall =>
    cases answer with
    | true => exact ⟨n, h.1, rfl⟩
    | false =>
      obtain ⟨-, m, rfl, hm⟩ := h
      exact ⟨m, hm, by simp only [wakeFdsBehind, wakesLostBehind]; omega⟩
  | writeWake =>
    obtain ⟨m, rfl, hm⟩ := h
    exact ⟨m, hm, rfl⟩
  | write bytes => exact ⟨n, h answer, rfl⟩
  | read => exact ⟨n, h answer, rfl⟩

section Steps

variable (hpaired : ∀ i, Paired 0 (program i))
include hpaired

/-- A step of an open leaves the files of the wakes alone. -/
theorem WakeFiles.openStep (h : WakeFiles u i) (hstep : OpenStep process program u i u') :
    WakeFiles u' i := by
  cases hstep with
  | setAction hplace =>
    simp only [WakeFiles, hplace] at h
    simp only [WakeFiles, place_goto_self]
    exact ⟨0, hpaired i, h.1.trans h.2.symm⟩
  | _ => simp_all [WakeFiles, Users.goto, Users.setLockFd, Users.setNodeFd, Users.setAlarm,
      closeLockFd_eq]

omit hpaired in
/-- So does a step of a close. -/
theorem WakeFiles.closeStep (h : WakeFiles u i) (hstep : CloseStep process u i u') :
    WakeFiles u' i := by
  cases hstep with
  | device hplace =>
    simp only [WakeFiles, hplace] at h
    simp only [WakeFiles, place_goto_self]
    obtain ⟨n, hn, hfds⟩ := h
    obtain rfl : n = 0 := hn
    exact hfds
  | _ => simp_all [WakeFiles, Users.goto, Users.setAlarm, Users.setAction, release_eq,
      closeLockFd_eq]

omit [DecidableEq π] hpaired in
/-- A call on the bus opens one of them, closes it or loses it, as the rest of the program
expects. -/
theorem WakeFiles.callStep (bus : I2cBus σ) (h : WakeFiles u i) {saved : Saved} {c : BusCall}
    {k : BusAnswer c → BusProgram α} (hplace : u.place i = .running saved (.call c k)) :
    WakeFiles ((u.callBus bus i c).goto i (.running saved (k (busAnswer bus c u.bus).1))) i := by
  simp only [WakeFiles, hplace] at h
  obtain ⟨n, hn, hfds⟩ := h
  obtain ⟨m, hm, hbehind⟩ := hn.call hfds (busAnswer bus c u.bus).1
  simp only [WakeFiles, place_goto_self]
  refine ⟨m, hm, ?_⟩
  simpa only [Users.goto, Users.callBus, Function.update_self] using hbehind

omit [DecidableEq ι] hpaired in
/-- With the process its files are closed. -/
theorem WakeFiles.die (h : WakeFiles u i) (p : π) : WakeFiles (u.die process p) i := by
  by_cases hp : process i = p
  · have hplace : (u.die process p).place i = (u.place i).behindDeath := if_pos hp
    have hnone : (u.die process p).wakeFds i = 0 ∧ (u.die process p).wakesLost i = 0 :=
      ⟨if_pos hp, if_pos hp⟩
    unfold WakeFiles
    rw [hplace, hnone.1, hnone.2]
    cases u.place i <;> simp [Place.behindDeath]
  · have hplace : (u.die process p).place i = u.place i := if_neg hp
    have hkept : (u.die process p).wakeFds i = u.wakeFds i ∧
        (u.die process p).wakesLost i = u.wakesLost i := ⟨if_neg hp, if_neg hp⟩
    unfold WakeFiles
    rw [hplace, hkept.1, hkept.2]
    exact h

/-- Every step of the system keeps the files of the wakes as they should be. -/
theorem WakeFiles.step (h : ∀ i, WakeFiles u i) (hstep : UsersStep process bus program u u')
    (j : ι) : WakeFiles u' j := by
  have hmove : ∀ {i}, Moves process u u' i → WakeFiles u' i → WakeFiles u' j := by
    intro i hmove hi
    by_cases hj : j = i
    · exact hj ▸ hi
    · have hkept := h j
      unfold WakeFiles at hkept ⊢
      rw [hmove.place_of_ne hj, (hmove.wakes j hj).1, (hmove.wakes j hj).2]
      exact hkept
  cases hstep with
  | opening hopen => exact hmove (openStep_moves hopen) ((h _).openStep hpaired hopen)
  | calling hplace => exact hmove (callStep_moves process bus hplace _) ((h _).callStep bus hplace)
  | closing hclose => exact hmove (closeStep_moves hclose) ((h _).closeStep hclose)
  | tick htick => exact h j
  | handled halarm hdue haction => exact h j
  | die p => exact (h j).die p

/-- In every run they are as they should be. -/
theorem wakeFiles_of_reaches
    (h : Reaches process bus program (.initial alarm₀ action₀ b₀) u) (i : ι) : WakeFiles u i := by
  induction h generalizing i with
  | refl => exact ⟨rfl, rfl⟩
  | tail _ hstep ih => exact WakeFiles.step hpaired ih hstep i

end Steps

end Openers

/-! ## What is given back -/

section GivenBack

variable [DecidableEq ι] [DecidableEq π] {process : ι → π} {alarm₀ : π → Option ℕ}
  {action₀ : π → SigAction} {b₀ : σ} {i : ι}

/-- An opener for whom nothing is left to be done has the lock file closed, and the device node
too, unless its open failed behind `open(path)`: then the node is left open. Of the files that its
wakes have opened, those of the wakes that have failed behind their own `open(path)` are left open,
one for each, until the process dies, and no others.
SOURCE: api.c:158-186, api.c:293-314, layer_ni2c.c:60-87 -/
theorem files_given_back {openssl : OpenSsl} {uninit : Uninit} {charSigned : Bool} {bus : I2cBus σ}
    {program : ι → BusProgram (List (AtshaErr × Output))}
    {u : Users ι π (List (AtshaErr × Output)) σ}
    (hprogram : ∀ i, ∃ calls, Performs openssl uninit charSigned (program i) calls)
    (h : Reaches process bus program (.initial alarm₀ action₀ b₀) u)
    (hi : settled (u.place i) = true) :
    u.lockFd i = false ∧
      (u.nodeFd i = true ↔ u.place i = .refused .address ∨ u.place i = .refused .memory) ∧
      u.wakeFds i = u.wakesLost i ∧
      ((∀ results, u.place i ≠ .closed results) → u.wakeFds i = 0) := by
  have hpaired : ∀ i, Paired 0 (program i) := fun i => paired_of_performs (hprogram i).choose_spec
  obtain ⟨hlock, hnode⟩ := files_of_reaches h i
  have hwakes := wakeFiles_of_reaches hpaired h i
  rw [hlock, hnode]
  unfold WakeFiles at hwakes
  cases hplace : u.place i with
  | closed results =>
    rw [hplace] at hwakes
    exact ⟨rfl, by simp [keepsNode], hwakes, fun hno => absurd rfl (hno results)⟩
  | refused why =>
    rw [hplace] at hwakes
    refine ⟨rfl, ?_, hwakes.1.trans hwakes.2.symm, fun _ => hwakes.1⟩
    cases why <;> simp [keepsNode, leavesNode]
  | killed =>
    rw [hplace] at hwakes
    exact ⟨rfl, by simp [keepsNode], hwakes.1.trans hwakes.2.symm, fun _ => hwakes.1⟩
  | _ =>
    rw [hplace] at hi
    cases hi

/-- An opener with a handle can make all its calls on a bus whose state tells the wakes that have
failed. -/
theorem reaches_done_counting (process : ι → π) (bus : I2cBus σ) (program : ι → BusProgram α)
    (lost : σ → ℕ) (hlost : ∀ c b, lost (busAnswer bus c b).2 =
      wakesLostBehind (lost b) c (busAnswer bus c b).1)
    {u : Users ι π α σ} {saved : Saved} {t : BusProgram α}
    (hplace : u.place i = .running saved t) (hi : u.wakesLost i = lost u.bus) :
    ∃ u', Reaches process bus program u u' ∧
      u'.place i = .running saved (.done (t.run (busAnswer bus) u.bus).1) ∧
      u'.wakesLost i = lost (t.run (busAnswer bus) u.bus).2 := by
  induction t generalizing u with
  | done a => exact ⟨u, .refl, hplace, hi⟩
  | call c k ih =>
    have hbehind : (u.callBus bus i c).wakesLost i = lost (busAnswer bus c u.bus).2 := by
      rw [hlost, ← hi]
      exact Function.update_self _ _ _
    obtain ⟨u', hrun, hdone, hcount⟩ := ih (busAnswer bus c u.bus).1
      (u := (u.callBus bus i c).goto i _) (place_goto_self _) hbehind
    exact ⟨u', .head (.calling hplace) hrun, hdone, hcount⟩

/-- A bus on which nobody answers, and two wakes find no address; it counts them. -/
def halfBoundBus : I2cBus ℕ where
  openPath lost := (true, lost)
  bindGeneralCall lost := if lost < 2 then (false, lost + 1) else (true, lost)
  writeWake lost := lost
  write _ lost := (true, lost)
  read lost := (none, lost)

/-- Asked for its revision there, a device gives none, and two wakes have failed. -/
theorem aloneOn_halfBoundBus : ∃ results handle,
    aloneOn replayEnv.openssl replayEnv.uninit true halfBoundBus [.devRev 0] 0 =
      ((.ok results, handle), 2) := by
  have hok : (aloneOn replayEnv.openssl replayEnv.uninit true halfBoundBus
      [.devRev 0] 0).1.1.isOk = true := by decide +kernel
  have hlost : (aloneOn replayEnv.openssl replayEnv.uninit true halfBoundBus
      [.devRev 0] 0).2 = 2 := by decide +kernel
  generalize aloneOn replayEnv.openssl replayEnv.uninit true halfBoundBus [.devRev 0] 0 = ended
    at hok hlost ⊢
  obtain ⟨⟨result, handle⟩, lost⟩ := ended
  obtain rfl : lost = 2 := hlost
  cases result with
  | ok results => exact ⟨results, handle, rfl⟩
  | error e => cases hok

/-- Two of the wakes of an opener fail behind `open(path)`, the others behind the wake token. -/
theorem files_given_back_half_bound :
    ∃ (u : Users Unit Unit (List (AtshaErr × Output)) ℕ) (results : _),
      u.place () = .closed results ∧ u.lockFd () = false ∧ u.nodeFd () = false ∧
      u.wakesLost () = 2 ∧ u.wakeFds () = 2 := by
  obtain ⟨t, ht⟩ := performs_callAll replayEnv.openssl replayEnv.uninit true [.devRev 0]
  obtain ⟨results, handle, halone⟩ := aloneOn_halfBoundBus
  have hresult := (ht ℕ halfBoundBus 0).trans halone
  have hcounts : ∀ c b, (busAnswer halfBoundBus c b).2 =
      wakesLostBehind b c (busAnswer halfBoundBus c b).1 := by
    intro c b
    cases c with
    | bindGeneralCall =>
      dsimp only [busAnswer, halfBoundBus]
      split <;> rfl
    | openPath | writeWake | write | read => rfl
  obtain ⟨u₁, saved, hrun₁, hplace₁, hbus₁, -, hlost₁⟩ := reaches_running id halfBoundBus
    (fun _ => t) (u := .initial (fun _ => none) (fun _ => .dfl) 0) (i := ()) rfl rfl
  obtain ⟨u₂, hrun₂, hplace₂, hlost₂⟩ := reaches_done_counting id halfBoundBus (fun _ => t)
    (fun b => b) hcounts hplace₁ ((congrFun hlost₁ ()).trans hbus₁.symm)
  have hbus : u₁.bus = 0 := hbus₁
  rw [hbus, hresult] at hplace₂ hlost₂
  obtain ⟨u₃, hrun₃, hplace₃, -, -, hlost₃⟩ := reaches_closed id halfBoundBus (fun _ => t) hplace₂
  have hlost : u₃.wakesLost () = 2 := (congrFun hlost₃ ()).trans hlost₂
  obtain ⟨hlock, hnode, hwakes, -⟩ := files_given_back (fun _ => ⟨_, ht⟩)
    ((hrun₁.trans hrun₂).trans hrun₃) (i := ()) (by rw [hplace₃]; rfl)
  refine ⟨u₃, results, hplace₃, hlock, ?_, hlost, hwakes.trans hlost⟩
  rw [← Bool.not_eq_true, hnode, hplace₃]
  rintro (h | h) <;> cases h

end GivenBack

end Atsha204.Analysis
