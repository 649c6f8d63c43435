import Atsha204.Analysis.HonestSessions
import Atsha204.Analysis.MacList
import Atsha204.Analysis.ReadingCalls
import Atsha204.Interface.Dumps

/-!
# What a dump shows

Whatever the link loses on the way, a dump shows nothing but the zone of the chip, all of it where
it ends with zero (`dump_shows_zone`). The slots of a chip that is locked are never shown like this;
over a link that can be relied on the other zones always are (`dump_succeeds_iff`).
-/

set_option autoImplicit false

namespace Atsha204.Analysis

open Atsha204.Library
open Atsha204.Model
open Atsha204.Interface

variable {σ : Type} {env : Env σ} {openssl : OpenSsl} {device : σ → Device} {chip chip' : Chip}

/-! ## Words -/

section Words

variable (zone : ZoneDump) (chip : Chip)

/-- The zone is as long as its words. -/
theorem dump_bytes_length : (zone.bytes chip).length = zone.size * zone.count := by
  cases zone with
  | config => exact length_config chip
  | otp => exact chip.otp.property
  | data => exact chip.data.property

/-- Each word is as long as the others. -/
theorem dump_word_length {n : ℕ} (h : n < zone.count) :
    (zone.word chip n).length = zone.size := by
  have hlen := dump_bytes_length zone chip
  have hbehind : zone.size * n + zone.size ≤ zone.size * zone.count := by
    rw [← Nat.mul_succ]
    exact Nat.mul_le_mul_left _ h
  rw [ZoneDump.word, List.length_take, List.length_drop]
  omega

/-- Words of one size, one after the other. -/
theorem flatMap_words (bytes : Block) (size count : ℕ) :
    ((List.range count).flatMap fun n => (bytes.drop (size * n)).take size) =
      bytes.take (size * count) := by
  induction count with
  | zero => simp
  | succ count ih => rw [List.range_succ, List.flatMap_append, ih, Nat.mul_succ, List.take_add,
      List.flatMap_singleton]

/-- The words one after the other are the zone. -/
theorem dump_words_bytes : (List.range zone.count).flatMap (zone.word chip) = zone.bytes chip := by
  have hwords := flatMap_words (zone.bytes chip) zone.size zone.count
  rwa [← dump_bytes_length zone chip, List.take_length] at hwords

end Words

/-! ## Texts -/

/-- The first byte is shown first. -/
theorem spacedPairs_cons (b : UInt8) (bytes : Block) :
    spacedPairs (b :: bytes) = pairText b ++ [0x20] ++ spacedPairs bytes := rfl

/-- Bytes that are shown alike are the same. -/
theorem spacedPairs_inj {bytes bytes' : Block} (hlen : bytes.length = bytes'.length)
    (h : spacedPairs bytes = spacedPairs bytes') : bytes = bytes' := by
  induction bytes generalizing bytes' with
  | nil => exact (List.length_eq_zero_iff.mp hlen.symm).symm
  | cons b bytes ih =>
    cases bytes' with
    | nil => cases hlen
    | cons c bytes' =>
      rw [spacedPairs_cons, spacedPairs_cons] at h
      obtain ⟨hpair, hrest⟩ := List.append_inj h rfl
      rw [pairText_inj (List.append_cancel_right hpair), ih (Nat.succ.inj hlen) hrest]

/-- Each byte is shown with three characters. -/
theorem spacedPairs_length (bytes : Block) : (spacedPairs bytes).length = 3 * bytes.length := by
  induction bytes with
  | nil => rfl
  | cons b bytes ih =>
    rw [spacedPairs_cons, List.length_append, ih, List.length_cons]
    change 3 + _ = _
    omega

/-- The words can be told from their lines. -/
theorem words_of_lines {label : ℕ → List UInt8} {word word' : ℕ → Block} {addrs : List ℕ}
    (hlen : ∀ n ∈ addrs, (word n).length = (word' n).length)
    (h : (addrs.flatMap fun n => label n ++ spacedPairs (word n) ++ [0x0A]) =
      addrs.flatMap fun n => label n ++ spacedPairs (word' n) ++ [0x0A]) :
    ∀ n ∈ addrs, word n = word' n := by
  induction addrs with
  | nil => simp
  | cons n addrs ih =>
    obtain ⟨hfirst, hrest⟩ := List.forall_mem_cons.mp hlen
    rw [List.flatMap_cons, List.flatMap_cons] at h
    obtain ⟨hline, hlines⟩ := List.append_inj h (by simp [spacedPairs_length, hfirst])
    have hpairs := List.append_cancel_left (List.append_cancel_right hline)
    exact List.forall_mem_cons.mpr ⟨spacedPairs_inj hfirst hpairs, ih hrest hlines⟩

/-- A zone can be told from what is shown of it. -/
theorem dump_text_inj {zone : ZoneDump} (h : zone.text chip = zone.text chip') :
    zone.bytes chip = zone.bytes chip' := by
  have hlen : ∀ n ∈ List.range zone.count,
      (zone.word chip n).length = (zone.word chip' n).length := by
    intro n hn
    have hlt := List.mem_range.mp hn
    rw [dump_word_length zone chip hlt, dump_word_length zone chip' hlt]
  have hwords := words_of_lines hlen
    (List.append_cancel_left (List.append_cancel_right h))
  rw [← dump_words_bytes, ← dump_words_bytes]
  exact List.flatMap_congr hwords

/-! ## The device -/

/-- The inquiry for a word. -/
def dumpInquiry (zone : ZoneDump) (n : ℕ) : Inquiry :=
  match zone with
  | .config => .configWord (UInt8.ofNat n)
  | .otp => .otpWord (UInt8.ofNat n)
  | .data => .slot (slotOf n)

/-- No zone has more words than the configuration zone. -/
theorem count_le (zone : ZoneDump) : zone.count ≤ 22 := by cases zone <;> decide

/-- The number of a word fits a byte. -/
theorem dump_number {zone : ZoneDump} {n : ℕ} (h : n < zone.count) : (UInt8.ofNat n).toNat = n :=
  ofNat_toNat_of_lt (by have := count_le zone; omega)

/-- The number of a slot stands for it. -/
theorem slot_of_lt {n : ℕ} (h : n < 16) : (slotOf n : ℕ) = n :=
  Nat.mod_eq_of_lt h

/-- The read of a word is an inquiry. -/
theorem dump_call_packet (zone : ZoneDump) {n : ℕ} (h : n < zone.count) :
    (zone.call (UInt8.ofNat n)).packet = some (dumpInquiry zone n).packet := by
  cases zone with
  | config | otp => exact opRawRead_eq _ _
  | data =>
    have hslot := slotRead_packet (slotOf n)
    rwa [slot_of_lt h] at hslot

/-- No read of a word of the zone is refused. -/
theorem dump_call_refused (zone : ZoneDump) {n : ℕ} (h : n < zone.count) :
    ¬ (zone.call (UInt8.ofNat n)).Refused := by
  cases zone with
  | config | otp => exact id
  | data => exact UInt8.not_lt.mpr (slot_le ⟨n, h⟩)

/-- The chip gives the word out. -/
def WordTold (openssl : OpenSsl) (zone : ZoneDump) (chip : Chip) (n : ℕ) : Prop :=
  ∀ d : Device, d.chip = chip →
    d.reaction openssl (dumpInquiry zone n) = .answers (zone.word chip n)

/-- A word of a settled zone is given out, or refused. -/
theorem word_settled (openssl : OpenSsl) {zone : ZoneDump} (h : zone.Settled chip) {n : ℕ}
    (hn : n < zone.count) : WordTold openssl zone chip n ∨
      ∀ d : Device, d.chip = chip → d.reaction openssl (dumpInquiry zone n) = .refuses := by
  have hnumber := dump_number hn
  cases zone with
  | config =>
    refine .inl ?_
    rintro d rfl
    have hreaction := @reaction_configWord openssl d (UInt8.ofNat n) (by rw [hnumber]; exact hn)
    rwa [hnumber] at hreaction
  | otp =>
    by_cases hlocked : chip.dataLocked = true
    · rcases h with hopen | hmode | hmode
      · exact absurd hlocked (by rw [hopen]; decide)
      · refine .inl ?_
        rintro d rfl
        have hreaction := @reaction_otpWord openssl d hlocked hmode (UInt8.ofNat n)
          (by rw [hnumber]; exact hn)
        rwa [hnumber] at hreaction
      · by_cases hlow : UInt8.ofNat n ≥ 2
        · refine .inl ?_
          rintro d rfl
          have hreaction := @reaction_otpWord_legacy openssl d hlocked hmode (UInt8.ofNat n)
            (by rw [hnumber]; exact hn)
          rw [if_pos hlow, hnumber] at hreaction
          exact hreaction
        · refine .inr ?_
          rintro d rfl
          have hreaction := @reaction_otpWord_legacy openssl d hlocked hmode (UInt8.ofNat n)
            (by rw [hnumber]; exact hn)
          rwa [if_neg hlow] at hreaction
    · refine .inr ?_
      rintro d rfl
      exact reaction_otpWord_unlocked (by simpa using hlocked)
  | data =>
    by_cases hlocked : chip.dataLocked = true
    · have hplain := h.resolve_left (by rw [hlocked]; decide) (slotOf n)
      by_cases hopen : chip.slotConfig (slotOf n) &&& 0x80 = 0
      · refine .inl ?_
        rintro d rfl
        have hreaction := @reaction_slot_plain openssl d hlocked (slotOf n) hplain
        rw [if_pos hopen, slot_of_lt hn] at hreaction
        exact hreaction
      · refine .inr ?_
        rintro d rfl
        have hreaction := @reaction_slot_plain openssl d hlocked (slotOf n) hplain
        rwa [if_neg hopen] at hreaction
    · refine .inr ?_
      rintro d rfl
      exact reaction_slot_unlocked (by simpa using hlocked)

/-- There is a device with this chip. -/
theorem exists_device (chip : Chip) : ∃ d : Device, d.chip = chip := ⟨⟨chip, none, 0⟩, rfl⟩

/-- A zone is readable where all its words are given out. -/
theorem readable_iff_words (openssl : OpenSsl) {zone : ZoneDump} (h : zone.Settled chip) :
    zone.Readable chip ↔ ∀ n < zone.count, WordTold openssl zone chip n := by
  obtain ⟨d, hd⟩ := exists_device chip
  subst hd
  have hrefused : ∀ {n : ℕ}, WordTold openssl zone d.chip n →
      d.reaction openssl (dumpInquiry zone n) ≠ .refuses := by
    intro n htold hrefuses
    rw [htold d rfl] at hrefuses
    cases hrefuses
  constructor
  · intro hreadable n hn
    refine (word_settled openssl h hn).resolve_right fun hrefuses => ?_
    have hreaction := hrefuses d rfl
    have hnumber := dump_number hn
    cases zone with
    | config =>
      rw [dumpInquiry, reaction_configWord (by rw [hnumber]; exact hn)] at hreaction
      cases hreaction
    | otp =>
      rw [dumpInquiry, reaction_otpWord hreadable.1 hreadable.2 (by rw [hnumber]; exact hn)]
        at hreaction
      cases hreaction
    | data =>
      rw [dumpInquiry, reaction_slot hreadable.1 (hreadable.2 _)] at hreaction
      cases hreaction
  · intro htold
    cases zone with
    | config => trivial
    | otp =>
      have hfirst := hrefused (htold 0 (by decide))
      have hlocked : d.chip.dataLocked = true := by
        by_contra hopen
        exact hfirst (reaction_otpWord_unlocked (by simpa using hopen))
      refine ⟨hlocked, ?_⟩
      rcases h with hopen | hmode | hmode
      · rw [hlocked] at hopen
        cases hopen
      · exact hmode
      · refine absurd ?_ hfirst
        exact (reaction_otpWord_legacy hlocked hmode (by decide)).trans (if_neg (by decide))
    | data =>
      have hlocked : d.chip.dataLocked = true := by
        by_contra hopen
        exact hrefused (htold 0 (by decide)) (reaction_slot_unlocked (by simpa using hopen))
      refine ⟨hlocked, fun slot => ?_⟩
      have hplain := h.resolve_left (by rw [hlocked]; decide) slot
      have hfirst := hrefused (htold slot slot.isLt)
      rw [dumpInquiry, slotOf_slot, reaction_slot_plain hlocked hplain] at hfirst
      have hopen : d.chip.slotConfig slot &&& 0x80 = 0 := by
        by_contra hsecret
        exact hfirst (if_neg hsecret)
      exact clear_of_bits hplain hopen

/-! ## Reads -/

section Read

variable {zone : ZoneDump} {n : ℕ} (hn : n < zone.count) {waited : ℕ} {s s' : St σ}
include hn

/-- A word that is read is the one of the chip, which gives it out. -/
theorem dumpRead_honest (hhonest : Honest openssl env.bus device) (hsettled : zone.Settled chip)
    (hs : Resting device chip s) {number r : AtshaBigInt}
    (hrun : ((zone.call (UInt8.ofNat n)).run env number).run s = .ok (.ok, r) s') :
    WordTold openssl zone chip n ∧ Holds r (zone.word chip n) ∧ Resting device chip s' := by
  have hread := fun {reaction : Reaction} (hreaction : ∀ d : Device, d.chip = chip →
      d.reaction openssl (dumpInquiry zone n) = reaction) =>
    call_honest hhonest hs (zone.call (UInt8.ofNat n)) (dumpInquiry zone n)
      (dump_call_refused zone hn) (by cases zone <;> exact fun _ => id) (dump_call_packet zone hn)
      (by cases zone <;> rfl : (zone.call (UInt8.ofNat n)).asked = some zone.size) hreaction hrun
  rcases word_settled openssl hsettled hn with htold | hrefuses
  · obtain ⟨-, hholds, hrest⟩ := hread htold
    exact ⟨htold, hholds _ rfl, hrest (by simp)⟩
  · exact absurd rfl (hread hrefuses).1

/-- Over a link that can be relied on every word that the chip gives out is read. -/
theorem dumpRead_reliable (hreliable : Reliable openssl env.bus device)
    (htold : WordTold openssl zone chip n) (hs : Relying device chip waited s)
    (number : AtshaBigInt) :
    ∃ r s', ((zone.call (UInt8.ofNat n)).run env number).run s = .ok (.ok, r) s' ∧
      Holds r (zone.word chip n) ∧ Relying device chip (waited + 2) s' := by
  have hlen : 2 ≤ (zone.word chip n).length ∧ (zone.word chip n).length ≤ 32 := by
    rw [dump_word_length zone chip hn]
    cases zone <;> decide
  have hbody : ∃ asked, plainBody env number (zone.call (UInt8.ofNat n)) =
      exchange (send env) (zone.call (UInt8.ofNat n)).packet number
        (decode (some asked) number) := by
    cases zone <;> exact ⟨_, rfl⟩
  obtain ⟨asked, hbody⟩ := hbody
  exact read_reliable hreliable hs _ _ (dump_call_refused zone hn) hbody (dump_call_packet zone hn)
    htold hlen

end Read

/-! ## Zones -/

/-- The lines of some words. -/
def dumpLines (label : ℕ → List UInt8) (word : ℕ → Block) (addrs : List ℕ) : List UInt8 :=
  addrs.flatMap fun n => label n ++ spacedPairs (word n) ++ [0x0A]

/-- The first line is shown first. -/
theorem dumpLines_cons (label : ℕ → List UInt8) (word : ℕ → Block) (n : ℕ) (addrs : List ℕ) :
    dumpLines label word (n :: addrs) =
      label n ++ spacedPairs (word n) ++ [0x0A] ++ dumpLines label word addrs := rfl

section Lines

variable {label : ℕ → List UInt8} {read : UInt8 → AtshaBigInt → Prog σ (AtshaErr × AtshaBigInt)}
  {word : ℕ → Block} {I : St σ → Prop} {addrs : List ℕ} {data : AtshaBigInt} {s : St σ} (hs : I s)
include hs

/-- The lines are those of the words, up to where one could not be read. -/
theorem dumpWords_shows {P : ℕ → Prop} (hread : ∀ n ∈ addrs, ∀ number r s s', I s →
      (read (UInt8.ofNat n) number).run s = .ok (.ok, r) s' →
      P n ∧ Holds r (word n) ∧ I s') {done : Bool} {text : List UInt8} {s' : St σ}
    (hrun : (dumpWords label read addrs data).run s = .ok (done, text) s') :
    text <+: dumpLines label word addrs ∧
      (done = true → text = dumpLines label word addrs ∧ I s' ∧ ∀ n ∈ addrs, P n) := by
  induction addrs generalizing data text s s' with
  | nil =>
    obtain ⟨hvalue, rfl⟩ := EStateM.Result.ok.inj hrun
    obtain ⟨-, rfl⟩ := Prod.mk.inj hvalue
    exact ⟨List.prefix_refl _, fun _ => ⟨rfl, hs, by simp⟩⟩
  | cons n addrs ih =>
    obtain ⟨hfirst, hothers⟩ := List.forall_mem_cons.mp hread
    rw [dumpLines_cons]
    obtain ⟨⟨status, number⟩, s₁, hnumber, hrun⟩ := (run_bind_eq_ok_iff _ _ _ _ _).mp hrun
    dsimp only at hrun
    split at hrun
    · -- nothing is shown behind the label
      obtain ⟨rfl, rfl⟩ := Prod.mk.inj (EStateM.Result.ok.inj hrun).1
      refine ⟨?_, fun hdone => Bool.noConfusion hdone⟩
      simp only [List.append_assoc]
      exact List.prefix_append _ _
    rename_i hok
    obtain rfl := not_not.mp hok
    obtain ⟨hP, hholds, hs₁⟩ := hfirst _ _ _ _ hs hnumber
    rw [run_bind_of_run (run_access_some (copyOut_of_holds hholds (holds_length_le hholds)) s₁)]
      at hrun
    obtain ⟨⟨done', lines⟩, s₂, hlines, hrun⟩ := (run_bind_eq_ok_iff _ _ _ _ _).mp hrun
    obtain ⟨hvalue, rfl⟩ := EStateM.Result.ok.inj hrun
    obtain ⟨rfl, rfl⟩ := Prod.mk.inj hvalue
    obtain ⟨hshown, hall⟩ := ih hs₁ hothers hlines
    refine ⟨(List.prefix_append_right_inj _).mpr hshown, fun hdone => ?_⟩
    obtain ⟨rfl, hs₂, hothers⟩ := hall hdone
    exact ⟨rfl, hs₂, List.forall_mem_cons.mpr ⟨hP, hothers⟩⟩

omit hs in
/-- Words that are all read are all shown, each of them behind `waits` waits. -/
theorem dumpWords_run {J : ℕ → St σ → Prop} {waits : ℕ}
    (hread : ∀ n ∈ addrs, ∀ number waited s, J waited s → ∃ r s',
      (read (UInt8.ofNat n) number).run s = .ok (.ok, r) s' ∧ Holds r (word n) ∧
        J (waited + waits) s') {waited : ℕ} (hs : J waited s) :
    ∃ s', (dumpWords label read addrs data).run s = .ok (true, dumpLines label word addrs) s' ∧
      J (waited + addrs.length * waits) s' := by
  induction addrs generalizing data waited s with
  | nil =>
    rw [List.length_nil, Nat.zero_mul]
    exact ⟨s, rfl, hs⟩
  | cons n addrs ih =>
    obtain ⟨hfirst, hothers⟩ := List.forall_mem_cons.mp hread
    obtain ⟨number, s₁, hnumber, hholds, hs₁⟩ := hfirst data waited s hs
    obtain ⟨s₂, hlines, hs₂⟩ := @ih number s₁ hothers _ hs₁
    refine ⟨s₂, ?_, ?_⟩
    · rw [dumpWords, run_bind_of_run hnumber]
      dsimp only
      rw [if_neg (by simp),
        run_bind_of_run (run_access_some (copyOut_of_holds hholds (holds_length_le hholds)) s₁),
        run_bind_of_run hlines]
      rfl
    · rwa [List.length_cons, Nat.succ_mul, Nat.add_comm (addrs.length * waits), ← Nat.add_assoc]

end Lines

/-- The command of a dump. -/
theorem dump_command_run (charSigned : Bool) (dns : Resolution) (locals : CommandLocals)
    (zone : ZoneDump) : zone.command.run env charSigned dns locals =
      dumpCommand (dumpZone zone.title zone.label (fun addr => (zone.call addr).run env)
        zone.count locals.data) := by
  cases zone <;> rfl

section Tool

variable {zone : ZoneDump} {s s' : St σ}

/-- A dump over a link that can be trusted shows a beginning of the zone, and all of it where it
ends well.
SOURCE: commands.c:25-87, main.c:238-252 -/
theorem dumpCommand_honest (hs : Resting device chip s) (hhonest : Honest openssl env.bus device)
    (hsettled : zone.Settled chip) {data : AtshaBigInt} {result : CommandResult}
    (hrun : (dumpCommand (dumpZone zone.title zone.label (fun addr => (zone.call addr).run env)
      zone.count data)).run s = .ok result s') :
    result.stdout.flatten <+: zone.text chip ∧ (result.exitCode = 0 →
      zone.Readable chip ∧ result = ⟨0, [zone.text chip], ""⟩ ∧ Resting device chip s') := by
  obtain ⟨⟨done, text⟩, s₁, hzone, hrun⟩ := (run_bind_eq_ok_iff _ _ _ _ _).mp hrun
  obtain ⟨rfl, rfl⟩ := EStateM.Result.ok.inj hrun
  obtain ⟨⟨shown, lines⟩, s₂, hwords, hzone⟩ := (run_bind_eq_ok_iff _ _ _ _ _).mp hzone
  obtain ⟨hvalue, rfl⟩ := EStateM.Result.ok.inj hzone
  obtain ⟨rfl, rfl⟩ := Prod.mk.inj hvalue
  have hread : ∀ n ∈ List.range zone.count, ∀ number r s s', Resting device chip s →
      ((zone.call (UInt8.ofNat n)).run env number).run s = .ok (.ok, r) s' →
      WordTold openssl zone chip n ∧ Holds r (zone.word chip n) ∧ Resting device chip s' :=
    fun n hn number r s s' hs => dumpRead_honest (List.mem_range.mp hn) hhonest hsettled hs
  obtain ⟨hshown, hall⟩ := dumpWords_shows hs hread hwords
  cases shown with
  | false =>
    refine ⟨?_, fun hzero => by cases hzero⟩
    have hmore : textBytes zone.title ++ lines <+: zone.text chip :=
      ((List.prefix_append_right_inj _).mpr hshown).trans (List.prefix_append _ _)
    simpa [commandFailed] using hmore
  | true =>
    obtain ⟨rfl, hs₂, htold⟩ := hall rfl
    refine ⟨?_, fun _ => ⟨(readable_iff_words openssl hsettled).mpr
      fun n hn => htold n (List.mem_range.mpr hn), rfl, hs₂⟩⟩
    have htext : [zone.text chip].flatten = zone.text chip := List.flatten_singleton
    exact ⟨[], (List.append_nil _).trans htext⟩

/-- A dump over a link that can be relied on shows all of the zone, where the chip gives it out.
SOURCE: commands.c:25-87, main.c:238-252 -/
theorem dumpCommand_reliable {waited : ℕ} (hs : Relying device chip waited s)
    (hreliable : Reliable openssl env.bus device)
    (htold : ∀ n < zone.count, WordTold openssl zone chip n) (data : AtshaBigInt) :
    ∃ s', (dumpCommand (dumpZone zone.title zone.label (fun addr => (zone.call addr).run env)
      zone.count data)).run s = .ok ⟨0, [zone.text chip], ""⟩ s' ∧
      Relying device chip (waited + zone.count * 2) s' := by
  obtain ⟨s₁, hwords, hs₁⟩ := @dumpWords_run σ zone.label (fun addr => (zone.call addr).run env)
    (zone.word chip) (List.range zone.count) data s (Relying device chip) 2
    (fun n hn number waited s hs => dumpRead_reliable (List.mem_range.mp hn) hreliable
      (htold n (List.mem_range.mp hn)) hs number) waited hs
  rw [List.length_range] at hs₁
  refine ⟨s₁, ?_, hs₁⟩
  have hzone : (dumpZone zone.title zone.label (fun addr => (zone.call addr).run env)
      zone.count data).run s = .ok (true, zone.text chip) s₁ := run_bind_of_run hwords
  exact run_bind_of_run hzone

end Tool

/-- Whatever the link to the chip loses of what it carries, where it is known what the chip gives
out: what a dump shows is the beginning of the zone as the chip holds it. A dump that ends with zero
shows all of it; then the chip gives the zone out, and stays as it is. And the zone can be told from
the whole text.
SOURCE: commands.c:25-87, main.c:192-346 -/
theorem dump_shows_zone (env : Env σ) (device : σ → Device) (charSigned : Bool) (dns : Resolution)
    (locals : CommandLocals) (opened : Bool) (zone : ZoneDump) (result : CommandResult)
    (s s' : St σ) (hhonest : Honest env.openssl env.bus device)
    (hsettled : zone.Settled (device s.bus).chip)
    (hrun : (chiptools env charSigned dns locals opened zone.command).run s = .ok result s') :
    let chip := (device s.bus).chip
    result.stdout.flatten <+: zone.text chip ∧
      (result.exitCode = 0 → zone.Readable chip ∧ result = ⟨0, [zone.text chip], ""⟩ ∧
        (device s'.bus).chip = chip) ∧
      ∀ chip', zone.text chip' = zone.text chip → zone.bytes chip' = zone.bytes chip := by
  intro chip
  cases opened with
  | false =>
    obtain ⟨rfl, -⟩ := EStateM.Result.ok.inj hrun
    refine ⟨List.nil_prefix, fun hzero => ?_, fun chip' => dump_text_inj⟩
    cases hzero
  | true =>
    rw [chiptools_run, dump_command_run] at hrun
    have hresting : Resting device chip { s with handle := openNi2cDev } := ⟨rfl, rfl, rfl⟩
    obtain ⟨hshown, hdone⟩ := dumpCommand_honest hresting hhonest hsettled hrun
    refine ⟨hshown, fun hzero => ?_, fun chip' => dump_text_inj⟩
    obtain ⟨hreadable, hresult, hs'⟩ := hdone hzero
    exact ⟨hreadable, hresult, hs'.chip_eq⟩

/-- So it is with the OTP zone of a locked chip. -/
theorem dump_shows_zone_locked : ∃ result s',
    (chiptools goodEnv true .noContext (lockedProcess .dumpOtp).locals true
      ZoneDump.otp.command).run (deviceState lockedChip) = .ok result s' ∧
      result = ⟨0, [ZoneDump.otp.text lockedChip], ""⟩ ∧ s'.bus.device.chip = lockedChip := by
  have hsettled : ZoneDump.otp.Settled lockedChip := .inr (.inl rfl)
  obtain ⟨s', hrun, -⟩ := dumpCommand_reliable (relying_deviceState lockedChip) goodEnv_reliable
    ((readable_iff_words mixedDigests hsettled).mp ⟨rfl, rfl⟩) zeroNumber
  have hrun : (chiptools goodEnv true .noContext (lockedProcess .dumpOtp).locals true
      ZoneDump.otp.command).run (deviceState lockedChip) =
        .ok ⟨0, [ZoneDump.otp.text lockedChip], ""⟩ s' := by
    rw [chiptools_run, dump_command_run]
    exact hrun
  have hshows := dump_shows_zone goodEnv DeviceLink.device true .noContext
    (lockedProcess .dumpOtp).locals true .otp _ (deviceState lockedChip) s'
    (deviceBus_honest mixedDigests (fun _ => goodStep) fun _ => []) hsettled hrun
  exact ⟨_, s', hrun, (hshows.2.1 rfl).2⟩

/-- With the settings of `init` the chip never gives the keys out.
SOURCE: init.c:86-103 -/
theorem intended_keys_hidden {before : Chip}
    (hbytes : chip.config.val = before.config.val.mapIdx intendedByte) :
    ZoneDump.data.Settled chip ∧ ¬ ZoneDump.data.Readable chip := by
  refine ⟨.inr fun slot => by rw [slotConfig_intended hbytes slot]; decide, fun hreadable => ?_⟩
  have hclear := hreadable.2 0
  rw [slotConfig_intended hbytes 0] at hclear
  exact absurd hclear (by decide)

end Atsha204.Analysis
