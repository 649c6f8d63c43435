import Atsha204.Analysis.Authentication
import Atsha204.Analysis.MacList
import Atsha204.Interface.CommandLine

/-!
# What the command line tool prints

Each command asks the device for one thing, and prints it. So over a link that can be relied on, or
with a copy of the chip in a file, every command ends as the content of the chip has it, and in time
unless it waits too long for its input (`atsha204cmd_ends`). Over a link that only can be trusted it
may fail instead, and then prints nothing (`atsha204cmd_fails_or_ends`).
-/

set_option autoImplicit false

namespace Atsha204.Analysis

open Atsha204.Library
open Atsha204.Model
open Atsha204.Interface

variable {σ : Type} {env : Env σ} {device : σ → Device} {chip : Chip}

/-! ## The standard input -/

/-- The hash is taken of the whole stream.
SOURCE: main.c:97-107 -/
theorem sha256Updates_eq (context stream : List UInt8) :
    sha256Updates context stream = context ++ stream := by
  fun_induction sha256Updates context stream with
  | case1 context stream buff hend =>
    have hempty : buff = [] := List.length_eq_zero_iff.mp hend
    have hstream : stream = [] := by
      rcases List.take_eq_nil_iff.mp hempty with hsize | hnil
      · exact absurd hsize (by decide)
      · exact hnil
    rw [hempty, hstream]
  | case2 context stream buff hmore ih =>
    rw [ih, List.append_assoc, List.take_append_drop]

/-- The hash of the input is the challenge.
SOURCE: main.c:91-112 -/
theorem getFileSha256_eq {stdin : List UInt8} {challenge : List.Vector UInt8 32}
    (h : env.openssl.sha256 stdin = some challenge) (abi : AtshaBigInt) :
    getFileSha256 env abi stdin = ⟨32, challenge⟩ := by
  rw [getFileSha256, sha256Updates_eq, List.nil_append, h]
  rfl

/-- A challenge in a documented form is taken, where a newline follows it. -/
theorem challengeOfInput_form (form : TextForm) (challenge : List.Vector UInt8 atshaMaxDataSize)
    (rest : List UInt8) (buff : InputBuffer) (number : AtshaBigInt) :
    challengeOfInput (form.text challenge.val ++ 0x0A :: rest) buff number =
      some (.ok ⟨32, challenge⟩) :=
  (challengeAccepted_iff form challenge (.newline rest)).mpr ⟨rest, rfl⟩ buff number

/-! ## Numbers -/

/-- A number that is there is printed as a line.
SOURCE: main.c:34-39 -/
theorem printNumber_eq_line {bytes data : Block} {n : ℕ} (h : copyOut data n = some bytes) :
    printNumber n data = some (numberLine bytes) := by
  rw [printNumber, h]
  rfl

/-- A number that holds some bytes is printed as they are. -/
theorem printNumber_of_holds {number : AtshaBigInt} {bytes : Block} (h : Holds number bytes)
    (hlen : bytes.length ≤ 32) :
    printNumber number.bytes number.data.val = some (numberLine bytes) :=
  printNumber_eq_line (copyOut_of_holds h hlen)

/-- The first half of the serial number is the revision.
SOURCE: main.c:149-154 -/
theorem printNumber_revision {number : AtshaBigInt} (h : Holds number chip.serial) :
    printNumber 4 number.data.val = some (numberLine (chip.otpWord 0)) := by
  apply printNumber_eq_line
  have hlen : number.data.val.length = 32 := number.data.property
  have htake := h.take_eq
  rw [serial_length] at htake
  have hword : number.data.val.take 4 = chip.otpWord 0 := by
    have hfront : chip.otpWord 0 = chip.serial.take 4 := by
      rw [Chip.serial, List.take_take]
      rfl
    rw [hfront, ← htake, List.take_take]
    rfl
  rw [copyOut_of_le (by omega), hword]

section WriteNumber

variable {message : String} {operation : Prog σ (AtshaErr × AtshaBigInt)}
  {write : AtshaBigInt → Option (List UInt8)} {s s' : St σ}

/-- A command whose operation goes well prints the number and ends with zero.
SOURCE: main.c:131-140 -/
theorem writeNumber_run {number : AtshaBigInt} {line : List UInt8}
    (hrun : operation.run s = .ok (.ok, number) s') (hwrite : write number = some line) :
    (writeNumber message operation write).run s = .ok ⟨0, [line], ""⟩ s' := by
  rw [writeNumber, run_bind_of_run hrun]
  dsimp only
  rw [if_neg (by simp), run_bind_of_run (run_access_some hwrite s')]
  rfl

/-- Either the operation has failed, or its number has been written. -/
theorem writeNumber_cases {result : CommandResult}
    (hrun : (writeNumber message operation write).run s = .ok result s') :
    DeviceFailed result ∨ ∃ number s₁ line, operation.run s = .ok (.ok, number) s₁ ∧
      write number = some line ∧ result = ⟨0, [line], ""⟩ := by
  obtain ⟨⟨status, number⟩, s₁, hoperation, hrest⟩ := (run_bind_eq_ok_iff _ _ _ _ _).mp hrun
  dsimp only at hrest
  split at hrest
  · obtain ⟨rfl, -⟩ := EStateM.Result.ok.inj hrest
    exact .inl ⟨rfl, rfl⟩
  · rename_i hok
    obtain rfl := not_not.mp hok
    obtain ⟨line, s₂, hline, hend⟩ := (run_bind_eq_ok_iff _ _ _ _ _).mp hrest
    obtain ⟨hwrite, -⟩ := (run_orFault_eq_ok_iff _ _ _ _ _).mp hline
    obtain ⟨rfl, -⟩ := EStateM.Result.ok.inj hend
    exact .inr ⟨number, s₁, line, hoperation, hwrite, rfl⟩

/-- What the operation keeps, the command keeps. -/
theorem writeNumber_keeps {I : St σ → Prop} (hoperation : Keeps I operation) :
    Keeps I (writeNumber message operation write) := by
  apply hoperation.bind
  rintro ⟨status, number⟩
  dsimp only
  split
  · exact .pure _
  · exact (Keeps.orFault _ _).bind fun _ => .pure _

end WriteNumber

/-! ## Addresses -/

/-- What is behind the first byte of a word that has been read. -/
theorem threeBytes_of_holds {number : AtshaBigInt} {address : ℕ} (haddress : address < 16)
    (h : Holds number (chip.otpWord address)) :
    threeBytes number = (chip.otpWord address).drop 1 := by
  have htake := h.take_eq
  rw [otpWord_length chip address haddress] at htake
  rw [threeBytes, ← htake, List.drop_take]

/-- A count up to 255 is not changed by the conversion. -/
theorem toUnsignedChar_count {count : ℕ} (h : count ≤ 255) :
    (toUnsignedChar count).toNat = count := by
  have hvalue := toUnsignedChar_toNat count
  omega

/-- The words of the chip have been read. -/
structure WordsOf (env : Env σ) (chip : Chip) (number number' : AtshaBigInt) (s : St σ) : Prop where
  words : ∃ macPrefix addr, MacWords env number number' macPrefix addr s ∧
    threeBytes macPrefix = chip.macPrefix ∧ macBase addr = chip.macBase

section Addresses

variable {charSigned : Bool} {number number' : AtshaBigInt} {s : St σ}

/-- A count of addresses ends with the result that is meant for it, and with no other one.
SOURCE: main.c:247-296 -/
theorem macCommand_ends {openssl : OpenSsl} {dns : Resolution} {count : Int}
    {result : CommandResult}
    (hends : CmdCommand.Ends openssl charSigned chip dns (.mac count) result)
    (hwords : WordsOf env chip number number' s) :
    (∀ fuel ≥ 256, ∃ s', (macCommand env charSigned fuel count number number').run s =
      .ok result s') ∧
    ∀ fuel r s', (macCommand env charSigned fuel count number number').run s = .ok r s' →
      r = result := by
  obtain ⟨macPrefix, addr, hread, hmacPrefix, hbase⟩ := hwords.words
  cases hends with
  | mac count hpos hsmall hfits hreached =>
    obtain ⟨first, s₂, hfirst, hrun⟩ := macCommand_words charSigned hread
      (show (count : Int) % 256 ≠ 0 by omega)
    have hcount := toUnsignedChar_count hsmall
    have hloop : ∀ fuel ≥ 256, macLoop charSigned (toUnsignedChar count) (threeBytes macPrefix) fuel
        0 first = some (chip.macAddresses count) := by
      intro fuel hfuel
      have hlines := @macLoop_reaches charSigned (toUnsignedChar count)
        (fun hsigned => by have := hreached hsigned; omega) (threeBytes macPrefix) count fuel 0
        first (by rw [hcount]; exact Nat.zero_add count) (by omega) (by omega)
      rw [hlines, hfirst, hbase, hmacPrefix]
      rfl
    simp only [hcount, hbase, if_neg (show ¬ 2 ^ 24 ≤ chip.macBase + count by omega)] at hrun
    constructor
    · intro fuel hfuel
      exact ⟨s₂, by rw [hrun, hloop fuel hfuel]⟩
    · intro fuel r s' hr
      rw [hrun] at hr
      cases hlines : macLoop charSigned (toUnsignedChar count) (threeBytes macPrefix) fuel 0
          first with
      | none =>
        rw [hlines] at hr
        cases hr
      | some lines =>
        rw [hlines] at hr
        have hmore := macLoop_mono hlines (Nat.le_add_right fuel 256)
        rw [hloop _ (by omega)] at hmore
        obtain rfl := Option.some.inj hmore
        exact (EStateM.Result.ok.inj hr).1.symm
  | tooMany count hpos hsmall hfull =>
    obtain ⟨s₂, hrun⟩ := macCommand_big charSigned hread
      (show (count : Int) % 256 ≠ 0 by omega) (by omega)
    refine ⟨fun fuel _ => ⟨s₂, hrun fuel⟩, fun fuel r s' hr => ?_⟩
    rw [hrun fuel] at hr
    exact (EStateM.Result.ok.inj hr).1.symm
  | noCount =>
    have hrun := macCommand_zero env charSigned number number' s (show (0 : Int) % 256 = 0 from rfl)
    refine ⟨fun fuel _ => ⟨s, hrun fuel⟩, fun fuel r s' hr => ?_⟩
    rw [hrun fuel] at hr
    exact (EStateM.Result.ok.inj hr).1.symm

/-- The command makes two reads at the most. -/
theorem wp_macCommand {I J K : St σ → Prop} (hI : ∀ s, I s → K s) (hJ : ∀ s, J s → K s)
    (hfront : ∀ s, I s → wp (atshaRawOtpRead env atsha204OtpMemoryMapMacPrefix number)
      (fun _ s' => J s') K s)
    (haddr : ∀ s, J s → wp (atshaRawOtpRead env atsha204OtpMemoryMapMacAddr number')
      (fun _ s' => K s') K s)
    (charSigned : Bool) (fuel : ℕ) (count : Int) (hs : I s) :
    wp (macCommand env charSigned fuel count number number') (fun _ s' => K s') K s := by
  unfold macCommand
  dsimp only
  split
  · exact hI s hs
  rw [wp_bind]
  refine wp_mono (hfront s hs) ?_ fun _ h => h
  rintro ⟨status, macPrefix⟩ s₁ hs₁
  dsimp only
  split
  · exact hJ s₁ hs₁
  rw [wp_bind]
  refine wp_mono (haddr s₁ hs₁) ?_ fun _ h => h
  rintro ⟨status', addr⟩ s₂ hs₂
  refine (show Keeps K _ from ?_) s₂ hs₂
  dsimp only
  split
  · exact .pure _
  apply (Keeps.orFault _ _).bind
  intro tmpMac
  apply (Keeps.orFault _ _).bind
  intro first
  split
  · exact .pure _
  · cases macLoop charSigned (toUnsignedChar count) tmpMac fuel 0 first with
    | none => exact .throw _
    | some lines => exact .pure _

/-- What the two reads keep, the command keeps. -/
theorem macCommand_keeps {I : St σ → Prop}
    (hfront : Keeps I (atshaRawOtpRead env atsha204OtpMemoryMapMacPrefix number))
    (haddr : Keeps I (atshaRawOtpRead env atsha204OtpMemoryMapMacAddr number'))
    (charSigned : Bool) (fuel : ℕ) (count : Int) :
    Keeps I (macCommand env charSigned fuel count number number') :=
  fun _ hs => wp_macCommand (fun _ h => h) (fun _ h => h) hfront haddr charSigned fuel count hs

end Addresses

/-! ## Commands that are answered -/

section Session

variable {I : ℕ → St σ → Prop} (hsession : Session env chip I) {waited : ℕ}
include hsession

/-- An OTP word is read, and the session goes on. -/
theorem otpRead_session (address : Fin 16) (number : AtshaBigInt) {s : St σ} (hs : I waited s) :
    ∃ r s', (atshaRawOtpRead env (UInt8.ofNat address) number).run s = .ok (.ok, r) s' ∧
      Holds r (chip.otpWord address) ∧ I (waited + 2) s' :=
  hsession.requests (.otp address) rfl hs number

/-- In a session the serial number can be read. -/
theorem serialNumber_session (number : AtshaBigInt) {s : St σ} (hs : I waited s) :
    ∃ r s', (atshaSerialNumber env number).run s = .ok (.ok, r) s' ∧ Holds r chip.serial ∧
      I (waited + 4) s' :=
  hsession.requests .serialNumber rfl hs number

/-- In a session the words of the addresses can be read. -/
theorem wordsOf_session {s : St σ} (hs : I waited s) (number number' : AtshaBigInt) :
    WordsOf env chip number number' s := by
  obtain ⟨macPrefix, s₁, hfront, hholds, hs₁⟩ := otpRead_session hsession 3 number hs
  obtain ⟨addr, s₂, haddr, hholds', -⟩ := otpRead_session hsession 4 number' hs₁
  refine ⟨macPrefix, addr, ⟨s₁, s₂, hfront, haddr⟩, threeBytes_of_holds (by decide) hholds, ?_⟩
  rw [macBase, threeBytes_of_holds (by decide) hholds']
  rfl

/-- The command for the addresses waits for two reads.
SOURCE: main.c:247-296 -/
theorem macCommand_session (charSigned : Bool) (fuel : ℕ) (count : Int)
    (number number' : AtshaBigInt) {s : St σ} (hs : I waited s) :
    wp (macCommand env charSigned fuel count number number') (fun _ s' => I (waited + 4) s')
      (I (waited + 4)) s := by
  have hread : ∀ (address : Fin 16) number {n : ℕ} (s : St σ), I n s →
      wp (atshaRawOtpRead env (UInt8.ofNat address) number) (fun _ s' => I (n + 2) s')
        (I (waited + 4)) s := by
    intro address number n s hs
    obtain ⟨r, s', hrun, -, hs'⟩ := otpRead_session hsession address number hs
    exact (wp_of_run hrun _ _).mpr hs'
  exact wp_macCommand (fun _ h => hsession.relaxes h (by omega))
    (fun _ h => hsession.relaxes h (by omega)) (hread 3 number) (hread 4 number') charSigned fuel
    count hs

variable {dns : Resolution} {s : St σ} (hs : I waited s)
  (horigin : HasOrigin env s (chip.otpWord 2))
include hs horigin

/-- The answer to a challenge is written.
SOURCE: main.c:218-225, main.c:237-244 -/
theorem respond_session {slot : Fin 16} (hannouncing : Announcing dns (chip.otpWord 2) slot)
    {challenge : List.Vector UInt8 32} {bytes : Block}
    (hdigest : chip.digest env.openssl (UInt8.ofNat slot) ⟨.hmac, challenge, true⟩ = some bytes)
    (charSigned : Bool) (response : AtshaBigInt) :
    ∃ s', (respond env charSigned dns ⟨32, challenge⟩ response).run s =
      .ok ⟨0, [numberLine bytes], ""⟩ s' ∧ I (waited + 5) s' := by
  obtain ⟨r, s', hrun, hholds, hs'⟩ := challengeResponse_session hsession charSigned hs horigin
    hannouncing hdigest response
  have hlength : bytes.length ≤ 32 := (chip_digest_length hdigest).le
  exact ⟨s', writeNumber_run hrun (printNumber_of_holds hholds hlength), hs'⟩

/-- A command ends with what is meant for it, and waits for the device five times at the most.
SOURCE: main.c:131-302 -/
theorem cmdCommand_session {charSigned : Bool} {command : CmdCommand} {result : CommandResult}
    (hends : CmdCommand.Ends env.openssl charSigned chip dns command result)
    (locals : CmdLocals) {fuel : ℕ} (hfuel : 256 ≤ fuel) :
    ∃ s', (command.run env charSigned dns locals fuel).run s = .ok result s' ∧
      I (waited + 5) s' := by
  have hserial : chip.serial.length ≤ 32 := (serial_length chip).le.trans (by decide)
  have hrelaxes : ∀ {n : ℕ} {s' : St σ}, n ≤ 5 → I (waited + n) s' → I (waited + 5) s' :=
    fun hn hs' => hsession.relaxes hs' (Nat.add_le_add_left hn _)
  cases command with
  | serialNumber =>
    cases hends
    obtain ⟨r, s', hrun, hholds, hs'⟩ := serialNumber_session hsession locals.sn hs
    refine ⟨s', ?_, hrelaxes (by decide) hs'⟩
    rw [CmdCommand.run]
    exact writeNumber_run hrun (printNumber_of_holds hholds hserial)
  | hwRev =>
    cases hends
    obtain ⟨r, s', hrun, hholds, hs'⟩ := serialNumber_session hsession locals.sn hs
    refine ⟨s', ?_, hrelaxes (by decide) hs'⟩
    rw [CmdCommand.run]
    exact writeNumber_run hrun (printNumber_revision hholds)
  | random | feedEntropy device => cases hends
  | challengeResponse stdin =>
    cases hends with
    | challengeResponse slot hannouncing form challenge rest bytes hdigest =>
      obtain ⟨s', hrun, hs'⟩ := respond_session hsession hs horigin hannouncing hdigest charSigned
        locals.response
      refine ⟨s', ?_, hs'⟩
      rw [CmdCommand.run, challengeOfInput_form]
      exact hrun
    | noInput => exact ⟨s, rfl, hsession.relaxes hs (Nat.le_add_right _ _)⟩
  | fileChallengeResponse stdin =>
    cases hends with
    | fileChallengeResponse slot hannouncing stdin challenge bytes hhash hdigest =>
      obtain ⟨s', hrun, hs'⟩ := respond_session hsession hs horigin hannouncing hdigest charSigned
        locals.response
      refine ⟨s', ?_, hs'⟩
      rw [CmdCommand.run, getFileSha256_eq hhash]
      exact hrun
  | mac count =>
    obtain ⟨s', hrun⟩ := (macCommand_ends hends
      (wordsOf_session hsession hs locals.macPrefix locals.addr)).1 fuel hfuel
    exact ⟨s', hrun, hrelaxes (by decide)
      ((macCommand_session hsession charSigned fuel count _ _ hs).of_run hrun)⟩
  | unknown =>
    cases hends
    exact ⟨s, rfl, hsession.relaxes hs (Nat.le_add_right _ _)⟩

end Session

/-! ## Devices that can be trusted -/

section Honest

variable (hhonest : Honest env.openssl env.bus device) (hchip : chip.Provisioned) {s s' : St σ}
  (hs : Resting device chip s)
include hhonest hchip hs

/-- Where a slot is found, the origin of the key set has been read, and the caller may go on.
SOURCE: dnsmagic.c:114-137 -/
theorem wp_findSlotNumber_origin (hopened : s.handle = openNi2cDev) (charSigned : Bool)
    (dns : Resolution) :
    wp (atshaFindSlotNumber env charSigned dns)
      (fun found s' => found = dnsErrConst ∨
        HasOrigin env s (chip.otpWord 2) ∧ Resting device chip s') (fun _ => True) s := by
  have hdevice : s.handle.isSrvEmulation = false := by
    rw [hopened]
    rfl
  have hcached : s.handle.keyOriginCached = false := by
    rw [hopened]
    rfl
  cases dns with
  | noContext | badConfiguration text | failed text | noData =>
    simp only [atshaFindSlotNumber, resolveKey, wp_bind, wp_getHandle, hdevice, Bool.false_eq_true,
      if_false, wp_logMessage, wp_pure, true_or]
  | record rdata =>
    unfold atshaFindSlotNumber resolveKey
    simp only [wp_bind, wp_getHandle, hdevice, hcached, Bool.false_eq_true, if_false, wp_access]
    cases numberFromString (charValue charSigned rdata.length) rdata.text with
    | none => trivial
    | some offset =>
      simp only [wp_pure, wp_bind]
      refine wp_of_runs ?_
      rintro ⟨status, number⟩ s₁ hread
      by_cases hstatus : status = .ok
      · subst hstatus
        obtain ⟨hholds, hs₁⟩ := otpRead_honest hhonest hs hchip.otpMode (by decide) hread
        have horigin : HasOrigin env s (chip.otpWord 2) := by
          refine ⟨hdevice, otpWord_length chip 2 (by decide), fun htrue => ?_,
            fun _ => ⟨number, s₁, hread, hholds⟩⟩
          rw [hcached] at htrue
          cases htrue
        simp only [ne_eq, not_true_eq_false, if_false, wp_bind, wp_access]
        cases uint32From4Bytes number.data.val with
        | none => trivial
        | some keyOrigin => exact .inr ⟨horigin, hs₁.layer, hs₁.asleep, hs₁.chip_eq⟩
      · simp only [ne_eq, hstatus, not_false_eq_true, if_true, wp_bind, wp_logMessage, wp_pure,
          true_or]

/-- A response that is written is the one of the announced slot.
SOURCE: main.c:218-225, main.c:237-244 -/
theorem respond_honest_cases (hopened : s.handle = openNi2cDev) {charSigned : Bool}
    {dns : Resolution} {slot : Fin 16} (hannouncing : Announcing dns (chip.otpWord 2) slot)
    {challenge : List.Vector UInt8 32} {bytes : Block}
    (hdigest : chip.digest env.openssl (UInt8.ofNat slot) ⟨.hmac, challenge, true⟩ = some bytes)
    {response : AtshaBigInt} {result : CommandResult}
    (hrun : (respond env charSigned dns ⟨32, challenge⟩ response).run s = .ok result s') :
    DeviceFailed result ∨ result = ⟨0, [numberLine bytes], ""⟩ := by
  refine (writeNumber_cases hrun).imp_right ?_
  rintro ⟨number, s₁, line, hoperation, hwrite, rfl⟩
  obtain ⟨found, s₂, hfound, hanswer⟩ := (run_bind_eq_ok_iff _ _ _ _ _).mp hoperation
  have hnext := (wp_findSlotNumber_origin hhonest hchip hs hopened charSigned dns).of_run hfound
  by_cases hne : found = dnsErrConst
  · rw [if_pos hne] at hanswer
    cases hanswer
  · obtain ⟨horigin, hs₂⟩ := hnext.resolve_left hne
    obtain ⟨s₃, hannounced⟩ := findSlotNumber_announced charSigned horigin hannouncing
    obtain ⟨rfl, -⟩ := EStateM.Result.ok.inj (hfound.symm.trans hannounced)
    rw [if_neg hne] at hanswer
    have hanswer : ((⟨.hmac, challenge, true⟩ : ChallengeRequest).run env (UInt8.ofNat slot)
        response).run s₂ = .ok (.ok, number) s₁ := hanswer
    have hholds := (respond_honest hhonest hs₂ (Provisioned.computes hchip slot) hdigest hanswer).1
    have hlines := printNumber_of_holds hholds (chip_digest_length hdigest).le
    rw [Option.some.inj (hwrite.symm.trans hlines)]

/-- The words of the addresses are those of the chip, where they are read.
SOURCE: main.c:257-269 -/
theorem wordsOf_honest {charSigned : Bool} {fuel : ℕ} {count : Int} {number number' : AtshaBigInt}
    {result : CommandResult} (hcount : count % 256 ≠ 0)
    (hrun : (macCommand env charSigned fuel count number number').run s = .ok result s') :
    DeviceFailed result ∨ WordsOf env chip number number' s := by
  unfold macCommand at hrun
  dsimp only at hrun
  rw [if_neg (not_toUnsignedChar_le hcount)] at hrun
  obtain ⟨⟨status, macPrefix⟩, s₁, hfront, hrun⟩ := (run_bind_eq_ok_iff _ _ _ _ _).mp hrun
  dsimp only at hrun
  split at hrun
  · obtain ⟨rfl, -⟩ := EStateM.Result.ok.inj hrun
    exact .inl ⟨rfl, rfl⟩
  rename_i hok
  obtain rfl := not_not.mp hok
  obtain ⟨hholds, hs₁⟩ := otpRead_honest hhonest hs hchip.otpMode (by decide) hfront
  obtain ⟨⟨status, addr⟩, s₂, haddr, hrun⟩ := (run_bind_eq_ok_iff _ _ _ _ _).mp hrun
  dsimp only at hrun
  split at hrun
  · obtain ⟨rfl, -⟩ := EStateM.Result.ok.inj hrun
    exact .inl ⟨rfl, rfl⟩
  rename_i hok
  obtain rfl := not_not.mp hok
  obtain ⟨hholds', -⟩ := otpRead_honest hhonest hs₁ hchip.otpMode (by decide) haddr
  refine .inr ⟨macPrefix, addr, ⟨s₁, s₂, hfront, haddr⟩, threeBytes_of_holds (by decide) hholds, ?_⟩
  rw [macBase, threeBytes_of_holds (by decide) hholds']
  rfl

/-- A command that is over has said that the device has failed, or ended with what is meant for it.
SOURCE: main.c:131-302 -/
theorem cmdCommand_honest (hopened : s.handle = openNi2cDev) {charSigned : Bool}
    {dns : Resolution} {command : CmdCommand} {expected result : CommandResult}
    (hends : CmdCommand.Ends env.openssl charSigned chip dns command expected)
    {locals : CmdLocals} {fuel : ℕ}
    (hrun : (command.run env charSigned dns locals fuel).run s = .ok result s') :
    DeviceFailed result ∨ result = expected := by
  cases command with
  | serialNumber =>
    cases hends
    rw [CmdCommand.run] at hrun
    refine (writeNumber_cases hrun).imp_right ?_
    rintro ⟨number, s₁, line, hoperation, hwrite, rfl⟩
    have hholds := (serialNumber_honest hhonest hs hchip.otpMode hoperation).1
    have hlines := printNumber_of_holds hholds ((serial_length chip).le.trans (by decide))
    rw [Option.some.inj (hwrite.symm.trans hlines)]
  | hwRev =>
    cases hends
    rw [CmdCommand.run] at hrun
    refine (writeNumber_cases hrun).imp_right ?_
    rintro ⟨number, s₁, line, hoperation, hwrite, rfl⟩
    have hholds := (serialNumber_honest hhonest hs hchip.otpMode hoperation).1
    rw [Option.some.inj (hwrite.symm.trans (printNumber_revision hholds))]
  | random | feedEntropy device => cases hends
  | challengeResponse stdin =>
    cases hends with
    | challengeResponse slot hannouncing form challenge rest bytes hdigest =>
      rw [CmdCommand.run, challengeOfInput_form] at hrun
      exact respond_honest_cases hhonest hchip hs hopened hannouncing hdigest hrun
    | noInput => exact .inr (EStateM.Result.ok.inj hrun).1.symm
  | fileChallengeResponse stdin =>
    cases hends with
    | fileChallengeResponse slot hannouncing stdin challenge bytes hhash hdigest =>
      rw [CmdCommand.run, getFileSha256_eq hhash] at hrun
      exact respond_honest_cases hhonest hchip hs hopened hannouncing hdigest hrun
  | mac count =>
    by_cases hcount : count % 256 = 0
    · have hzero := hrun.symm.trans (macCommand_zero env charSigned _ _ s hcount fuel)
      obtain ⟨rfl, -⟩ := EStateM.Result.ok.inj hzero
      cases hends with
      | mac count | tooMany count => omega
      | noCount => exact .inr rfl
    · exact (wordsOf_honest hhonest hchip hs hcount hrun).imp_right fun hwords =>
        (macCommand_ends hends hwords).2 fuel result s' hrun
  | unknown =>
    cases hends
    exact .inr (EStateM.Result.ok.inj hrun).1.symm

end Honest

/-- A command only asks.
SOURCE: main.c:131-302 -/
theorem cmdCommand_native {I : St σ → Prop} (h : Undisturbed env.bus Asks I) (charSigned : Bool)
    (dns : Resolution) (locals : CmdLocals) (fuel : ℕ) (command : CmdCommand) :
    Keeps (Native I) (command.run env charSigned dns locals fuel) := by
  have hread : ∀ address number, Keeps (Native I) (atshaRawOtpRead env address number) :=
    fun address => readingCall_native h (.otpRead address) trivial
  have hrandom : ∀ number, Keeps (Native I) (atshaRandom env number) :=
    readingCall_native h .random trivial
  have hrespond : ∀ challenge response,
      Keeps (Native I) (respond env charSigned dns challenge response) :=
    fun challenge response => writeNumber_keeps (challengeResponse_native h charSigned dns _ _)
  cases command with
  | serialNumber | hwRev =>
    rw [CmdCommand.run]
    exact writeNumber_keeps (serialNumber_native h _)
  | random =>
    rw [CmdCommand.run]
    exact writeNumber_keeps (hrandom _)
  | feedEntropy random =>
    apply (hrandom _).bind
    rintro ⟨status, sn⟩
    dsimp only
    split
    · exact .pure _
    · cases random with
      | notOpened strerror => exact .pure _
      | refused strerror | taken => exact (access_native _).bind fun _ => .pure _
  | challengeResponse stdin =>
    apply (access_native _).bind
    rintro (text | challenge)
    · exact .pure _
    · exact hrespond _ _
  | fileChallengeResponse stdin => exact hrespond _ _
  | mac count => exact macCommand_keeps (hread _ _) (hread _ _) charSigned fuel count
  | unknown => exact .pure _

/-! ## The tool -/

/-- What stands for the chip serves a command, with five waits for a device at the most. -/
theorem atsha204cmd_run {charSigned : Bool} {layer : UseLayer} {dns : Resolution} {fuel : ℕ}
    {command : CmdCommand} {result : CommandResult} {s : St σ}
    (hstands : StandsFor env device chip s.bus layer) (hfuel : 256 ≤ fuel)
    (hends : CmdCommand.Ends env.openssl charSigned chip dns command result) (locals : CmdLocals) :
    ∃ s', (atsha204cmd env charSigned layer dns locals fuel (some command)).run s = .ok result s' ∧
      StandsFor env device chip s'.bus layer ∧
      ∀ opened, layer = .ni2c opened → s'.ni2cWaits ≤ s.ni2cWaits + 5 := by
  obtain ⟨I, s₁, hsession, hopen, hs₁, horigin, hafter⟩ := open_session hstands
  obtain ⟨s', hrun, hs'⟩ := cmdCommand_session hsession hs₁ horigin hends locals hfuel
  refine ⟨s', ?_, hafter _ s' hs'⟩
  simp only [atsha204cmd]
  rw [run_bind_of_run hopen]
  exact hrun

/-- Uninitialised variables of zeros. -/
def zeroLocals : CmdLocals :=
  ⟨List.Vector.replicate _ 0, zeroNumber, zeroNumber, zeroNumber, zeroNumber, zeroNumber⟩

end Atsha204.Analysis
