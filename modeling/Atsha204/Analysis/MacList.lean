import Atsha204.Interface.MacList
import Atsha204.Analysis.EmulatedHandle
import Atsha204.Analysis.FourBytes

/-!
# Which counts of MAC addresses are listed

The count is narrowed to a byte before it is looked at, the check for the last address is
off by one, and the counter is a `char`. So the command lists a count from 1 to 255 that
leaves an address over, where the counter reaches it; it refuses the count that takes the last
address (`macCommand_big`), it never ends where the counter stays below the count
(`macLoop_below`), and it lists a count out of range for the byte that it is narrowed to.
-/

set_option autoImplicit false

namespace Atsha204.Analysis

open Atsha204.Library
open Atsha204.Model
open Atsha204.Interface

variable {σ : Type} {env : Env σ} {charSigned : Bool}

/-! ## Numbers -/

/-- The low byte of a register. -/
theorem low_byte (m : UInt32) : (m &&& 0xFF).toUInt8 = UInt8.ofNat m.toNat := by
  apply UInt8.toNat_inj.mp
  rw [UInt32.toNat_toUInt8, UInt32.toNat_and, UInt8.toNat_ofNat']
  rw [show (0xFF : UInt32).toNat = 2 ^ 8 - 1 from rfl, Nat.and_two_pow_sub_one_eq_mod, Nat.mod_mod]

/-- A shift by a byte is a division. -/
theorem toNat_shiftRight_byte (m : UInt32) : (m >>> 8).toNat = m.toNat / 2 ^ 8 := by
  rw [UInt32.toNat_shiftRight, Nat.shiftRight_eq_div_pow]
  rfl

/-- The tail of an address are the last three bytes of the number.
SOURCE: main.c:290-292 -/
theorem macTail_eq (m : UInt32) : macTail m = numberBytes m.toNat := by
  unfold macTail numberBytes
  simp only [low_byte, toNat_shiftRight_byte, Nat.div_div_eq_div_mul]
  rfl

/-- A byte that is shifted has its weight. -/
theorem toNat_shiftLeft_byte (b : UInt8) {k : ℕ} (hk : k ≤ 24) :
    (b.toUInt32 <<< (UInt32.ofNat k)).toNat = b.toNat * 2 ^ k := by
  have hlt := b.toNat_lt
  have hpow : 2 ^ k ≤ 2 ^ 24 := Nat.pow_le_pow_right (by decide) hk
  have hfits : b.toNat * 2 ^ k < 2 ^ 32 :=
    calc b.toNat * 2 ^ k ≤ 255 * 2 ^ 24 := Nat.mul_le_mul (by omega) hpow
      _ < 2 ^ 32 := by decide
  rw [UInt32.toNat_shiftLeft, UInt8.toNat_toUInt32, UInt32.toNat_ofNat', Nat.shiftLeft_eq,
    Nat.mod_eq_of_lt (by omega : k < 2 ^ 32), Nat.mod_eq_of_lt (by omega : k < 32),
    Nat.mod_eq_of_lt hfits]

/-- The number behind the prefix is read from its three bytes.
SOURCE: main.c:278-280 -/
theorem macAsNumber_eq (addr : AtshaBigInt) :
    ∃ number, macAsNumber addr.data.val = some number ∧ number.toNat = macBase addr ∧
      macBase addr < 2 ^ 24 := by
  have hlen : addr.data.val.length = 32 := addr.data.property
  unfold macBase threeBytes
  match hcells : addr.data.val with
  | [] | [_] | [_, _] | [_, _, _] => rw [hcells] at hlen; simp at hlen
  | _ :: d1 :: d2 :: d3 :: rest =>
    have hlt1 := d1.toNat_lt
    have hlt2 := d2.toNat_lt
    have hlt3 := d3.toNat_lt
    have hbase : bigEndian [d1, d2, d3] = (d1.toNat * 2 ^ 8 + d2.toNat) * 2 ^ 8 + d3.toNat := by
      simp only [bigEndian, List.foldl_cons, List.foldl_nil]
      omega
    -- the second byte goes below the first one
    have hmiddle : (((0 : UInt32) ||| (d1.toUInt32 <<< 16)) ||| (d2.toUInt32 <<< 8)).toNat =
        (d1.toNat * 2 ^ 8 + d2.toNat) * 2 ^ 8 := by
      have hlow : d2.toNat * 2 ^ 8 < 2 ^ 16 := by omega
      rw [UInt32.toNat_or, UInt32.zero_or, show (16 : UInt32) = UInt32.ofNat 16 from rfl,
        show (8 : UInt32) = UInt32.ofNat 8 from rfl, toNat_shiftLeft_byte d1 (by decide),
        toNat_shiftLeft_byte d2 (by decide), ← Nat.shiftLeft_eq d1.toNat,
        ← Nat.shiftLeft_add_eq_or_of_lt hlow, Nat.shiftLeft_eq]
      omega
    refine ⟨_, rfl, ?_, ?_⟩
    · rw [toNat_or_byte _ d3 _ hmiddle]
      exact hbase.symm
    · change bigEndian [d1, d2, d3] < 2 ^ 24
      omega

/-! ## Lines -/

/-- Different values have different digits. -/
theorem upperDigit_inj {m n : ℕ} (hm : m < 16) (hn : n < 16) (h : upperDigit m = upperDigit n) :
    m = n := by
  have hall : ∀ m n : Fin 16, upperDigit m = upperDigit n → m = n := by decide
  exact congrArg Fin.val (hall ⟨m, hm⟩ ⟨n, hn⟩ h)

/-- Different bytes have different pairs. -/
theorem pairText_inj {b c : UInt8} (h : pairText b = pairText c) : b = c := by
  have hb := b.toNat_lt
  have hc := c.toNat_lt
  obtain ⟨hhigh, hlow⟩ := List.cons.inj h
  have hdiv := upperDigit_inj (by omega) (by omega) hhigh
  have hmod := upperDigit_inj (by omega) (by omega) (List.cons.inj hlow).1
  apply UInt8.toNat_inj.mp
  omega

/-- Different numbers below 2^24 are printed in different lines, whatever the prefix is. -/
theorem macText_inj {macPrefix : Block} (hlength : macPrefix.length = 3) {m n : ℕ}
    (hm : m < 2 ^ 24) (hn : n < 2 ^ 24)
    (h : macText (macPrefix ++ numberBytes m) = macText (macPrefix ++ numberBytes n)) : m = n := by
  obtain ⟨p0, p1, p2, rfl⟩ := List.length_eq_three.mp hlength
  have hbytes : ∀ b c d b' c' d' : UInt8, macText [p0, p1, p2, b, c, d] =
      macText [p0, p1, p2, b', c', d'] → b = b' ∧ c = c' ∧ d = d' := by
    intro b c d b' c' d' htext
    simp only [macText, List.map_cons, List.map_nil, List.intersperse, List.flatten_cons,
      List.append_assoc, List.append_cancel_left_eq] at htext
    obtain ⟨hb, hrest⟩ := List.append_inj htext rfl
    obtain ⟨hc, hrest⟩ := List.append_inj (List.append_cancel_left hrest) rfl
    obtain ⟨hd, -⟩ := List.append_inj (List.append_cancel_left hrest) rfl
    exact ⟨pairText_inj hb, pairText_inj hc, pairText_inj hd⟩
  obtain ⟨hhigh, hmiddle, hlow⟩ := hbytes _ _ _ _ _ _ h
  rw [← UInt8.toNat_inj, UInt8.toNat_ofNat', UInt8.toNat_ofNat'] at hhigh hmiddle hlow
  omega

/-! ## The loop -/

/-- A `char` that is signed is below 128. -/
theorem charValue_lt (c : UInt8) : charValue true c < 128 := by
  have hc := c.toNat_lt
  unfold charValue
  by_cases hhigh : 128 ≤ c.toNat
  · rw [if_pos ⟨rfl, hhigh⟩]
    omega
  · rw [if_neg fun h => hhigh h.2]
    omega

/-- A small character has the same value, signed or not. -/
theorem charValue_of_lt {c : UInt8} (h : charSigned = true → c.toNat < 128) :
    charValue charSigned c = c.toNat := by
  unfold charValue
  rw [if_neg]
  rintro ⟨hsigned, hhigh⟩
  exact absurd (h hsigned) (Nat.not_lt.mpr hhigh)

/-- A counter that cannot reach the count stays below it.
SOURCE: main.c:286 -/
theorem macLoop_below {n : UInt8} (hn : 128 ≤ n.toNat) (tmpMac : Block) (fuel : ℕ) (i : UInt8)
    (number : UInt32) : macLoop true n tmpMac fuel i number = none := by
  induction fuel generalizing i number with
  | zero => rfl
  | succ fuel ih =>
    have hi := charValue_lt i
    have hbelow : charValue true i < (n.toNat : Int) := by omega
    rw [macLoop, if_pos hbelow, ih]
    rfl

/-- The lines of the rounds. -/
def macLines (tmpMac : Block) (first count : ℕ) : List (List UInt8) :=
  (List.range count).map fun k => macText (tmpMac ++ numberBytes (first + k))

/-- The first address is printed first. -/
theorem macLines_succ (tmpMac : Block) (first count : ℕ) :
    macLines tmpMac first (count + 1) =
      macText (tmpMac ++ numberBytes first) :: macLines tmpMac (first + 1) count := by
  unfold macLines
  rw [List.range_succ_eq_map, List.map_cons, List.map_map, Nat.add_zero]
  congr 2
  funext k
  simp only [Function.comp_apply, Nat.succ_eq_add_one, Nat.add_assoc, Nat.add_comm 1 k]

/-- A counter that can reach the count takes a round for every number below it. -/
theorem macLoop_reaches {n : UInt8} (hn : charSigned = true → n.toNat < 128) (tmpMac : Block)
    (rounds fuel : ℕ) (i : UInt8) (number : UInt32) (hi : i.toNat + rounds = n.toNat)
    (hnumber : number.toNat + rounds < 2 ^ 24) (hfuel : rounds < fuel) :
    macLoop charSigned n tmpMac fuel i number = some (macLines tmpMac number.toNat rounds) := by
  induction rounds generalizing fuel i number with
  | zero =>
    obtain ⟨fuel, rfl⟩ := Nat.exists_eq_add_one.mpr (Nat.zero_lt_of_lt hfuel)
    have hvalue : charValue charSigned i = i.toNat :=
      charValue_of_lt fun hsigned => by have := hn hsigned; omega
    rw [macLoop, hvalue, if_neg (by omega)]
    rfl
  | succ rounds ih =>
    obtain ⟨fuel, rfl⟩ := Nat.exists_eq_add_one.mpr (Nat.zero_lt_of_lt hfuel)
    have hvalue : charValue charSigned i = i.toNat :=
      charValue_of_lt fun hsigned => by have := hn hsigned; omega
    have hlt := n.toNat_lt
    have hnext : (i + 1).toNat = i.toNat + 1 := by
      rw [UInt8.toNat_add, UInt8.toNat_one]
      omega
    have hadvanced : (number + 1).toNat = number.toNat + 1 := by
      rw [UInt32.toNat_add, UInt32.toNat_one]
      omega
    rw [macLoop, hvalue, if_pos (by omega),
      ih fuel (i + 1) (number + 1) (by omega) (by omega) (by omega), macTail_eq, hadvanced,
      macLines_succ]
    rfl

/-- More fuel gives the same lines. -/
theorem macLoop_mono {n : UInt8} {tmpMac : Block} {fuel fuel' : ℕ} {i : UInt8} {number : UInt32}
    {lines : List (List UInt8)} (h : macLoop charSigned n tmpMac fuel i number = some lines)
    (hle : fuel ≤ fuel') : macLoop charSigned n tmpMac fuel' i number = some lines := by
  induction fuel generalizing fuel' i number lines with
  | zero => cases h
  | succ fuel ih =>
    obtain ⟨fuel', rfl⟩ := Nat.exists_eq_add_one.mpr (Nat.lt_of_lt_of_le (Nat.succ_pos fuel) hle)
    rw [macLoop] at h ⊢
    split at h
    · rename_i hbelow
      obtain ⟨rest, hrest, hlines⟩ := Option.bind_eq_some_iff.mp h
      rw [if_pos hbelow, ih hrest (Nat.le_of_succ_le_succ hle)]
      exact hlines
    · rename_i hreached
      rw [if_neg hreached]
      exact h

/-! ## The command -/

section Command

variable {count : Int} {number number' macPrefix addr : AtshaBigInt} {s : St σ}

/-- A count that is converted to zero is refused.
SOURCE: main.c:248-252 -/
theorem macCommand_zero (env : Env σ) (charSigned : Bool) (number number' : AtshaBigInt) (s : St σ)
    (h : count % 256 = 0) (fuel : ℕ) :
    (macCommand env charSigned fuel count number number').run s =
      .ok ⟨1, [], "Bad MAC address count requested.\n"⟩ s := by
  have hnarrowed : toUnsignedChar count = 0 := by
    apply UInt8.toNat_inj.mp
    have hvalue := toUnsignedChar_toNat count
    rw [UInt8.toNat_zero]
    omega
  unfold macCommand
  dsimp only
  rw [hnarrowed, if_pos (UInt8.le_refl 0)]
  rfl

/-- Any other count is not. -/
theorem not_toUnsignedChar_le (h : count % 256 ≠ 0) : ¬ toUnsignedChar count ≤ 0 := by
  intro hzero
  have hvalue := toUnsignedChar_toNat count
  have hle := UInt8.le_iff_toNat_le.mp hzero
  rw [UInt8.toNat_zero] at hle
  omega

/-- Behind the two reads the words are checked, and the loop decides. -/
theorem macCommand_words (charSigned : Bool) (hwords : MacWords env number number' macPrefix addr s)
    (h : count % 256 ≠ 0) : ∃ (first : UInt32) (s₂ : St σ), first.toNat = macBase addr ∧
      ∀ fuel, (macCommand env charSigned fuel count number number').run s =
        if 2 ^ 24 ≤ macBase addr + (toUnsignedChar count).toNat then
          .ok ⟨4, [], "MAC address count is to big!\n"⟩ s₂
        else match macLoop charSigned (toUnsignedChar count) (threeBytes macPrefix) fuel 0 first with
          | none => .error .outOfFuel s₂
          | some lines => .ok ⟨0, lines, ""⟩ s₂ := by
  obtain ⟨s₁, s₂, hwordRead, haddr⟩ := hwords.read
  obtain ⟨first, hfirst, hbase, hlt⟩ := macAsNumber_eq addr
  have hcopy : copyOut (macPrefix.data.val.drop 1) 3 = some (threeBytes macPrefix) := by
    apply copyOut_of_le
    rw [List.length_drop, macPrefix.data.property]
    decide
  have htooBig : first > 0xFFFFFF - (toUnsignedChar count).toUInt32 ↔
      2 ^ 24 ≤ macBase addr + (toUnsignedChar count).toNat := by
    have hn := (toUnsignedChar count).toNat_lt
    have htop : (0xFFFFFF : UInt32).toNat = 0xFFFFFF := by decide
    have hle : (toUnsignedChar count).toUInt32 ≤ 0xFFFFFF := by
      rw [UInt32.le_iff_toNat_le, UInt8.toNat_toUInt32, htop]
      omega
    have hlimit : (0xFFFFFF - (toUnsignedChar count).toUInt32).toNat =
        0xFFFFFF - (toUnsignedChar count).toNat := by
      rw [UInt32.toNat_sub_of_le _ _ hle, UInt8.toNat_toUInt32, htop]
    rw [gt_iff_lt, UInt32.lt_iff_toNat_lt, hlimit, hbase]
    omega
  refine ⟨first, s₂, hbase, ?_⟩
  intro fuel
  unfold macCommand
  dsimp only
  rw [if_neg (not_toUnsignedChar_le h), run_bind_of_run hwordRead]
  dsimp only
  rw [if_neg (not_not.mpr rfl), run_bind_of_run haddr]
  dsimp only
  have htmpMac : (access (copyOut (macPrefix.data.val.drop 1) 3) : Prog σ Block).run s₂ =
      .ok (threeBytes macPrefix) s₂ := by
    rw [hcopy]
    rfl
  have hnumber : (access (macAsNumber addr.data.val) : Prog σ UInt32).run s₂ = .ok first s₂ := by
    rw [hfirst]
    rfl
  rw [if_neg (not_not.mpr rfl), run_bind_of_run htmpMac, run_bind_of_run hnumber]
  by_cases hbig : 2 ^ 24 ≤ macBase addr + (toUnsignedChar count).toNat
  · rw [if_pos (htooBig.mpr hbig), if_pos hbig]
    rfl
  · rw [if_neg fun h => hbig (htooBig.mp h), if_neg hbig]
    cases macLoop charSigned (toUnsignedChar count) (threeBytes macPrefix) fuel 0 first with
    | none => rfl
    | some lines => rfl

/-- The count that takes the last address is refused with those that go beyond it.
SOURCE: main.c:281-284 -/
theorem macCommand_big (charSigned : Bool) (hwords : MacWords env number number' macPrefix addr s)
    (h : count % 256 ≠ 0) (hbig : 0x1000000 ≤ (macBase addr : Int) + count % 256) :
    ∃ s', ∀ fuel, (macCommand env charSigned fuel count number number').run s =
      .ok ⟨4, [], "MAC address count is to big!\n"⟩ s' := by
  obtain ⟨first, s', -, hrun⟩ := macCommand_words charSigned hwords h
  have hvalue := toUnsignedChar_toNat count
  refine ⟨s', fun fuel => ?_⟩
  rw [hrun fuel, if_pos (by omega)]

/-- Any other count is listed for the byte that it is narrowed to, if the counter reaches it. -/
theorem macCommand_lists (hwords : MacWords env number number' macPrefix addr s)
    (h : count % 256 ≠ 0) (hsmall : (macBase addr : Int) + count % 256 < 0x1000000)
    (hreached : charSigned = true → count % 256 < 128) {result : CommandResult}
    (hresult : result =
      ⟨0, macLines (threeBytes macPrefix) (macBase addr) (toUnsignedChar count).toNat, ""⟩) :
    (∃ fuel s', (macCommand env charSigned fuel count number number').run s = .ok result s') ∧
      ∀ fuel r s', (macCommand env charSigned fuel count number number').run s = .ok r s' →
        r = result := by
  obtain ⟨first, s₂, hfirst, hrun⟩ := macCommand_words charSigned hwords h
  have hvalue := toUnsignedChar_toNat count
  have hn : charSigned = true → (toUnsignedChar count).toNat < 128 := by
    intro hsigned
    have := hreached hsigned
    omega
  have hloop : ∀ fuel > (toUnsignedChar count).toNat, macLoop charSigned (toUnsignedChar count)
      (threeBytes macPrefix) fuel 0 first = some result.stdout := by
    intro fuel hfuel
    rw [macLoop_reaches hn (threeBytes macPrefix) _ fuel 0 first
      (by rw [UInt8.toNat_zero]; omega) (by omega) hfuel, hfirst, hresult]
  have hfits : ¬ 2 ^ 24 ≤ macBase addr + (toUnsignedChar count).toNat := by omega
  simp only [if_neg hfits] at hrun
  constructor
  · refine ⟨(toUnsignedChar count).toNat + 1, s₂, ?_⟩
    rw [hrun, hloop _ (Nat.lt_succ_self _), hresult]
  · intro fuel r s' hr
    rw [hrun] at hr
    cases hlines : macLoop charSigned (toUnsignedChar count) (threeBytes macPrefix) fuel 0 first with
    | none =>
      rw [hlines] at hr
      cases hr
    | some lines =>
      rw [hlines] at hr
      have hmore := macLoop_mono hlines (Nat.le_add_right fuel ((toUnsignedChar count).toNat + 1))
      rw [hloop _ (by omega)] at hmore
      obtain rfl := Option.some_inj.mp hmore
      rw [← (EStateM.Result.ok.inj hr).1, hresult]

/-- It never ends where the counter stays below the count. -/
theorem macCommand_below (hwords : MacWords env number number' macPrefix addr s)
    (hsmall : (macBase addr : Int) + count % 256 < 0x1000000) (hbelow : 128 ≤ count % 256)
    (fuel : ℕ) : ∃ s', (macCommand env true fuel count number number').run s =
      .error .outOfFuel s' := by
  have hne : count % 256 ≠ 0 := by omega
  obtain ⟨first, s', -, hrun⟩ := macCommand_words true hwords hne
  have hvalue := toUnsignedChar_toNat count
  refine ⟨s', ?_⟩
  rw [hrun fuel, if_neg (by omega), macLoop_below (by omega)]

end Command

/-! ## The list -/

/-- The lines are those of the addresses, one for each number. -/
theorem exactList_macLines {macPrefix : Block} (hlength : macPrefix.length = 3) {base n : ℕ}
    (h : base + n < 2 ^ 24) : ExactList n macPrefix base ⟨0, macLines macPrefix base n, ""⟩ where
  succeeded := rfl
  counted := by simp [macLines]
  line k hk := by
    have hlt : k < n := by simpa [macLines] using hk
    refine ⟨by simp [macLines], ?_⟩
    omega
  distinct := by
    apply List.Nodup.map_on _ List.nodup_range
    intro k hk j hj hsame
    rw [List.mem_range] at hk hj
    have := macText_inj hlength (by omega) (by omega) hsame
    omega

/-- A command that always ends in one way is exact when this way is. -/
theorem macListExact_iff_of_run {count : Int} {number number' macPrefix addr : AtshaBigInt}
    {s : St σ} {result : CommandResult}
    (hends : ∃ fuel s', (macCommand env charSigned fuel count number number').run s =
      .ok result s')
    (hsame : ∀ fuel r s', (macCommand env charSigned fuel count number number').run s = .ok r s' →
      r = result) :
    MacListExact env charSigned count number number' macPrefix addr s ↔
      CountRefused count (macBase addr) result ∨
        ExactList count (threeBytes macPrefix) (macBase addr) result := by
  constructor
  · rintro ⟨fuel, r, s', hrun, hr⟩
    rw [hsame fuel r s' hrun] at hr
    exact hr
  · intro hr
    obtain ⟨fuel, s', hrun⟩ := hends
    exact ⟨fuel, result, s', hrun, hr⟩

/-- A count that is refused is refused rightly exactly when there is a reason. -/
theorem exact_of_failed {count : Int} {macPrefix : Block} {base : ℕ} {result : CommandResult}
    (hfailed : result.exitCode ≠ 0) (hsilent : result.stdout = []) :
    CountRefused count base result ∨ ExactList count macPrefix base result ↔
      count < 1 ∨ 255 < count ∨ 0xFFFFFF < base + count - 1 := by
  constructor
  · rintro (hrefused | hlisted)
    · exact hrefused.reason
    · exact absurd hlisted.succeeded hfailed
  · intro hreason
    exact .inl ⟨hfailed, hsilent, hreason⟩

/-- The prefix has three bytes. -/
theorem threeBytes_length (word : AtshaBigInt) : (threeBytes word).length = 3 := by
  rw [threeBytes, List.length_take, List.length_drop, word.data.property]
  rfl

/-- Whatever the words are and however a `char` is read, the command does what it is meant to do
exactly for the counts described.
SOURCE: main.c:247-296 -/
theorem mac_list_exact_iff (env : Env σ) (charSigned : Bool) (count : Int)
    (number number' macPrefix addr : AtshaBigInt) (s : St σ)
    (hwords : MacWords env number number' macPrefix addr s) :
    MacListExact env charSigned count number number' macPrefix addr s ↔
      MacCountSound charSigned count (macBase addr) := by
  have hvalue := toUnsignedChar_toNat count
  unfold MacCountSound
  by_cases hzero : count % 256 = 0
  · -- nothing is left of a multiple of 256
    have hrun := macCommand_zero env charSigned number number' s hzero
    rw [macListExact_iff_of_run ⟨0, s, hrun 0⟩ fun fuel r s' hr => by
        rw [hrun fuel] at hr
        exact (EStateM.Result.ok.inj hr).1.symm,
      exact_of_failed (by decide) rfl]
    split <;> omega
  · by_cases hbig : 0x1000000 ≤ (macBase addr : Int) + count % 256
    · obtain ⟨s', hrun⟩ := macCommand_big charSigned hwords hzero hbig
      rw [macListExact_iff_of_run ⟨0, s', hrun 0⟩ fun fuel r s' hr => by
          rw [hrun fuel] at hr
          exact (EStateM.Result.ok.inj hr).1.symm,
        exact_of_failed (by decide) rfl]
      split <;> omega
    · by_cases hreached : charSigned = true → count % 256 < 128
      · obtain ⟨hends, hsame⟩ := macCommand_lists hwords hzero (by omega) hreached rfl
        have hlist := @exactList_macLines (threeBytes macPrefix) (threeBytes_length macPrefix)
          (macBase addr) (toUnsignedChar count).toNat (by omega)
        rw [macListExact_iff_of_run hends hsame]
        by_cases hrange : 1 ≤ count ∧ count ≤ 255
        · have hcount : ((toUnsignedChar count).toNat : Int) = count := by omega
          rw [hcount] at hlist
          rw [if_pos hrange]
          refine iff_of_true (.inr hlist) (.inr ⟨by omega, fun hsigned => ?_⟩)
          have := hreached hsigned
          omega
        · rw [if_neg hrange]
          apply iff_of_false
          · rintro (hrefused | hlisted)
            · exact hrefused.failed rfl
            · have hcounted := hlisted.counted.symm.trans hlist.counted
              omega
          · omega
      · -- a signed counter stays below the count
        obtain ⟨rfl, hbelow⟩ := Classical.not_imp.mp hreached
        apply iff_of_false
        · rintro ⟨fuel, result, s', hrun, -⟩
          obtain ⟨t, herror⟩ := macCommand_below hwords (by omega) (Int.not_lt.mp hbelow) fuel
          rw [herror] at hrun
          cases hrun
        · split
          · rintro (hbeyond | ⟨-, hcounter⟩)
            · omega
            · have := hcounter rfl
              omega
          · omega

/-- An emulated device has the words of its file. -/
theorem macWords_of_overFile {layout : ConfigLayout} {s : St σ}
    (h : OverFile layout.text s.handle) (env : Env σ) (number number' : AtshaBigInt) :
    ∃ macPrefix addr, MacWords env number number' macPrefix addr s ∧
      threeBytes addr = (layout.otp 4).bytes.drop 1 := by
  have hread : wp (atshaRawOtpRead env atsha204OtpMemoryMapMacPrefix number)
      (AfterRead (some (layout.otp 3).bytes) s) (fun _ => False) s :=
    wp_read_some (wp_otpRead_emulation h.layer _ number) (storedOtp_layout h 3)
  obtain ⟨⟨_, macPrefix⟩, s₁, hfirst, rfl, -, hkept⟩ := (wp_returns_iff _ _ _).mp hread
  have h₁ : OverFile layout.text s₁.handle := h.kept hkept
  have haddr : wp (atshaRawOtpRead env atsha204OtpMemoryMapMacAddr number')
      (AfterRead (some (layout.otp 4).bytes) s₁) (fun _ => False) s₁ :=
    wp_read_some (wp_otpRead_emulation h₁.layer _ number') (storedOtp_layout h₁ 4)
  obtain ⟨⟨_, addr⟩, s₂, hsecond, rfl, hholds, -⟩ := (wp_returns_iff _ _ _).mp haddr
  refine ⟨macPrefix, addr, ⟨s₁, s₂, hfirst, hsecond⟩, ?_⟩
  have htake := hholds.take_eq
  rw [layoutLine_bytes_length] at htake
  rw [← htake, List.drop_take, threeBytes]

/-- In the file of zeros the first address is zero. -/
theorem macWords_marked : ∃ (s : St (List (Option Frame))) (number macPrefix addr : AtshaBigInt),
    MacWords replayEnv number number macPrefix addr s ∧ macBase addr = 0 := by
  obtain ⟨s, -, hover⟩ := exists_opened replayEnv markedLayout (replayState [])
  obtain ⟨macPrefix, addr, hwords, haddr⟩ := macWords_of_overFile hover replayEnv
    ⟨0, List.Vector.replicate _ 0⟩ ⟨0, List.Vector.replicate _ 0⟩
  refine ⟨s, _, macPrefix, addr, hwords, ?_⟩
  rw [macBase, haddr]
  exact congrArg (fun bytes => bigEndian (bytes.drop 1)) (List.map_replicate)

/-- Three addresses are listed from that file. -/
theorem mac_list_exact_three : ∃ (s : St (List (Option Frame))) (number macPrefix addr : AtshaBigInt),
    MacWords replayEnv number number macPrefix addr s ∧
      MacListExact replayEnv true 3 number number macPrefix addr s := by
  obtain ⟨s, number, macPrefix, addr, hwords, hbase⟩ := macWords_marked
  refine ⟨s, number, macPrefix, addr, hwords, ?_⟩
  refine (mac_list_exact_iff replayEnv true 3 number number macPrefix addr s hwords).mpr ?_
  rw [hbase, MacCountSound, if_pos (by decide)]
  exact .inr ⟨by decide, fun _ => by decide⟩

/-- Two hundred of them are listed without an end, where `char` is signed. -/
theorem mac_list_exact_fails : ∃ (s : St (List (Option Frame))) (number macPrefix addr : AtshaBigInt),
    MacWords replayEnv number number macPrefix addr s ∧ macBase addr = 0 ∧
      ¬ MacListExact replayEnv true 200 number number macPrefix addr s := by
  obtain ⟨s, number, macPrefix, addr, hwords, hbase⟩ := macWords_marked
  refine ⟨s, number, macPrefix, addr, hwords, hbase, ?_⟩
  have hsmall : (macBase addr : Int) + 200 % 256 < 0x1000000 := by
    rw [hbase]
    decide
  rintro ⟨fuel, result, s', hrun, -⟩
  obtain ⟨t, herror⟩ := macCommand_below hwords hsmall (by decide) fuel
  rw [herror] at hrun
  cases hrun

end Atsha204.Analysis
