import Atsha204.Analysis.EmulatedFile
import Atsha204.Interface.HexText

/-!
# Hexadecimal texts: what is accepted, and what ought to be

The five parse loops are one loop, and each succeeds exactly when it can take its pairs of
characters two by two behind delimiters, with more text behind each of them
(`parseLoop_run_iff`). Nothing looks at whether these characters are digits: `strtol` has a
value for any two. So a loop is sound on a line exactly when they are
(`parse_loops_sound_iff`), and a line of letters is read as a key of zeros
(`parse_loops_sound_fails`).

Nor does the loop accept a last pair that the text ends with. A number in any of the
documented forms is accepted exactly when a newline follows it, and so is a serial number
at the end of the configuration file (`text_forms_accepted_iff`).
-/

set_option autoImplicit false

namespace Atsha204.Analysis

open Atsha204.Library
open Atsha204.Model
open Atsha204.Interface

/-! ## The loops -/

/-- Behind a hole there is no other one, in any of the loops. -/
theorem parseLoop_idem (loop : ParseLoop) (i : ℕ) :
    loop.nextIndex (loop.nextIndex i) = loop.nextIndex i := by
  cases loop with
  | serialNumber => exact skipHole_idem i
  | key | otp | config _ _ | challenge => rfl

/-- Each loop visits its places in their order. -/
theorem parseLoop_visits (loop : ParseLoop) :
    Visits loop.nextIndex loop.count 0 loop.indices := by
  cases loop with
  | serialNumber => exact visits_skipHole
  | key | otp | config _ _ | challenge => exact visits_id _ 0 _ (Nat.zero_add _).symm

/-- A buffer with a line in it: the line, a terminator, and bytes that do not matter. -/
theorem line_split {line : List UInt8} (h : 0 ∈ line) :
    ∃ junk, line = chunkText line ++ 0 :: junk := by
  obtain ⟨front, old, rfl⟩ := List.append_of_mem h
  obtain ⟨junk, hjunk, htext⟩ := terminated_split front old
  exact ⟨junk, by rw [chunkText, htext, hjunk]⟩

/-- The loops succeed exactly when the characters can be taken two by two, and write what
`strtol` makes of them.
SOURCE: emulation.c:321-343, init.c:50-66, main.c:71-89 -/
theorem parseLoop_run_iff (loop : ParseLoop) {line : List UInt8} (hline : 0 ∈ line)
    (out out' : Block) : loop.run line out = some (some out') ↔
      ∃ pairs, readPairs isDelimiter Prod.mk loop.indices.length (chunkText line) = some pairs ∧
        pokeEach loop.base loop.indices (pairs.map fun p => getNumberFromHexChar p.1 p.2) out =
          some out' := by
  obtain ⟨junk, hjunk⟩ := line_split hline
  have hloop := @parseHexLoop_eq_ok_iff _ (parseLoop_idem loop) _ loop.base _ _
    (parseLoop_visits loop) (chunkText line) junk out out'
  rw [← hjunk] at hloop
  unfold ParseLoop.run
  rw [hloop]
  simp only [@readPairs_map _ _ isDelimiter getNumberFromHexChar, Option.map_eq_some_iff]
  constructor
  · rintro ⟨_, ⟨pairs, hpairs, rfl⟩, hpoke⟩
    exact ⟨pairs, hpairs, hpoke⟩
  · rintro ⟨pairs, hpairs, hpoke⟩
    exact ⟨_, ⟨pairs, hpairs, rfl⟩, hpoke⟩

/-! ## Soundness -/

/-- A block with room for all that a loop writes. -/
theorem pokeEach_isSome (base : ℕ) {indices : List ℕ} {values block : Block} {n : ℕ}
    (hindices : ∀ i ∈ indices, i < n) (hblock : base + n ≤ block.length) :
    ∃ block', pokeEach base indices values block = some block' := by
  induction indices generalizing values block with
  | nil => exact ⟨block, by cases values <;> rfl⟩
  | cons i indices ih =>
    cases values with
    | nil => exact ⟨block, rfl⟩
    | cons a values =>
      have hi := hindices i (.head _)
      rw [pokeEach, poke, if_pos (by omega), Option.bind_some]
      exact ih (fun j hj => hindices j (.tail _ hj)) (by rwa [List.length_set])

/-- No round writes behind the last one. -/
theorem indices_lt_count (loop : ParseLoop) : ∀ i ∈ loop.indices, i < loop.count := by
  have hrange : ∀ n : ℕ, ∀ i ∈ List.range' 0 n, i < n := by
    intro n i hi
    rw [List.mem_range'_1] at hi
    omega
  cases loop with
  | serialNumber => decide
  | key | otp | config _ _ | challenge => exact hrange _

/-- A pair of digits with its value. -/
theorem map_getNumberFromHexChar {pairs : List (UInt8 × UInt8)}
    (h : ∀ p ∈ pairs, (hexDigitValue p.1).isSome = true ∧ (hexDigitValue p.2).isSome = true) :
    (pairs.map fun p => getNumberFromHexChar p.1 p.2) = pairs.map fun p => pairValue p.1 p.2 :=
  List.map_congr_left fun p hp => getNumberFromHexChar_digits (h p hp).1 (h p hp).2

/-- On a line whose characters are digits where the loop takes them for digits, it is sound. -/
theorem soundOn_of_digitsOnly {loop : ParseLoop} {line : List UInt8} (hline : 0 ∈ line)
    (h : DigitsOnly loop line) : SoundOn loop line := by
  intro out out' hrun
  obtain ⟨pairs, hpairs, hpoke⟩ := (parseLoop_run_iff loop hline out out').mp hrun
  have hdigits := h pairs hpairs
  have hlen := readPairs_length hpairs
  obtain ⟨items, rest, htext, rfl, hdelims⟩ := exists_render_of_readPairs hpairs
  have hvalues : ((items.map fun item => (item.first, item.second)).map
      fun p => pairValue p.1 p.2) = items.map fun item => pairValue item.first item.second := by
    rw [List.map_map]
    rfl
  rw [map_getNumberFromHexChar hdigits, hvalues] at hpoke
  rw [List.length_map] at hlen
  refine ⟨_, ⟨items, rest, htext, ?_, rfl⟩, ?_, hpoke⟩
  · intro item hitem
    exact ⟨hdelims item hitem, hdigits _ (List.mem_map_of_mem hitem)⟩
  · rw [List.length_map, hlen]

/-- On a line that it can take two by two, a sound loop has taken digits. -/
theorem digitsOnly_of_soundOn {loop : ParseLoop} {line : List UInt8} (hline : 0 ∈ line)
    (h : SoundOn loop line) : DigitsOnly loop line := by
  intro pairs hpairs
  obtain ⟨out', hpoke⟩ := @pokeEach_isSome loop.base loop.indices
    (pairs.map fun p => getNumberFromHexChar p.1 p.2)
    (List.replicate (loop.base + loop.count) 0) loop.count (indices_lt_count loop) (by simp)
  have hrun := (parseLoop_run_iff loop hline _ _).mpr ⟨pairs, hpairs, hpoke⟩
  obtain ⟨values, ⟨items, rest, htext, hitems, rfl⟩, hlen, -⟩ := h _ _ hrun
  rw [List.length_map] at hlen
  rw [← hlen, htext] at hpairs
  obtain rfl := readPairs_of_render (fun item hitem => (hitems item hitem).1)
    (fun item hitem => (hexDigit_plain (hitems item hitem).2.1).2.2.1) hpairs
  intro p hp
  obtain ⟨item, hitem, rfl⟩ := List.mem_map.mp hp
  exact (hitems item hitem).2

/-- Each of the five parse loops is sound on exactly those lines whose characters, taken two by
two behind delimiters, are hexadecimal digits, or that are too short.
SOURCE: tools.c:30-39, emulation.c:321-343, emulation.c:372-389, emulation.c:423-440,
init.c:50-66, main.c:71-89 -/
theorem parse_loops_sound_iff (loop : ParseLoop) (line : List UInt8) (hline : 0 ∈ line) :
    SoundOn loop line ↔ DigitsOnly loop line :=
  ⟨digitsOnly_of_soundOn hline, soundOn_of_digitsOnly hline⟩

/-- An OTP word in digits of either case, with delimiters. -/
def wordLine : List UInt8 :=
  [0x31, 0x46, 0x20, 0x61, 0x42, 0x3A, 0x30, 0x39, 0x37, 0x37, 0x0A, 0]

/-- It is read soundly. -/
theorem parse_loops_sound_word : SoundOn .otp wordLine := by
  apply (parse_loops_sound_iff .otp wordLine (by decide)).mpr
  intro pairs hpairs
  have hread : readPairs isDelimiter Prod.mk 4 (chunkText wordLine) =
      some [(0x31, 0x46), (0x61, 0x42), (0x30, 0x39), (0x37, 0x37)] := by decide
  obtain rfl := Option.some_inj.mp (hread.symm.trans hpairs)
  exact List.forall_iff_forall_mem.mp (by decide)

/-- A line of letters that are no digits, and a newline. -/
def lettersLine : List UInt8 := List.replicate 8 0x7A ++ [0x0A, 0]

/-- An OTP word of eight letters `z` is read as four zeros. -/
theorem parse_loops_sound_fails :
    ¬ ∀ (loop : ParseLoop) (line : List UInt8), 0 ∈ line → SoundOn loop line := by
  intro h
  have hdigits := digitsOnly_of_soundOn (by decide) (h .otp lettersLine (by decide))
  have hfirst := (hdigits (List.replicate 4 (0x7A, 0x7A)) (by decide) (0x7A, 0x7A) (by decide)).1
  revert hfirst
  decide

/-! ## The written forms -/

/-- Either case of a digit has its value. -/
theorem hexDigitValue_digit (digitCase : DigitCase) {n : ℕ} (h : n < 16) :
    hexDigitValue (digitCase.digit n) = some n := by
  have hall : ∀ n : Fin 16, hexDigitValue (DigitCase.upper.digit n) = some n.val ∧
      hexDigitValue (DigitCase.lower.digit n) = some n.val := by decide
  cases digitCase with
  | upper => exact (hall ⟨n, h⟩).1
  | lower => exact (hall ⟨n, h⟩).2

/-- The pair of a byte, in either case, stands for it. -/
theorem pairValue_digits (digitCase : DigitCase) (byte : UInt8) :
    pairValue (digitCase.digit (byte.toNat / 16)) (digitCase.digit (byte.toNat % 16)) = byte := by
  have hlt := byte.toNat_lt
  rw [pairValue, hexDigitValue_digit digitCase (by omega), hexDigitValue_digit digitCase (by omega),
    Option.getD_some, Option.getD_some, Nat.div_add_mod]
  exact UInt8.ofNat_toNat

section Form

variable (form : TextForm) (value : Block)

/-- What is written between the pairs are delimiters. -/
theorem items_delims : ∀ item ∈ form.items value, ∀ c ∈ item.delims, isDelimiter c = true := by
  intro item hitem
  obtain ⟨i, hi, rfl⟩ := List.mem_mapIdx.mp hitem
  dsimp only
  split
  · simp
  · cases form.joiner <;> exact List.all_eq_true.mp (by decide)

/-- The pairs are made of digits. -/
theorem items_digits : ∀ item ∈ form.items value,
    (hexDigitValue item.first).isSome = true ∧ (hexDigitValue item.second).isSome = true := by
  intro item hitem
  obtain ⟨i, hi, rfl⟩ := List.mem_mapIdx.mp hitem
  have hlt := value[i].toNat_lt
  dsimp only
  rw [hexDigitValue_digit _ (by omega), hexDigitValue_digit _ (by omega)]
  exact ⟨rfl, rfl⟩

/-- There is a pair for each byte. -/
theorem items_length : (form.items value).length = value.length := by
  simp [TextForm.items]

/-- The pairs stand for the number. -/
theorem items_values :
    ((form.items value).map fun item => pairValue item.first item.second) = value := by
  apply List.ext_getElem
  · simp [TextForm.items]
  · intro i hi hi'
    simp [TextForm.items, pairValue_digits]

/-- A form of a number takes at most three characters for each of its bytes. -/
theorem text_length_le : (form.text value).length ≤ 3 * value.length := by
  have hdelims : ∀ item ∈ form.items value, item.delims.length ≤ 1 := by
    intro item hitem
    obtain ⟨i, hi, rfl⟩ := List.mem_mapIdx.mp hitem
    dsimp only
    split
    · exact Nat.zero_le _
    · cases form.joiner <;> decide
  rw [TextForm.text, ← items_length form value]
  exact renderPairs_length_le hdelims

end Form

/-- `print_number` writes a documented form and a newline.
SOURCE: main.c:34-39 -/
theorem printNumber_eq (value : List.Vector UInt8 atshaMaxDataSize) :
    printNumber atshaMaxDataSize value.val =
      some (TextForm.text ⟨.nothing, fun _ => .upper⟩ value.val ++ [0x0A]) := by
  have hitems : TextForm.items ⟨.nothing, fun _ => .upper⟩ value.val =
      value.val.map fun byte =>
        ⟨[], upperDigit (byte.toNat / 16), upperDigit (byte.toNat % 16)⟩ := by
    apply List.ext_getElem
    · simp [TextForm.items]
    · intro i hi hi'
      simp only [TextForm.items, List.getElem_mapIdx, List.getElem_map]
      congr 1
      split <;> rfl
  have htext : TextForm.text ⟨.nothing, fun _ => .upper⟩ value.val = value.val.flatMap
      fun byte => [upperDigit (byte.toNat / 16), upperDigit (byte.toNat % 16)] := by
    rw [TextForm.text, hitems, renderPairs, List.flatMap_map]
    rfl
  rw [htext, printNumber, copyOut_all value.property]
  rfl

/-! ## Challenges -/

/-- A line of the standard input is taken for a challenge exactly when its pairs can be read.
SOURCE: main.c:63-89 -/
theorem challengeOfInput_ok_iff {stdin chunk rest : List UInt8}
    (hchunk : nextChunk isNewline (buffsize - 1) stdin = some (chunk, rest))
    (buff : InputBuffer) (challenge : AtshaBigInt) (value : List.Vector UInt8 atshaMaxDataSize) :
    challengeOfInput stdin buff challenge = some (.ok ⟨atshaMaxDataSize, value⟩) ↔
      readPairs isDelimiter getNumberFromHexChar atshaMaxDataSize (chunkText chunk) =
        some value.val := by
  have hfits : (chunk ++ [0]).length ≤ buffsize := by
    have hlen := nextChunk_length_le hchunk
    have hsize : buffsize = 512 := rfl
    rw [List.length_append, List.length_singleton]
    omega
  obtain ⟨buff', hbuff', hval⟩ := overwrite_of_le buff hfits
  rw [List.append_assoc, List.singleton_append] at hval
  obtain ⟨junk, hjunk, htext⟩ := terminated_split chunk (buff.val.drop (chunk ++ [0]).length)
  rw [← hval] at hjunk htext
  have hloop := fun out' => @parseHexLoop_eq_ok_iff id (fun _ => rfl) _ 0 _ _
    (visits_id atshaMaxDataSize 0 atshaMaxDataSize (Nat.zero_add _).symm) (chunkText chunk) junk
    challenge.data.val out'
  rw [← hjunk, List.length_range'] at hloop
  have hread : readChallenge stdin buff = some (some buff') := by
    simp only [readChallenge, hchunk, hbuff']
    rfl
  have hall : ∀ values : Block, values.length = atshaMaxDataSize →
      pokeEach 0 (List.range' 0 atshaMaxDataSize) values challenge.data.val = some values := by
    intro values hvalues
    have hpoke := pokeEach_all values challenge.data.val
      (hvalues.trans challenge.data.property.symm)
    rwa [hvalues] at hpoke
  simp only [challengeOfInput, hread, getChallengeFromInput, htext, Option.bind_eq_bind,
    Option.bind_some]
  generalize parseHexLoop id atshaMaxDataSize 0 buff'.val (chunkText chunk).length 0
    challenge.data.val = result at hloop ⊢
  constructor
  · intro h
    rcases result with _ | _ | data
    · cases h
    · cases h
    · obtain ⟨values, hvalues, hpoke⟩ := (hloop data).mp rfl
      obtain rfl : values = data :=
        Option.some_inj.mp ((hall values (readPairs_length hvalues)).symm.trans hpoke)
      have hdata := overwrite_full challenge.data values (readPairs_length hvalues)
      simp only [Option.bind_some, hdata] at h
      have hsame : value = ⟨values, readPairs_length hvalues⟩ := by cases h; rfl
      rw [hvalues, hsame]
  · intro h
    obtain rfl := (hloop value.val).mpr ⟨_, h, hall _ value.property⟩
    simp only [Option.bind_some, overwrite_full challenge.data value.val value.property]
    rfl

/-- A text that no character ends early is the whole chunk, up to and with its newline. -/
theorem nextChunk_ending {n : ℕ} {text : List UInt8} (hne : text ≠ [])
    (hplain : ∀ c ∈ text, c ≠ 0 ∧ isNewline c = false) (hfits : text.length < n)
    (ending : Ending) :
    (∀ rest, ending = .newline rest → nextChunk isNewline n (text ++ ending.text) =
      some (text ++ [0x0A], rest) ∧ chunkText (text ++ [0x0A]) = text ++ [0x0A]) ∧
    (ending = .endOfInput → nextChunk isNewline n (text ++ ending.text) = some (text, []) ∧
      chunkText text = text) := by
  have hnewline : ∀ c ∈ text, isNewline c = false := fun c hc => (hplain c hc).2
  constructor
  · rintro rest rfl
    have hline : Library.Line isNewline n (text ++ [0x0A]) :=
      ⟨⟨text, 0x0A, rfl, rfl, hnewline⟩, by simpa using Nat.succ_le_of_lt hfits⟩
    have hchunk := nextChunk_line hline rest
    rw [List.append_assoc] at hchunk
    refine ⟨hchunk, ?_⟩
    rw [chunkText, List.takeWhile_eq_self_iff]
    intro c hc
    rcases List.mem_append.mp hc with hc | hc
    · simpa using (hplain c hc).1
    · rw [List.mem_singleton.mp hc]
      rfl
  · rintro rfl
    rw [Ending.text, List.append_nil]
    refine ⟨nextChunk_last hne hnewline hfits.le, ?_⟩
    rw [chunkText, List.takeWhile_eq_self_iff]
    intro c hc
    simpa using (hplain c hc).1

/-- A challenge in a documented form is accepted when a newline follows it, and only then. -/
theorem challengeAccepted_iff (form : TextForm) (value : List.Vector UInt8 atshaMaxDataSize)
    (ending : Ending) : ChallengeAccepted form value ending ↔ ending.IsNewline := by
  have hcount : (form.items value.val).length = atshaMaxDataSize :=
    (items_length form value.val).trans value.property
  have hne : form.items value.val ≠ [] := by
    apply List.ne_nil_of_length_pos
    rw [hcount]
    decide
  have hdelims := items_delims form value.val
  have hdigits := items_digits form value.val
  have hread : ∀ {tail}, tail ≠ [] → readPairs isDelimiter getNumberFromHexChar atshaMaxDataSize
      (form.text value.val ++ tail) = some value.val := by
    intro tail htail
    have hitems := readPairs_items hdelims hdigits htail
    rwa [hcount, items_values] at hitems
  have hlen : (form.text value.val).length < buffsize - 1 := by
    have hle := text_length_le form value.val
    have h32 : value.val.length = 32 := value.property
    have hsize : buffsize = 512 := rfl
    omega
  have htext : form.text value.val ≠ [] := renderPairs_ne_nil hne
  obtain ⟨hnewline, hend⟩ := nextChunk_ending htext
    (fun c hc => renderPairs_plain hdelims hdigits hc) hlen ending
  cases ending with
  | newline rest =>
    refine iff_of_true ?_ ⟨rest, rfl⟩
    intro buff challenge
    obtain ⟨hchunk, hself⟩ := hnewline rest rfl
    rw [challengeOfInput_ok_iff hchunk, hself]
    exact hread (List.cons_ne_nil _ _)
  | endOfInput =>
    refine iff_of_false ?_ (by rintro ⟨_, h⟩; cases h)
    intro h
    obtain ⟨hchunk, hself⟩ := hend rfl
    have hok := (challengeOfInput_ok_iff hchunk (List.Vector.replicate _ 0)
      ⟨0, List.Vector.replicate _ 0⟩ value).mp (h _ _)
    have hnone := readPairs_items_nil hdelims hdigits hne
    rw [hself] at hok
    rw [hcount] at hnone
    cases hnone.symm.trans hok

/-! ## The serial number at the end of the file -/

/-- The last line of the file, with what follows its last digit. -/
theorem lineBytes_front (layout : ConfigLayout) (tail : List UInt8) :
    lineBytes (layout.front ++ tail) 32 9 =
      ((nextChunk isNewline (buffsizeLine - 1) (renderPairs layout.sn.items ++ tail)).map
        Prod.fst).bind fun chunk =>
          readPairs isDelimiter getNumberFromHexChar 9 (chunkText chunk) := by
  set lines := List.ofFn (fun i => (layout.keys i).text) ++ List.ofFn (fun i => (layout.otp i).text)
    with hlines
  have hall : ∀ line ∈ lines, Library.Line isNewline (buffsizeLine - 1) line := by
    intro line hline
    exact configLayout_isLine layout line (List.mem_append_left _ hline)
  have hlen : lines.length = 32 := by simp [hlines]
  have hafter := afterChunks_lines hall (renderPairs layout.sn.items ++ tail)
  rw [hlen] at hafter
  rw [lineBytes, nthChunk, ConfigLayout.front, List.append_assoc, hafter, Option.bind_some]

/-- The serial number is accepted exactly before a newline. -/
theorem snAccepted_iff (layout : ConfigLayout) (ending : Ending) :
    SnAccepted layout ending ↔ ending.IsNewline := by
  have hlen : layout.sn.items.length = 9 := layout.sn.length_eq
  have hne : layout.sn.items ≠ [] := List.ne_nil_of_length_pos (by omega)
  have hfits : (renderPairs layout.sn.items).length < buffsizeLine - 1 := by
    have hline := layout.sn.fits
    have hsize : buffsizeLine = 128 := rfl
    rw [List.length_append, List.length_singleton] at hline
    omega
  obtain ⟨hnewline, hend⟩ := nextChunk_ending (renderPairs_ne_nil hne)
    (fun c hc => layoutLine_plain _ hc) hfits ending
  have hstored : ∀ {handle : AtshaHandle}, OverFile (layout.front ++ ending.text) handle →
      storedSn handle = lineBytes (layout.front ++ ending.text) 32 9 := by
    intro handle hover
    simp only [storedSn, hover.device, Bool.false_eq_true, if_false, hover.storedLine]
    rfl
  cases ending with
  | newline rest =>
    refine iff_of_true ?_ ⟨rest, rfl⟩
    intro σ env s number hlayer hdevice hfile
    obtain ⟨hchunk, hself⟩ := hnewline rest rfl
    have hbytes : lineBytes (layout.front ++ (Ending.newline rest).text) 32 9 =
        some layout.sn.bytes := by
      rw [lineBytes_front, hchunk, Option.map_some, Option.bind_some, hself]
      exact readPairs_layoutLine layout.sn
    have hdata := (hstored ⟨hlayer, hdevice, hfile⟩).trans hbytes
    obtain ⟨⟨_, r⟩, s', hrun, rfl, hholds, -⟩ := (wp_returns_iff _ _ _).mp
      (wp_read_some (@wp_chipSerialNumber_emulation σ env s hlayer number) hdata)
    exact ⟨r, s', hrun, hholds⟩
  | endOfInput =>
    refine iff_of_false ?_ (by rintro ⟨_, h⟩; cases h)
    intro h
    obtain ⟨hchunk, hself⟩ := hend rfl
    have hbytes : lineBytes (layout.front ++ Ending.endOfInput.text) 32 9 = none := by
      have hnone := readPairs_items_nil layout.sn.delims layout.sn.digits hne
      rw [hlen] at hnone
      rw [lineBytes_front, hchunk, Option.map_some, Option.bind_some, hself, hnone]
    let file : File := ⟨layout.front ++ Ending.endOfInput.text, []⟩
    let s : St (List (Option Frame)) := ⟨{ callocHandle with file := some file }, [], []⟩
    obtain ⟨r, s', hrun, -⟩ := h _ replayEnv s ⟨0, List.Vector.replicate _ 0⟩ rfl rfl rfl
    have hread := @wp_chipSerialNumber_emulation _ replayEnv s rfl ⟨0, List.Vector.replicate _ 0⟩
    have hnone : storedSn s.handle = none := (hstored ⟨rfl, rfl, rfl⟩).trans hbytes
    rw [hnone] at hread
    exact (hread.of_run hrun).1 rfl

/-! ## Complete values -/

/-- A value of 32 bytes in a documented form is accepted as a challenge exactly when a newline
follows it, so what `print_number` writes is read back; and an emulated device gives its
serial number exactly when a newline follows it in the file.
SOURCE: main.c:34-89, emulation.c:321-343 -/
theorem text_forms_accepted_iff (form : TextForm) (value : List.Vector UInt8 atshaMaxDataSize)
    (ending : Ending) (buff : InputBuffer) (challenge : AtshaBigInt) (layout : ConfigLayout) :
    (ChallengeAccepted form value ending ↔ ending.IsNewline) ∧
    (printNumber atshaMaxDataSize value.val).bind (challengeOfInput · buff challenge) =
      some (.ok ⟨atshaMaxDataSize, value⟩) ∧
    (SnAccepted layout ending ↔ ending.IsNewline) := by
  refine ⟨challengeAccepted_iff form value ending, ?_, snAccepted_iff layout ending⟩
  rw [printNumber_eq, Option.bind_some]
  exact (challengeAccepted_iff _ value (.newline [])).mpr ⟨[], rfl⟩ buff challenge

/-- Thirty-two zeros, as they are typed without a newline, are refused. -/
theorem text_forms_accepted_fails :
    ¬ ∀ (form : TextForm) (value : List.Vector UInt8 atshaMaxDataSize) (ending : Ending),
      ChallengeAccepted form value ending := by
  intro h
  obtain ⟨_, hnewline⟩ := (challengeAccepted_iff _ _ _).mp
    (h ⟨.nothing, fun _ => .upper⟩ (List.Vector.replicate _ 0) .endOfInput)
  cases hnewline

end Atsha204.Analysis
