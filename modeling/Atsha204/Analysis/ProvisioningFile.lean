import Atsha204.Analysis.EmulatedHandle
import Atsha204.Interface.Provisioning

/-!
# One file, two readers

`init` reads the configuration file from its start to the last OTP word, line after line;
the emulator goes back to the start for every read and skips lines. Both take a line for
the same bytes, so the file is good for the one exactly when it is good for the other
(`provisioning_reads_as_emulated`).
-/

set_option autoImplicit false

namespace Atsha204.Analysis

open Atsha204.Library
open Atsha204.Model
open Atsha204.Interface

variable {σ : Type} {env : Env σ}

/-! ## The reader of `init` -/

/-- The bytes that a chunk stands for. -/
def chunkBytes (count : ℕ) (chunk : List UInt8) : Option Block :=
  readPairs isDelimiter getNumberFromHexChar count (chunkText chunk)

/-- The bytes of a line are those of a chunk of the file. -/
theorem lineBytes_eq (content : List UInt8) (k count : ℕ) : lineBytes content k count =
    (nthChunk isNewline (buffsizeLine - 1) k content).bind (chunkBytes count) := rfl

/-- What the lines of a file decode to, read one after the other. -/
abbrev readLines (count : ℕ) : ℕ → List UInt8 → Option (Block × List UInt8) :=
  readChunks isNewline (chunkBytes count) (buffsizeLine - 1)

/-- What reading some lines comes to: the block `out` with their values in it, and the rest of
the file. -/
def AfterLines (lines : Option (Block × List UInt8)) (fill : Block → Block)
    (r : Option (Model.Line × Block)) (file file' : File) : Prop :=
  match lines with
  | some (values, rest) =>
    (∃ line, r = some (line, fill values)) ∧ file' = { file with rest := rest }
  | none => r = none

/-- The body of the loop of `read_config`. -/
def readItem (lineCnt item : ℕ) (acc : Model.Line × Block) :
    FileProg (Option (Model.Line × Block)) := do
  match ← fgets acc.1 with
  | none => return none
  | some line =>
    match ← orFault .outOfBounds
      (parseHexLoop id lineCnt (lineCnt * item) line.val (strlen line) 0 acc.2) with
    | none => return none
    | some data => return some (line, data)

/-- One line is read into its place.
SOURCE: init.c:45-67 -/
theorem wp_readItem {lineCnt item : ℕ} {line : Model.Line} {out : Block}
    (hout : lineCnt * item + lineCnt ≤ out.length) (file : File) :
    wp (readItem lineCnt item (line, out))
      (AfterLines (readLines lineCnt 1 file.rest) (fun values => out.take (lineCnt * item) ++
        values ++ out.drop (lineCnt * item + lineCnt)) · file)
      (fun _ => readLines lineCnt 1 file.rest = none) file := by
  have hindices : (List.range' 0 lineCnt).length = lineCnt := List.length_range'
  rw [readItem, wp_bind]
  cases hnext : nextChunk isNewline (buffsizeLine - 1) file.rest with
  | none =>
    rw [wp_of_run (fgets_run_none line hnext)]
    simp [readChunks, hnext, AfterLines]
  | some c =>
    obtain ⟨chunk, rest⟩ := c
    obtain ⟨line', junk, hrun, hval, hlen⟩ := fgets_run_some line hnext
    have hparse := @parse_line_iff id (fun _ => rfl) lineCnt (lineCnt * item) _
      (visits_id lineCnt 0 lineCnt (by omega)) _ _ _ hval hlen out
    rw [hindices] at hparse
    rw [wp_of_run hrun]
    simp only [wp_bind, wp_orFault]
    cases hread : chunkBytes lineCnt chunk with
    | some values =>
      have hlines : readLines lineCnt 1 file.rest = some (values, rest) := by
        simp [readChunks, hnext, hread]
      have hvalues : values.length = lineCnt := readPairs_length hread
      have hpoke : pokeEach (lineCnt * item) (List.range' 0 lineCnt) values out =
          some (out.take (lineCnt * item) ++ values ++ out.drop (lineCnt * item + lineCnt)) := by
        have hall := pokeEach_range' (lineCnt * item) 0 values out (by omega)
        rw [hvalues] at hall
        rw [hall, pokeAll, if_pos (by omega), Nat.add_zero, hvalues]
      rw [(hparse _).mpr ⟨values, hread, hpoke⟩, hlines]
      exact ⟨⟨line', rfl⟩, rfl⟩
    | none =>
      have hlines : readLines lineCnt 1 file.rest = none := by
        simp [readChunks, hnext, hread]
      rw [hlines]
      cases hresult : parseHexLoop id lineCnt (lineCnt * item) line'.val (strlen line') 0 out with
      | none => rfl
      | some r =>
        cases r with
        | none => rfl
        | some out' =>
          obtain ⟨values, hvalues, -⟩ := (hparse out').mp hresult
          rw [chunkBytes, hvalues] at hread
          cases hread

/-- A place that is filled, and the places behind it. -/
theorem fill_fill {out values back : Block} {a c d : ℕ} (hvalues : values.length = c)
    (hout : a + c + d ≤ out.length) :
    (out.take a ++ values ++ out.drop (a + c)).take (a + c) ++ back ++
        (out.take a ++ values ++ out.drop (a + c)).drop (a + c + d) =
      out.take a ++ (values ++ back) ++ out.drop (a + c + d) := by
  have hfront : (out.take a ++ values).length = a + c := by
    rw [List.length_append, List.length_take_of_le (by omega), hvalues]
  rw [List.take_left' hfront, ← List.drop_drop, List.drop_left' hfront, List.drop_drop]
  simp only [List.append_assoc]

/-- Some lines are read into their places, one after the other. -/
theorem wp_readItems (lineCnt start n : ℕ) {line : Model.Line} {out : Block}
    (hout : lineCnt * start + lineCnt * n ≤ out.length) (file : File) :
    wp (foldWhile (readItem lineCnt) (List.range' start n) (line, out))
      (AfterLines (readLines lineCnt n file.rest) (fun values => out.take (lineCnt * start) ++
        values ++ out.drop (lineCnt * start + lineCnt * n)) · file)
      (fun _ => readLines lineCnt n file.rest = none) file := by
  induction n generalizing start line out file with
  | zero =>
    refine ⟨⟨line, ?_⟩, rfl⟩
    simp
  | succ n ih =>
    rw [Nat.mul_succ] at hout
    have hsucc : readLines lineCnt (n + 1) file.rest = (readLines lineCnt 1 file.rest).bind
        fun first => (readLines lineCnt n first.2).map fun others =>
          (first.1 ++ others.1, others.2) := readChunks_succ ..
    rw [List.range'_succ, foldWhile, wp_bind, hsucc]
    have hitem := @wp_readItem lineCnt start line out (by omega) file
    cases hfirst : readLines lineCnt 1 file.rest with
    | none =>
      rw [hfirst] at hitem
      refine wp_mono hitem ?_ fun _ _ => rfl
      rintro r file' rfl
      rfl
    | some first =>
      obtain ⟨values, rest⟩ := first
      rw [hfirst] at hitem
      refine wp_mono hitem ?_ fun _ h => by cases h
      rintro r file' ⟨⟨line', rfl⟩, rfl⟩
      have hvalues : values.length = lineCnt := by
        have := (readChunks_eq_some (fun _ _ h => readPairs_length h) hfirst).2.1
        omega
      set out₁ := out.take (lineCnt * start) ++ values ++ out.drop (lineCnt * start + lineCnt)
        with hout₁
      have hlen : out₁.length = out.length := by
        simp only [hout₁, List.length_append, List.length_take, List.length_drop, hvalues]
        omega
      have hrest := @ih (start + 1) line' out₁ (by rw [hlen, Nat.mul_succ]; omega)
        { file with rest := rest }
      simp only [Option.bind_some]
      cases hback : readLines lineCnt n rest with
      | none =>
        rw [show ({ file with rest := rest } : File).rest = rest from rfl, hback] at hrest
        exact wp_mono hrest (fun _ _ h => h) fun _ _ => rfl
      | some others =>
        obtain ⟨back, rest'⟩ := others
        rw [show ({ file with rest := rest } : File).rest = rest from rfl, hback] at hrest
        refine wp_mono hrest ?_ fun _ h => by cases h
        rintro r file' ⟨⟨line'', rfl⟩, rfl⟩
        refine ⟨⟨line'', ?_⟩, rfl⟩
        have hfill := @fill_fill out values back (lineCnt * start) lineCnt (lineCnt * n) hvalues
          (by omega)
        rw [← hout₁] at hfill
        have hback : lineCnt * start + lineCnt * (n + 1) =
            lineCnt * start + lineCnt + lineCnt * n := by
          rw [Nat.mul_succ]
          omega
        rw [Nat.mul_succ, hback]
        exact congrArg (fun out => some (line'', out)) hfill

/-- `read_config` reads 16 lines, and fills its buffer with what they stand for.
SOURCE: init.c:42-70 -/
theorem wp_readConfig {data : Block} {lineCnt : ℕ} (hdata : data.length = lineCnt * 16)
    (file : File) :
    wp (readConfig env data lineCnt) (fun r file' => match readLines lineCnt 16 file.rest with
        | some (values, rest) => r = some values ∧ file' = { file with rest := rest }
        | none => r = none)
      (fun _ => readLines lineCnt 16 file.rest = none) file := by
  have hitems := @wp_readItems lineCnt 0 16 (env.uninitBuffer .readConfigLine buffsizeLine) data
    (by omega) file
  rw [← List.range_eq_range'] at hitems
  rw [readConfig, wp_bind]
  refine wp_mono hitems ?_ fun _ h => h
  intro r file' hafter
  simp only [wp_pure]
  cases hlines : readLines lineCnt 16 file.rest with
  | none =>
    rw [hlines] at hafter
    rw [show r = none from hafter, Option.map_none]
  | some lines =>
    obtain ⟨values, rest⟩ := lines
    rw [hlines] at hafter
    obtain ⟨⟨line, rfl⟩, rfl⟩ := hafter
    simp [hdata]

/-- Sixteen items are read exactly where sixteen lines hold them; the file is left behind them. -/
theorem readConfig_run_iff {data out : Block} {lineCnt : ℕ} (hdata : data.length = lineCnt * 16)
    (file file' : File) :
    (readConfig env data lineCnt).run file = .ok (some out) file' ↔
      ∃ rest, readLines lineCnt 16 file.rest = some (out, rest) ∧
        file' = { file with rest := rest } := by
  have hread := @wp_readConfig σ env data lineCnt hdata file
  constructor
  · intro hrun
    have hlines := hread.of_run hrun
    cases hl : readLines lineCnt 16 file.rest with
    | none => simp [hl] at hlines
    | some lines =>
      simp only [hl, Option.some.injEq] at hlines
      exact ⟨lines.2, by rw [hlines.1], hlines.2⟩
  · rintro ⟨rest, hl, rfl⟩
    simp only [hl, reduceCtorEq] at hread
    obtain ⟨_, _, hrun, rfl, rfl⟩ := (wp_returns_iff _ _ _).mp hread
    exact hrun

/-- What `init` reads of a file: its first 16 lines, and the 16 behind them. -/
theorem readByInit_iff (env : Env σ) (content : List UInt8) (data otp : Block) :
    ReadByInit env content data otp ↔
      ∃ rest rest', readLines 32 16 content = some (data, rest) ∧
        readLines 4 16 rest = some (otp, rest') := by
  have hkeysLen : (env.uninitBuffer .initData (slotCnt * bytesizeKey)).val.length =
      bytesizeKey * 16 := (List.Vector.toList_length _).trans (by decide)
  have hwordsLen : (env.uninitBuffer .initOtp (slotCnt * bytesizeOtp)).val.length =
      bytesizeOtp * 16 := (List.Vector.toList_length _).trans (by decide)
  constructor
  · rintro ⟨conf, conf', hkeys, hwords⟩
    obtain ⟨rest, hlines, rfl⟩ := (readConfig_run_iff hkeysLen _ _).mp hkeys
    obtain ⟨rest', hlines', -⟩ := (readConfig_run_iff hwordsLen _ _).mp hwords
    exact ⟨rest, rest', hlines, hlines'⟩
  · rintro ⟨rest, rest', hlines, hlines'⟩
    exact ⟨⟨content, rest⟩, ⟨content, rest'⟩,
      (readConfig_run_iff hkeysLen _ _).mpr ⟨rest, hlines, rfl⟩,
      (readConfig_run_iff hwordsLen _ _).mpr ⟨rest', hlines', rfl⟩⟩

/-! ## The reads of the emulated device -/

/-- What is stored in the emulated device is read. -/
theorem readsAs_of_stored {s : St σ} (hlayer : s.handle.bottomLayer = .emulation)
    {read : StorageRead} {bytes : Block} (h : read.stored s.handle = some bytes) :
    ReadsAs env s read bytes := by
  intro number
  obtain ⟨⟨_, r⟩, s', hrun, rfl, hholds, -⟩ :=
    (wp_returns_iff _ _ _).mp (wp_read_some (wp_storageRead hlayer read number) h)
  exact ⟨r, s', hrun, hholds⟩

/-- It can be read exactly where it is stored. -/
theorem readable_iff_isSome {s : St σ} (hlayer : s.handle.bottomLayer = .emulation)
    (read : StorageRead) : Readable env s read ↔ (read.stored s.handle).isSome := by
  constructor
  · intro h
    obtain ⟨r, s', hrun⟩ := h ⟨0, List.Vector.replicate _ 0⟩
    have hafter := (wp_storageRead hlayer read _).of_run hrun
    cases hstored : read.stored s.handle with
    | none =>
      rw [hstored] at hafter
      exact absurd rfl hafter.1
    | some bytes => rfl
  · intro h number
    obtain ⟨bytes, hbytes⟩ := Option.isSome_iff_exists.mp h
    obtain ⟨r, s', hrun, -⟩ := readsAs_of_stored hlayer hbytes number
    exact ⟨r, s', hrun⟩

section OverFile

variable {content : List UInt8} {handle : AtshaHandle} (h : OverFile content handle)
include h

/-- A slot is stored in its line. -/
theorem stored_slot (slot : Fin 16) :
    (StorageRead.slot slot).stored handle = lineBytes content slot 32 := by
  simp only [StorageRead.stored, storedSlot, h.device, Bool.false_eq_true, if_false, h.storedLine]
  rfl

/-- An OTP word is stored in the line of its number behind the slots. -/
theorem stored_otp (word : Fin 16) :
    (StorageRead.otp word).stored handle = lineBytes content (16 + word) 4 := by
  simp only [StorageRead.stored, storedOtp, h.device, Bool.false_eq_true, if_false, h.storedLine]
  rfl

end OverFile

/-! ## Both readers -/

/-- `init` reads a file exactly when the emulated device over it reads all its slots and OTP
words. -/
theorem readByInit_iff_readable {content : List UInt8} {s : St σ}
    (h : OverFile content s.handle) : (∃ data otp, ReadByInit env content data otp) ↔
    (∀ slot, Readable env s (.slot slot)) ∧ ∀ word, Readable env s (.otp word) := by
  simp only [readable_iff_isSome h.layer, stored_slot h, stored_otp h]
  have hslots : (∀ slot : Fin 16, (lineBytes content slot 32).isSome) ↔
      (readLines 32 16 content).isSome := by
    rw [readChunks_isSome_iff, Fin.forall_iff]
    rfl
  rw [hslots]
  simp only [readByInit_iff]
  cases hkeys : readLines 32 16 content with
  | none => simp
  | some keys =>
    obtain ⟨data, rest⟩ := keys
    have hafter := (readChunks_eq_some (fun _ _ hl => readPairs_length hl) hkeys).1
    have hwords : (∀ word : Fin 16, (lineBytes content (16 + word) 4).isSome) ↔
        (readLines 4 16 rest).isSome := by
      rw [readChunks_isSome_iff, Fin.forall_iff]
      refine forall₂_congr fun i hi => ?_
      rw [← lineBytes_eq, lineBytes_of_after hafter]
    rw [hwords]
    constructor
    · rintro ⟨data', otp, rest₁, rest', hsame, hotp⟩
      obtain ⟨rfl, rfl⟩ := Prod.mk.inj (Option.some.inj hsame)
      exact ⟨rfl, by rw [hotp]; rfl⟩
    · rintro ⟨-, hsome⟩
      obtain ⟨⟨otp, rest'⟩, hotp⟩ := Option.isSome_iff_exists.mp hsome
      exact ⟨data, otp, rest, rest', rfl, hotp⟩

/-- What `init` has read is what the emulated device reads. -/
theorem readsAs_of_readByInit {content : List UInt8} {s : St σ} (h : OverFile content s.handle)
    {data otp : Block} (hinit : ReadByInit env content data otp) :
    (∀ slot : Fin 16, ReadsAs env s (.slot slot) ((data.drop (32 * slot)).take 32)) ∧
      ∀ word : Fin 16, ReadsAs env s (.otp word) ((otp.drop (4 * word)).take 4) := by
  obtain ⟨rest, rest', hkeys, hwords⟩ := (readByInit_iff env content data otp).mp hinit
  obtain ⟨hafter, -, hslots⟩ := readChunks_eq_some (fun _ _ hl => readPairs_length hl) hkeys
  obtain ⟨-, -, hotp⟩ := readChunks_eq_some (fun _ _ hl => readPairs_length hl) hwords
  constructor
  · intro slot
    refine readsAs_of_stored h.layer ?_
    rw [stored_slot h, Nat.mul_comm]
    exact hslots slot slot.isLt
  · intro word
    refine readsAs_of_stored h.layer ?_
    rw [stored_otp h, ← lineBytes_of_after hafter, Nat.mul_comm]
    exact hotp word word.isLt

/-- The two readers of the file agree, on every content of it: both calls of `read_config`
succeed exactly when every slot and every OTP word can be read of an emulated device over the
file, and then they read the same bytes.
SOURCE: init.c:42-70, init.c:159-181, emulation.c:349-444 -/
theorem provisioning_reads_as_emulated (env : Env σ) (content : List UInt8) (s : St σ)
    (h : OverFile content s.handle) :
    ((∃ data otp, ReadByInit env content data otp) ↔
      (∀ slot, Readable env s (.slot slot)) ∧ ∀ word, Readable env s (.otp word)) ∧
    ∀ data otp, ReadByInit env content data otp →
      (∀ slot : Fin 16, ReadsAs env s (.slot slot) ((data.drop (32 * slot)).take 32)) ∧
        ∀ word : Fin 16, ReadsAs env s (.otp word) ((otp.drop (4 * word)).take 4) :=
  ⟨readByInit_iff_readable h, fun _ _ => readsAs_of_readByInit h⟩

/-- The file of zeros is legible: `init` reads it, the emulated device reads it, and both read the
same bytes. -/
theorem provisioning_reads_as_emulated_marked :
    let content := markedLayout.text
    let s : St (List (Option Frame)) :=
      ⟨{ callocHandle with file := some ⟨content, content⟩ }, [], []⟩
    ((∀ slot, Readable replayEnv s (.slot slot)) ∧ ∀ word, Readable replayEnv s (.otp word)) ∧
      ∃ data otp, ReadByInit replayEnv content data otp ∧
        (∀ slot : Fin 16, ReadsAs replayEnv s (.slot slot) ((data.drop (32 * slot)).take 32)) ∧
          ∀ word : Fin 16, ReadsAs replayEnv s (.otp word) ((otp.drop (4 * word)).take 4) := by
  intro content s
  have hover : OverFile content s.handle := ⟨rfl, rfl, rfl⟩
  obtain ⟨hiff, hbytes⟩ := provisioning_reads_as_emulated replayEnv content s hover
  have hreadable : ∀ read, Readable replayEnv s read := by
    intro read
    rw [readable_iff_isSome hover.layer, stored_layout hover]
    rfl
  have hboth := And.intro (fun slot => hreadable (.slot slot)) fun word => hreadable (.otp word)
  obtain ⟨data, otp, hinit⟩ := hiff.mpr hboth
  exact ⟨hboth, data, otp, hinit, hbytes data otp hinit⟩

end Atsha204.Analysis
