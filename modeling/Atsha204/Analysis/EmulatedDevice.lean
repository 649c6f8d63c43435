import Atsha204.Analysis.ClosedSessions
import Atsha204.Analysis.EmulatedFile
import Atsha204.Interface.EmulatedDevice

/-!
# What a command to the emulated device depends on

Two states of one device may differ in the nonce, the wake flag, the cached origin and how
much of the file has been read, and the local variables may hold anything. A read begins with
a rewind, a session with a wake that always goes well, and of a line only what was just read
into it is used. So a command ends in the same way from both states (`emulCommand_simulates`),
an HMAC provided that the nonces agree.
-/

set_option autoImplicit false

namespace Atsha204.Analysis

open Atsha204.Library
open Atsha204.Model
open Atsha204.Interface

variable {σ α : Type} {env env' : Env σ}

/-! ## States of one device -/

/-- The handle is on the emulation layer and agrees with that of the device in what no call
changes, and in the nonce where that is asked for. -/
structure Resembles (device : AtshaHandle) (loaded : Prop) (handle : AtshaHandle) : Prop where
  layer : handle.bottomLayer = .emulation
  server : handle.isSrvEmulation = device.isSrvEmulation
  content : handle.file.map File.content = device.file.map File.content
  sn : handle.sn = device.sn
  key : handle.key = device.key
  slotId : handle.slotId = device.slotId
  nonce : loaded → handle.nonce = device.nonce

/-- Two states of one device. -/
def Alike (device : AtshaHandle) (loaded : Prop) (s t : St σ) : Prop :=
  Resembles device loaded s.handle ∧ Resembles device loaded t.handle

/-- Two states of one device that have read as much of its file. -/
def AtLine (device : AtshaHandle) (loaded : Prop) (s t : St σ) : Prop :=
  Alike device loaded s t ∧ ∃ file, s.handle.file = some file ∧ t.handle.file = some file

variable {device : AtshaHandle} {loaded : Prop}

/-- Going on in the file keeps the device. -/
theorem Resembles.setFile {handle : AtshaHandle} (h : Resembles device loaded handle) {file : File}
    (hcontent : some file.content = handle.file.map File.content) :
    Resembles device loaded { handle with file := some file } :=
  ⟨h.layer, h.server, hcontent.trans h.content, h.sn, h.key, h.slotId, h.nonce⟩

/-- So does setting the flag. -/
theorem Resembles.setFlag {handle : AtshaHandle} (h : Resembles device loaded handle)
    (expected : Bool) : Resembles device loaded { handle with wakeIsExpected := expected } :=
  ⟨h.layer, h.server, h.content, h.sn, h.key, h.slotId, h.nonce⟩

/-! ## Elementary steps -/

/-- A line is logged in both states. -/
theorem logMessage_simulates {R : St σ → St σ → Prop}
    (hR : ∀ s t e e', R s t → R (s.exchanged s.bus e) (t.exchanged t.bus e')) (text : String) :
    Simulates R Eq (logMessage text : Prog σ Unit) (logMessage text) :=
  Simulates.of_run fun s t h => ⟨(), _, (), _, rfl, rfl, rfl, hR s t _ _ h⟩

/-- A program that ends with an entry in the log. -/
theorem logged_simulates {R : St σ → St σ → Prop} {β : Type} {V : α → β → Prop}
    (hR : ∀ s t e e', R s t → R (s.exchanged s.bus e) (t.exchanged t.bus e')) (text : String)
    {a : α} {b : β} (h : V a b) : Simulates R V
      (do logMessage text; return a : Prog σ α) (do logMessage text; return b) :=
  (logMessage_simulates hR text).bind fun _ _ _ => .pure h

/-- A look at the handles shows two that resemble the device. -/
theorem getHandle_simulates : Simulates (Alike device loaded)
    (fun g g' => Resembles device loaded g ∧ Resembles device loaded g')
    (getHandle : Prog σ AtshaHandle) getHandle := by
  apply Simulates.of_run
  intro s t h
  exact ⟨s.handle, s, t.handle, t, rfl, rfl, h, h⟩

/-- An event keeps two states alike. -/
theorem Alike.exchanged (s t : St σ) (e e' : Event σ) (h : Alike device loaded s t) :
    Alike device loaded (s.exchanged s.bus e) (t.exchanged t.bus e') := h

/-- It keeps them at the same line. -/
theorem AtLine.exchanged (s t : St σ) (e e' : Event σ) (h : AtLine device loaded s t) :
    AtLine device loaded (s.exchanged s.bus e) (t.exchanged t.bus e') := h

/-! ## Reading lines -/

/-- A read of the file of the handle runs as it does on the file. -/
theorem withFile_run {x : FileProg α} {s : St σ} {file file' : File} {a : α}
    (hfile : s.handle.file = some file) (hx : x.run file = .ok a file') :
    (withFile x).run s = .ok a (atFile s file') := by
  apply (run_eq_ok_iff _ _ _ _).mpr
  rw [wp_withFile _ _ _ hfile, wp_of_run hx]
  exact ⟨rfl, rfl⟩

/-- Both states go on in the file. -/
theorem AtLine.atFile {s t : St σ} (h : AtLine device loaded s t) {file rest : File}
    (hfile : s.handle.file = some file) (hcontent : rest.content = file.content) :
    AtLine device loaded (atFile s rest) (atFile t rest) := by
  obtain ⟨⟨hs, ht⟩, file', hfile', htfile⟩ := h
  obtain rfl : file = file' := Option.some.inj (hfile.symm.trans hfile')
  have hsome : some rest.content = (some file).map File.content := by rw [hcontent, Option.map_some]
  exact ⟨⟨hs.setFile (by rw [hfile]; exact hsome), ht.setFile (by rw [htfile]; exact hsome)⟩,
    rest, rfl, rfl⟩

/-- Two reads of a file from its start. -/
theorem rewind_into : SimulatesInto (Alike device loaded) (AtLine device loaded) Eq
    (withFile rewind : Prog σ Unit) (withFile rewind) := by
  intro s t h
  have hcontent := h.1.content.trans h.2.content.symm
  cases htfile : t.handle.file with
  | none =>
    have hsfile : s.handle.file = none := by
      rw [htfile] at hcontent
      exact Option.map_eq_none_iff.mp hcontent
    have hrun : (withFile rewind : Prog σ Unit).run t = .error .outOfBounds t := by
      unfold withFile
      rw [EStateM.run_bind]
      simp only [getHandle, htfile, EStateM.run_bind, EStateM.run_get, EStateM.run_pure]
      rfl
    rw [hrun]
    exact (wp_withFile_none _ _ _ hsfile).mpr h
  | some file' =>
    obtain ⟨file, hsfile, hfiles⟩ : ∃ file, s.handle.file = some file ∧
        file.content = file'.content := by
      rw [htfile] at hcontent
      exact Option.map_eq_some_iff.mp hcontent
    have hrewind : ∀ f : File, rewind.run f = .ok () { f with rest := f.content } := fun f => rfl
    rw [withFile_run htfile (hrewind file')]
    apply (wp_of_run (withFile_run hsfile (hrewind file)) _ _).mpr
    refine ⟨rfl, ⟨h.1.setFile (by rw [hsfile]; rfl), h.2.setFile (by rw [htfile]; rfl)⟩,
      { file with rest := file.content }, rfl, ?_⟩
    obtain ⟨content, rest⟩ := file
    obtain ⟨content', rest'⟩ := file'
    obtain rfl : content = content' := hfiles
    rfl

/-- Two line buffers with the same text, or none on either side. -/
def SameText (l l' : Option Model.Line) : Prop :=
  (l = none ∧ l' = none) ∨ ∃ (line line' : Model.Line) (text junk junk' : List UInt8),
    l = some line ∧ l' = some line' ∧ line.val = text ++ 0 :: junk ∧
      line'.val = text ++ 0 :: junk' ∧ strlen line = text.length ∧ strlen line' = text.length

/-- Both read the same line. -/
theorem fgets_simulates (line line' : Model.Line) :
    Simulates (AtLine device loaded) SameText (withFile (fgets line) : Prog σ (Option Model.Line))
      (withFile (fgets line')) := by
  apply Simulates.of_run
  intro s t h
  obtain ⟨-, file, hsfile, htfile⟩ := id h
  cases hnext : nextChunk isNewline (buffsizeLine - 1) file.rest with
  | none =>
    exact ⟨none, _, none, _, withFile_run hsfile (fgets_run_none line hnext),
      withFile_run htfile (fgets_run_none line' hnext), .inl ⟨rfl, rfl⟩, h.atFile hsfile rfl⟩
  | some c =>
    obtain ⟨chunk, rest⟩ := c
    obtain ⟨l, junk, hrun, hval, hlen⟩ := fgets_run_some line hnext
    obtain ⟨l', junk', hrun', hval', hlen'⟩ := fgets_run_some line' hnext
    exact ⟨some l, _, some l', _, withFile_run hsfile hrun, withFile_run htfile hrun',
      .inr ⟨l, l', _, junk, junk', rfl, rfl, hval, hval', hlen, hlen'⟩, h.atFile hsfile rfl⟩

/-- Both skip the lines, or find too few. -/
theorem skipLines_simulates (tooFew : String) (n : ℕ) (line line' : Model.Line) :
    Simulates (AtLine device loaded) (fun l l' => l.isSome = l'.isSome)
      (skipLines tooFew n line : Prog σ (Option Model.Line)) (skipLines tooFew n line') := by
  induction n generalizing line line' with
  | zero => exact .pure rfl
  | succ n ih =>
    unfold skipLines
    apply (fgets_simulates line line').bind
    rintro _ _ (⟨rfl, rfl⟩ | ⟨l, l', _, _, _, rfl, rfl, -⟩)
    · exact logged_simulates AtLine.exchanged tooFew rfl
    · exact ih l l'

/-- Both answer the same. -/
theorem answerWith_simulates {R : St σ → St σ → Prop} (data : Block) (dataCount : UInt8) :
    Simulates R Eq (answerWith data dataCount : Prog σ Reply) (answerWith data dataCount) := by
  unfold answerWith
  apply (Simulates.orFault _ _).bind_same
  intro answer
  exact .pure rfl

section Decoding

variable {nextIndex : ℕ → ℕ} (hidem : ∀ i, nextIndex (nextIndex i) = nextIndex i) {count : ℕ}
  {indices : List ℕ} (hvisits : Visits nextIndex count 0 indices) {out out' : Block}
  {fill : Block → Block}
  (hfill : ∀ values : Block, values.length = indices.length →
    pokeEach 0 indices values out = some (fill values))
  (hfill' : ∀ values : Block, values.length = indices.length →
    pokeEach 0 indices values out' = some (fill values))
  (hout : count ≤ out.length) (hout' : count ≤ out'.length)
include hidem hvisits hfill hfill' hout hout'

/-- The loop gives the same from buffers with the same text. -/
theorem parse_sameText {line line' : Model.Line} {text junk junk' : List UInt8}
    (hline : line.val = text ++ 0 :: junk) (hline' : line'.val = text ++ 0 :: junk')
    (hlen : strlen line = text.length) (hlen' : strlen line' = text.length) :
    parseHexLoop nextIndex count 0 line.val (strlen line) 0 out =
      parseHexLoop nextIndex count 0 line'.val (strlen line') 0 out' := by
  have hjunk : junk.length = junk'.length := by
    have hboth : line.val.length = line'.val.length := line.property.trans line'.property.symm
    rw [hline, hline', List.length_append, List.length_append, List.length_cons,
      List.length_cons] at hboth
    omega
  have hending : (parseHexLoop nextIndex count 0 (text ++ 0 :: junk) text.length 0 out).map
      Option.isSome = (parseHexLoop nextIndex count 0 (text ++ 0 :: junk') text.length 0 out').map
        Option.isSome := by
    have hnil : junk = [] ↔ junk' = [] := by
      rw [← List.length_eq_zero_iff, ← List.length_eq_zero_iff, hjunk]
    rw [parseHexLoop_map_isSome hidem hvisits text junk (by omega),
      parseHexLoop_map_isSome hidem hvisits text junk' (by omega)]
    simp only [hnil]
  rw [← hline, ← hline'] at hending
  nth_rewrite 1 [← hlen] at hending
  rw [← hlen'] at hending
  have hok := @parse_line_iff _ hidem _ 0 _ hvisits _ _ _ hline hlen out
  have hok' := @parse_line_iff _ hidem _ 0 _ hvisits _ _ _ hline' hlen' out'
  cases hr : parseHexLoop nextIndex count 0 line.val (strlen line) 0 out with
  | none =>
    rw [hr] at hending
    exact (Option.map_eq_none_iff.mp hending.symm).symm
  | some r =>
    rw [hr] at hending
    obtain ⟨r', hr', hsome⟩ := Option.map_eq_some_iff.mp hending.symm
    rw [hr']
    cases r with
    | none =>
      rw [Option.not_isSome_iff_eq_none.mp (ne_true_of_eq_false hsome)]
    | some block =>
      obtain ⟨block', rfl⟩ := Option.isSome_iff_exists.mp hsome
      obtain ⟨values, hvalues, hblock⟩ := (hok block).mp hr
      obtain ⟨values', hvalues', hblock'⟩ := (hok' block').mp hr'
      obtain rfl : values = values' := Option.some.inj (hvalues.symm.trans hvalues')
      rw [hfill values (readPairs_length hvalues)] at hblock
      rw [hfill' values (readPairs_length hvalues)] at hblock'
      rw [Option.some.inj (hblock.symm.trans hblock')]

/-- Both read the same digits. -/
theorem readHexLine_simulates (noLine tooShort : String) (line line' : Model.Line) :
    Simulates (AtLine device loaded) Eq
      (readHexLine noLine tooShort nextIndex count out line : Prog σ (Option Block))
      (readHexLine noLine tooShort nextIndex count out' line') := by
  unfold readHexLine
  apply (fgets_simulates line line').bind
  rintro _ _ (⟨rfl, rfl⟩ | ⟨l, l', text, junk, junk', rfl, rfl, hline, hline', hlen, hlen'⟩)
  · exact logged_simulates AtLine.exchanged noLine rfl
  · have hparse := parse_sameText hidem hvisits hfill hfill' hout hout' hline hline' hlen hlen'
    simp only [hparse]
    apply (Simulates.orFault _ _).bind_same
    intro r
    cases r with
    | none => exact logged_simulates AtLine.exchanged tooShort rfl
    | some block => exact .pure rfl

/-- Both answer with the same line. -/
theorem answerLine_simulates (tooFew noLine tooShort : String) (dataCount : UInt8) (k : ℕ)
    (line line' : Model.Line) :
    Simulates (AtLine device loaded) Eq
      (answerLine tooFew noLine tooShort nextIndex count out dataCount k line : Prog σ Reply)
      (answerLine tooFew noLine tooShort nextIndex count out' dataCount k line') := by
  unfold answerLine
  apply (skipLines_simulates tooFew k line line').bind
  rintro (_ | l) (_ | l') hl
  · exact .pure rfl
  · cases hl
  · cases hl
  · apply (readHexLine_simulates hidem hvisits hfill hfill' hout hout' noLine tooShort l l').bind
    rintro (_ | data) _ rfl
    · exact .pure rfl
    · exact answerWith_simulates data dataCount

end Decoding

/-- A line without a hole. -/
theorem answerPlainLine_simulates (tooFew noLine tooShort : String) {count : ℕ} {out out' : Block}
    (hout : out.length = count) (hout' : out'.length = count) (dataCount : UInt8) (k : ℕ)
    (line line' : Model.Line) :
    Simulates (AtLine device loaded) Eq
      (answerLine tooFew noLine tooShort id count out dataCount k line : Prog σ Reply)
      (answerLine tooFew noLine tooShort id count out' dataCount k line') := by
  have hfill : ∀ {block : Block}, block.length = count → ∀ values : Block,
      values.length = (List.range' 0 count).length →
        pokeEach 0 (List.range' 0 count) values block = some (id values) := by
    intro block hblock values hvalues
    rw [List.length_range'] at hvalues
    rw [← hvalues]
    exact pokeEach_all values block (hvalues.trans hblock.symm)
  exact answerLine_simulates (fun _ => rfl) (visits_id count 0 count (by omega)) (hfill hout)
    (hfill hout') hout.ge hout'.ge tooFew noLine tooShort dataCount k line line'

/-! ## Commands -/

/-- Reading the emulated device, with whatever the line buffers held before.
SOURCE: emulation.c:281-451 -/
theorem emulRead_simulates (packet : Block) :
    Simulates (Alike device loaded) Eq (emulRead env packet) (emulRead env' packet) := by
  have hline : ∀ (l : Local) (n : ℕ), (env.uninitBuffer l n).val.length = n :=
    fun l n => (env.uninitBuffer l n).property
  have hline' : ∀ (l : Local) (n : ℕ), (env'.uninitBuffer l n).val.length = n :=
    fun l n => (env'.uninitBuffer l n).property
  unfold emulRead
  apply (Simulates.orFault _ _).bind_same
  intro zone
  dsimp only
  split
  · apply (Simulates.orFault _ _).bind_same
    intro address
    split
    · exact logged_simulates Alike.exchanged _ rfl
    · apply getHandle_simulates.bind
      rintro g g' ⟨hg, hg'⟩
      rw [hg.server, hg'.server, hg.sn, hg'.sn]
      split
      · apply (Simulates.orFault _ _).bind_same
        intro sn
        exact answerWith_simulates _ _
      · apply rewind_into.bind (fun _ _ h => h.1)
        intro _ _ _
        exact answerLine_simulates skipHole_idem visits_skipHole (fun _ h => pokeEach_hole h)
          (fun _ h => pokeEach_hole h) (by decide) (by decide) _ _ _ _ _ _ _
  · split
    · apply getHandle_simulates.bind
      rintro g g' ⟨hg, hg'⟩
      rw [hg.server, hg'.server, hg.key, hg'.key]
      split
      · apply (Simulates.orFault _ _).bind_same
        intro key
        exact answerWith_simulates _ _
      · apply rewind_into.bind (fun _ _ h => h.1)
        intro _ _ _
        apply (Simulates.orFault _ _).bind_same
        intro address
        exact answerPlainLine_simulates _ _ _ (hline _ _) (hline' _ _) _ _ _ _
    · split
      · apply getHandle_simulates.bind
        rintro g g' ⟨hg, hg'⟩
        rw [hg.server, hg'.server]
        split
        · exact logged_simulates Alike.exchanged _ rfl
        · apply rewind_into.bind (fun _ _ h => h.1)
          intro _ _ _
          apply (skipLines_simulates _ _ _ _).bind
          rintro (_ | l) (_ | l') hl
          · exact .pure rfl
          · cases hl
          · cases hl
          · apply (Simulates.orFault _ _).bind_same
            intro address
            exact answerPlainLine_simulates _ _ _ (hline _ _) (hline' _ _) _ _ _ _
      · exact logged_simulates Alike.exchanged _ rfl

/-! ## Sessions and exchanges -/

/-- An emulated device is awake at once. -/
theorem wake_simulates : Simulates (Alike device loaded) (fun a b => a = .ok ∧ b = .ok)
    (wake env) (wake env') := by
  apply Simulates.of_run
  intro s t h
  exact ⟨_, _, _, _, wake_run_emulation h.1.layer, wake_run_emulation h.2.layer, ⟨rfl, rfl⟩,
    h.1.setFlag true, h.2.setFlag true⟩

/-- It idles at once. -/
theorem idle_simulates : Simulates (Alike device loaded) (fun a b => a = .ok ∧ b = .ok)
    (idle env) (idle env') := by
  apply Simulates.of_run
  intro s t h
  exact ⟨_, _, _, _, idle_run s, idle_run t, ⟨rfl, rfl⟩, h.1.setFlag false, h.2.setFlag false⟩

/-- Two results that agree in the status, and in the value where they began with the same. -/
def SameFrom (same : Prop) (r r' : AtshaErr × α) : Prop := r.1 = r'.1 ∧ (same → r.2 = r'.2)

/-- Equal results agree. -/
theorem SameFrom.of_eq {same : Prop} {r r' : AtshaErr × α} (h : r = r') : SameFrom same r r' :=
  ⟨congrArg Prod.fst h, fun _ => congrArg Prod.snd h⟩

/-- Sessions agree if their bodies do. -/
theorem session_simulates {out out' : α} {same : Prop} {body body' : Prog σ (AtshaErr × α)}
    (hbody : Simulates (Alike device loaded) (SameFrom same) body body') :
    Simulates (Alike device loaded) (SameFrom same) (session env out body)
      (session env' out' body') := by
  unfold session
  apply wake_simulates.bind
  rintro _ _ ⟨rfl, rfl⟩
  rw [if_neg (not_not_intro rfl), if_neg (not_not_intro rfl)]
  apply hbody.bind
  rintro ⟨status, a⟩ ⟨_, a'⟩ ⟨rfl, hvalue⟩
  dsimp only
  split
  · exact .pure ⟨rfl, hvalue⟩
  · apply idle_simulates.bind
    rintro _ _ ⟨rfl, rfl⟩
    rw [if_neg (not_not_intro rfl), if_neg (not_not_intro rfl)]
    exact .pure ⟨rfl, hvalue⟩

/-- A session around bodies with the same result. -/
theorem session_same (out : α) {body body' : Prog σ (AtshaErr × α)}
    (hbody : Simulates (Alike device loaded) Eq body body') :
    Simulates (Alike device loaded) Eq (session env out body) (session env' out body') := by
  have hsame := hbody.mono fun r r' h => @SameFrom.of_eq _ True r r' h
  apply (session_simulates hsame).mono
  intro r r' h
  exact Prod.ext h.1 (h.2 trivial)

/-- The two ways to send give the same answers. -/
def SendsAlike (device : AtshaHandle) (loaded : Prop) (send send' : Send σ) (packet : Block) :
    Prop := Simulates (Alike device loaded) Eq (send packet) (send' packet)

/-- A decoder gives the same size, and the same buffer where it is given the same. -/
def DecodesAlike (device : AtshaHandle) (loaded : Prop) (recv : DataRecv σ) : Prop :=
  ∀ answer buffer buffer', Simulates (Alike device loaded)
    (fun r r' => r.1 = r'.1 ∧ (buffer = buffer' → r.2 = r'.2)) (recv answer buffer)
    (recv answer buffer')

/-- Exchanges of data agree if the packet is sent alike and decoded alike. -/
theorem dataExchange_simulates {send send' : Send σ} {packet : Option Block}
    (hsend : ∀ bytes, packet = some bytes → SendsAlike device loaded send send' bytes)
    {recv : DataRecv σ} (hrecv : DecodesAlike device loaded recv) (number number' : AtshaBigInt) :
    Simulates (Alike device loaded) (SameFrom (number = number'))
      (dataExchange send packet recv number) (dataExchange send' packet recv number') := by
  unfold dataExchange
  cases packet with
  | none => exact fun _ _ h => h
  | some bytes =>
    apply (hsend bytes rfl).bind_same
    rintro ⟨status, answer⟩
    dsimp only
    split
    · exact .pure ⟨rfl, fun h => h⟩
    · apply (Simulates.orFault _ answer).bind_same
      intro answer
      apply (hrecv answer number.data number'.data).bind
      rintro ⟨size, buffer⟩ ⟨_, buffer'⟩ ⟨rfl, hbuffer⟩
      have hsame : number = number' →
          (⟨size.toNat, buffer⟩ : AtshaBigInt) = ⟨size.toNat, buffer'⟩ := by
        intro hnumber
        obtain rfl : buffer = buffer' := hbuffer (congrArg AtshaBigInt.data hnumber)
        rfl
      dsimp only
      split
      · exact .pure ⟨rfl, hsame⟩
      · exact .pure ⟨rfl, hsame⟩

/-- So do exchanges for a status. -/
theorem statusExchange_simulates {send send' : Send σ} {packet : Option Block}
    (hsend : ∀ bytes, packet = some bytes → SendsAlike device loaded send send' bytes)
    {recv : Block → Prog σ AtshaErr}
    (hrecv : ∀ answer, Simulates (Alike device loaded) Eq (recv answer) (recv answer)) :
    Simulates (Alike device loaded) Eq
      (statusExchange send packet recv) (statusExchange send' packet recv) := by
  unfold statusExchange
  cases packet with
  | none => exact fun _ _ h => h
  | some bytes =>
    apply (hsend bytes rfl).bind_same
    rintro ⟨status, answer⟩
    dsimp only
    split
    · exact .pure rfl
    · apply (Simulates.orFault _ answer).bind_same
      intro answer
      apply (hrecv answer).bind
      rintro status _ rfl
      exact .pure rfl

/-! ## Decoders -/

/-- Some bytes are written to the front of two buffers. -/
theorem overwrite_simulates {R : St σ → St σ → Prop} {n : ℕ} (buffer buffer' : List.Vector UInt8 n)
    (bytes : Block) :
    Simulates R (fun data data' => buffer = buffer' → data = data')
      (access (overwrite buffer bytes) : Prog σ _) (access (overwrite buffer' bytes)) := by
  unfold overwrite
  split
  · exact .pure fun h => by subst h; rfl
  · exact fun _ _ h => h

/-- Data are decoded alike. -/
theorem readLongData_simulates : @DecodesAlike σ device loaded readLongData := by
  intro answer buffer buffer'
  unfold readLongData
  apply (Simulates.orFault _ _).bind_same
  intro count
  dsimp only
  split
  · exact logged_simulates Alike.exchanged _ ⟨rfl, fun h => h⟩
  · apply (Simulates.orFault _ _).bind_same
    intro bytes
    apply (overwrite_simulates buffer buffer' bytes).bind
    intro data data' hdata
    exact .pure ⟨rfl, hdata⟩

/-- So are serial numbers. -/
theorem opSerialNumberRecv_simulates : @DecodesAlike σ device loaded opSerialNumberRecv := by
  intro answer buffer buffer'
  unfold opSerialNumberRecv
  apply (Simulates.orFault _ _).bind_same
  intro bytes
  apply (overwrite_simulates buffer buffer' bytes).bind
  intro data data' hdata
  exact .pure ⟨rfl, hdata⟩

/-- So is a status. -/
theorem justCheckStatus_simulates (answer : Block) :
    Simulates (Alike device loaded) Eq (justCheckStatus answer : Prog σ AtshaErr)
      (justCheckStatus answer) := by
  unfold justCheckStatus
  apply (Simulates.orFault _ _).bind_same
  intro status
  split
  · exact .pure rfl
  · exact logged_simulates Alike.exchanged _ rfl

/-! ## Reading a slot from inside a command -/

/-- The emulator sees the opcode that a command was made for. -/
theorem opcode_of_commandPacket {opcode opcode' param1 : UInt8} {param2 : UInt16} {data : Block}
    (h : peek (commandPacket opcode param1 param2 data) positionOpcode = some opcode') :
    opcode = opcode' := by
  rw [positionOpcode, peek_opcode] at h
  exact Option.some.inj h

/-- A command to the emulated device is one call of the emulator. -/
theorem command_simulates {rawSlotRead rawSlotRead' : SlotRead σ} {packet : Block}
    (h : Simulates (Alike device loaded) Eq (emulCommand env rawSlotRead packet)
      (emulCommand env' rawSlotRead' packet)) :
    SendsAlike device loaded (fun packet => command env rawSlotRead packet none)
      (fun packet => command env' rawSlotRead' packet none) packet := by
  apply h.congr
  intro s t halike
  exact ⟨command_run_emulation halike.1.layer, command_run_emulation halike.2.layer⟩

/-- A slot read agrees if its packet is sent alike. -/
theorem rawSlotRead_simulates {send send' : Send σ} (slotNumber : UInt8)
    (hsend : ∀ address, SendsAlike device loaded send send' (commandPacket atsha204OpcodeRead
      (getZoneConfig ioMemData ioRwNonEnc ioRw32Bytes) address []))
    (number number' : AtshaBigInt) :
    Simulates (Alike device loaded) (SameFrom (number = number'))
      (atshaRawSlotReadWith env send slotNumber number)
      (atshaRawSlotReadWith env' send' slotNumber number') := by
  unfold atshaRawSlotReadWith
  split
  · exact logged_simulates Alike.exchanged _ ⟨rfl, fun h => h⟩
  · apply session_simulates
    apply dataExchange_simulates _ readLongData_simulates
    intro bytes hbytes
    obtain ⟨address, -, hpacket⟩ := Option.bind_eq_some_iff.mp hbytes
    rw [opRawRead_eq] at hpacket
    rw [← Option.some.inj hpacket]
    exact hsend _

/-- The key that a digest command reads is the same. -/
def ReadsKeysAlike (device : AtshaHandle) (loaded : Prop) (rawSlotRead rawSlotRead' : SlotRead σ) :
    Prop :=
  ∀ slotNumber number number', Simulates (Alike device loaded)
    (fun r r' => r.1 = r'.1 ∧ (r.1 = .ok → r.2 = r'.2)) (rawSlotRead slotNumber number)
    (rawSlotRead' slotNumber number')

section Digests

variable (hssl : env.openssl = env'.openssl) {rawSlotRead rawSlotRead' : SlotRead σ}
  (hread : ReadsKeysAlike device loaded rawSlotRead rawSlotRead')
include hssl hread

/-- An emulated HMAC agrees where the nonces do.
SOURCE: emulation.c:52-157 -/
theorem emulHmac_simulates (hloaded : loaded) (packet : Block) :
    Simulates (Alike device loaded) Eq (emulHmac env rawSlotRead packet)
      (emulHmac env' rawSlotRead' packet) := by
  unfold emulHmac
  apply getHandle_simulates.bind
  rintro g g' ⟨hg, hg'⟩
  rw [hg.nonce hloaded, hg'.nonce hloaded, hg.sn, hg'.sn, hssl]
  apply (Simulates.orFault _ _).bind_same
  intro message
  apply (Simulates.orFault _ _).bind
  rintro slot _ rfl
  apply (hread slot _ _).bind
  rintro ⟨status, key⟩ ⟨_, key'⟩ ⟨rfl, hkey⟩
  dsimp only
  split
  · exact logged_simulates Alike.exchanged _ rfl
  · rename_i hok
    obtain rfl : key = key' := hkey (not_not.mp hok)
    apply (Simulates.orFault _ _).bind_same
    intro keyBytes
    split
    · exact logged_simulates Alike.exchanged _ rfl
    · split
      · exact logged_simulates Alike.exchanged _ rfl
      · exact answerWith_simulates _ _

/-- An emulated MAC agrees.
SOURCE: emulation.c:159-262 -/
theorem emulMac_simulates (packet : Block) :
    Simulates (Alike device loaded) Eq (emulMac env rawSlotRead packet)
      (emulMac env' rawSlotRead' packet) := by
  unfold emulMac
  apply (Simulates.orFault _ _).bind_same
  intro slot
  apply (hread slot _ _).bind
  rintro ⟨status, key⟩ ⟨_, key'⟩ ⟨rfl, hkey⟩
  dsimp only
  split
  · exact logged_simulates Alike.exchanged _ rfl
  · rename_i hok
    obtain rfl : key = key' := hkey (not_not.mp hok)
    apply getHandle_simulates.bind
    rintro g g' ⟨hg, hg'⟩
    rw [hg.sn, hg'.sn, hssl]
    apply (Simulates.orFault _ _).bind_same
    intro message
    split
    · exact logged_simulates Alike.exchanged _ rfl
    · exact answerWith_simulates _ _

end Digests

/-- Where the nonce does not matter it may be set. -/
theorem Resembles.setNonce {handle : AtshaHandle} (h : Resembles device loaded handle)
    (hloaded : ¬ loaded) (nonce : List.Vector UInt8 atsha204SlotByteLen) :
    Resembles device loaded { handle with nonce := nonce } :=
  ⟨h.layer, h.server, h.content, h.sn, h.key, h.slotId, fun hn => absurd hn hloaded⟩

/-- Both take a nonce, and answer alike.
SOURCE: emulation.c:41-50 -/
theorem emulNonce_simulates (hloaded : ¬ loaded) (packet : Block) :
    Simulates (Alike device loaded) Eq (emulNonce packet : Prog σ Reply) (emulNonce packet) := by
  unfold emulNonce
  apply (Simulates.orFault _ _).bind_same
  intro bytes
  apply getHandle_simulates.bind
  rintro g g' -
  apply (overwrite_simulates g.nonce g'.nonce bytes).bind
  rintro nonce nonce' -
  have hset : Simulates (Alike device loaded) Eq
      (modifyHandle fun h => { h with nonce := nonce } : Prog σ Unit)
      (modifyHandle fun h => { h with nonce := nonce' }) := by
    apply Simulates.of_run
    intro s t h
    exact ⟨(), _, (), _, rfl, rfl, rfl, h.1.setNonce hloaded nonce, h.2.setNonce hloaded nonce'⟩
  apply hset.bind
  intro _ _ _
  exact answerWith_simulates _ _

/-- A command ends in the same way: an HMAC where the nonces agree, any other one but the
loading of a nonce in any case, and that one where they need not agree.
SOURCE: emulation.c:453-485 -/
theorem emulCommand_simulates (hssl : env.openssl = env'.openssl)
    {rawSlotRead rawSlotRead' : SlotRead σ}
    (hread : ReadsKeysAlike device loaded rawSlotRead rawSlotRead') {packet : Block}
    (hhmac : peek packet positionOpcode = some atsha204OpcodeHmac → loaded)
    (hnonce : peek packet positionOpcode = some atsha204OpcodeNonce → ¬ loaded) :
    Simulates (Alike device loaded) Eq (emulCommand env rawSlotRead packet)
      (emulCommand env' rawSlotRead' packet) := by
  have hemit : Simulates (Alike device loaded) Eq (emit (.emulated packet) : Prog σ Unit)
      (emit (.emulated packet)) :=
    Simulates.of_run fun s t h => ⟨(), _, (), _, rfl, rfl, rfl, h⟩
  unfold emulCommand
  apply hemit.bind
  intro _ _ _
  cases hopcode : peek packet positionOpcode with
  | none => exact fun _ _ h => h
  | some opcode =>
    change Simulates _ _ (if opcode = atsha204OpcodeHmac then _ else _)
      (if opcode = atsha204OpcodeHmac then _ else _)
    rw [hopcode] at hhmac hnonce
    split
    · rename_i h
      exact emulHmac_simulates hssl hread (hhmac (by rw [h])) packet
    · split
      · exact emulMac_simulates hssl hread packet
      · split
        · exact emulRead_simulates packet
        · split
          · rename_i h
            exact emulNonce_simulates (hnonce (by rw [h])) packet
          · split
            · exact answerWith_simulates _ _
            · exact logged_simulates Alike.exchanged _ rfl

/-- A handle that resembles the device stores the same keys. -/
theorem Resembles.storedSlot {handle : AtshaHandle} (h : Resembles device loaded handle)
    (slot : ℕ) : storedSlot handle slot = Interface.storedSlot device slot :=
  storedSlot_congr h.content h.server h.key slot

/-- A number of full length is its bytes. -/
theorem holds_unique {number number' : AtshaBigInt} {data : Block} (h : Holds number data)
    (h' : Holds number' data) (hlen : data.length = 32) : number = number' := by
  obtain ⟨bytes, buffer⟩ := number
  obtain ⟨bytes', buffer'⟩ := number'
  obtain rfl : bytes = bytes' := h.bytes_eq.trans h'.bytes_eq.symm
  obtain rfl : buffer = buffer' := Subtype.ext
    ((val_eq_of_holds h hlen).trans (val_eq_of_holds h' hlen).symm)
  rfl

/-- A slot that is read in full. -/
theorem wp_nestedSlotRead_holds {s : St σ} (h : Resembles device loaded s.handle)
    (slotNumber : UInt8) (number : AtshaBigInt) :
    wp (nestedSlotRead env slotNumber number) (fun r _ => r.1 = .ok → ∃ data : Block,
      storedSlot device slotNumber.toNat = some data ∧ data.length = 32 ∧ Holds r.2 data)
      (fun _ => True) s := by
  by_cases hslot : slotNumber ≤ atsha204MaxSlotNumber
  · refine wp_mono (wp_nestedSlotRead h.layer hslot number) ?_ fun _ _ => trivial
    rintro r s' hr hok
    rw [h.storedSlot] at hr
    cases hstored : storedSlot device slotNumber.toNat with
    | none =>
      rw [hstored] at hr
      exact absurd hok hr.1
    | some data =>
      rw [hstored] at hr
      exact ⟨data, rfl, storedSlot_length hstored, hr.2.1⟩
  · have hbig : slotNumber > atsha204MaxSlotNumber := UInt8.not_le.mp hslot
    unfold nestedSlotRead atshaRawSlotReadWith
    rw [if_pos hbig]
    exact fun hok => absurd hok AtshaErr.noConfusion

/-- The slot read inside of a digest agrees. -/
theorem nestedSlotRead_alike (hssl : env.openssl = env'.openssl) :
    ReadsKeysAlike device loaded (nestedSlotRead env) (nestedSlotRead env') := by
  intro slotNumber number number'
  have hinner : ReadsKeysAlike device loaded
      (fun _ _ => throw .outOfFuel : SlotRead σ) (fun _ _ => throw .outOfFuel) :=
    fun _ _ _ _ _ h => h
  have hsend : ∀ address, SendsAlike device loaded
      (fun packet => command env (fun _ _ => throw .outOfFuel) packet none)
      (fun packet => command env' (fun _ _ => throw .outOfFuel) packet none)
      (commandPacket atsha204OpcodeRead (getZoneConfig ioMemData ioRwNonEnc ioRw32Bytes) address
        []) := by
    intro address
    apply command_simulates
    apply emulCommand_simulates hssl hinner
    · exact fun hopcode => absurd (opcode_of_commandPacket hopcode) (by decide)
    · exact fun hopcode => absurd (opcode_of_commandPacket hopcode) (by decide)
  have hread : Simulates (Alike device loaded) (SameFrom (number = number'))
      (nestedSlotRead env slotNumber number) (nestedSlotRead env' slotNumber number') :=
    rawSlotRead_simulates slotNumber hsend number number'
  refine (hread.and_of_wp (fun s t h => wp_nestedSlotRead_holds h.1 slotNumber number)
    fun s t h => wp_nestedSlotRead_holds h.2 slotNumber number').mono ?_
  rintro r r' ⟨hsame, hr, hr'⟩
  refine ⟨hsame.1, fun hok => ?_⟩
  obtain ⟨data, hdata, hlen, hholds⟩ := hr hok
  obtain ⟨data', hdata', -, hholds'⟩ := hr' (hsame.1 ▸ hok)
  obtain rfl : data = data' := Option.some.inj (hdata.symm.trans hdata')
  exact holds_unique hholds hholds' hlen

/-- A command of a public operation ends in the same way. -/
theorem send_simulates (hssl : env.openssl = env'.openssl) {packet : Block}
    (hhmac : peek packet positionOpcode = some atsha204OpcodeHmac → loaded)
    (hnonce : peek packet positionOpcode = some atsha204OpcodeNonce → ¬ loaded) :
    SendsAlike device loaded (send env) (send env') packet :=
  command_simulates (emulCommand_simulates hssl (nestedSlotRead_alike hssl) hhmac hnonce)

end Atsha204.Analysis
