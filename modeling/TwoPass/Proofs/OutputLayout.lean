import TwoPass.Proofs.Transcription

/-! Reading addresses off the output.

Each tab-indented line of the output takes up the bytes of an instruction or of a data item, by the
directive in front of it. Counted that way, the output has every label and every line exactly where
the layout of the source has them. -/

set_option autoImplicit false

namespace TwoPass

/-- Reads output lines in order: the section of the most recent directive line and the address. -/
structure OutputReader where
  inside : Option Section
  address : Nat
  deriving DecidableEq, Repr

def OutputReader.lineSize : Option Section → Nat
  | some .code => 4
  | some .data => 8
  | none => 0

namespace OutputReader

def read (reader : OutputReader) (line : Text) : OutputReader :=
  if line = ".code" then { reader with inside := some .code }
  else if line = ".data" then { reader with inside := some .data }
  else if line.head? = some '\t' then
    { reader with address := reader.address + lineSize reader.inside }
  else reader

def readAll (reader : OutputReader) (lines : List Text) : OutputReader := lines.foldl read reader

def trace (reader : OutputReader) : List Text → List (Nat × Text)
  | [] => []
  | line :: rest => (reader.address, line) :: (reader.read line).trace rest

def labelName? (line : Text) : Option Text :=
  if line.getLast? = some ':' ∧ Text.isName line.dropLast = true then some line.dropLast else none

def marks (reader : OutputReader) (lines : List Text) : List (Text × Nat) :=
  (reader.trace lines).filterMap fun (address, line) => (labelName? line).map (·, address)

def indented? (line : Text) : Option Text :=
  if line.head? = some '\t' then some line.tail else none

def content (reader : OutputReader) (lines : List Text) : List (Nat × Text) :=
  (reader.trace lines).filterMap fun (address, line) => (indented? line).map (address, ·)

variable (reader : OutputReader)

@[simp] theorem readAll_nil : reader.readAll [] = reader := rfl

theorem readAll_cons (line : Text) (rest : List Text) :
    reader.readAll (line :: rest) = (reader.read line).readAll rest := rfl

theorem readAll_append (first second : List Text) :
    reader.readAll (first ++ second) = (reader.readAll first).readAll second :=
  List.foldl_append

theorem trace_append (first second : List Text) :
    reader.trace (first ++ second) = reader.trace first ++ (reader.readAll first).trace second := by
  induction first generalizing reader with
  | nil => rfl
  | cons line rest ih => simp only [List.cons_append, trace, ih]; rfl

theorem marks_cons (line : Text) (rest : List Text) : reader.marks (line :: rest) =
    (labelName? line).toList.map (·, reader.address) ++ (reader.read line).marks rest := by
  cases named : labelName? line <;> simp [marks, trace, named]

theorem content_cons (line : Text) (rest : List Text) : reader.content (line :: rest) =
    (indented? line).toList.map (reader.address, ·) ++ (reader.read line).content rest := by
  cases text : indented? line <;> simp [content, trace, text]

theorem marks_append (first second : List Text) :
    reader.marks (first ++ second) = reader.marks first ++ (reader.readAll first).marks second := by
  rw [marks, trace_append, List.filterMap_append]
  rfl

theorem content_append (first second : List Text) :
    reader.content (first ++ second) =
      reader.content first ++ (reader.readAll first).content second := by
  rw [content, trace_append, List.filterMap_append]
  rfl

theorem read_directive (target : Section) :
    reader.read (OutputLine.directive target).render = { reader with inside := some target } := by
  cases target <;> rfl

theorem read_indented (text : Text) : reader.read (OutputLine.indented text).render =
    { reader with address := reader.address + lineSize reader.inside } := by
  have code : '\t' :: text ≠ (".code" : Text) := fun same => by cases same
  have data : '\t' :: text ≠ (".data" : Text) := fun same => by cases same
  simp only [read, OutputLine.render, code, data, if_false, List.head?_cons, if_true]

theorem head?_label_ne {name : Text} (valid : Text.isName name = true) {d : Char}
    (outside : Text.isNameStart d = false) : (OutputLine.label name).render.head? ≠ some d := by
  cases name with
  | nil => cases valid
  | cons c more =>
    rw [Text.isName, Bool.and_eq_true] at valid
    intro first
    cases first
    cases valid.1.symm.trans outside

theorem read_label {name : Text} (valid : Text.isName name = true) :
    reader.read (OutputLine.label name).render = reader := by
  have dot := head?_label_ne valid (show Text.isNameStart '.' = false by decide)
  have tab := head?_label_ne valid (show Text.isNameStart '\t' = false by decide)
  have code : (OutputLine.label name).render ≠ (".code" : Text) := fun same => dot (by rw [same]; rfl)
  have data : (OutputLine.label name).render ≠ (".data" : Text) := fun same => dot (by rw [same]; rfl)
  simp only [read, code, data, tab, if_false]

theorem labelName?_label {name : Text} (valid : Text.isName name = true) :
    labelName? (OutputLine.label name).render = some name := by
  have ending : (name ++ ":" : Text).getLast? = some ':' := List.getLast?_concat
  have rest : (name ++ ":" : Text).dropLast = name := List.dropLast_concat
  simp only [labelName?, OutputLine.render, ending, rest, valid, and_self, if_true]

theorem indented?_label {name : Text} (valid : Text.isName name = true) :
    indented? (OutputLine.label name).render = none :=
  if_neg (head?_label_ne valid (by decide))

theorem labelName?_indented (text : Text) : labelName? (OutputLine.indented text).render = none := by
  unfold labelName?
  rw [if_neg]
  rintro ⟨-, valid⟩
  cases text with
  | nil => cases valid
  | cons c rest => cases valid

theorem indented?_indented (text : Text) :
    indented? (OutputLine.indented text).render = some text := rfl

theorem labelName?_directive (target : Section) :
    labelName? (OutputLine.directive target).render = none := by
  cases target <;> rfl

theorem indented?_directive (target : Section) :
    indented? (OutputLine.directive target).render = none := by
  cases target <;> rfl

theorem readAll_indented (texts : List Text) :
    reader.readAll ((texts.map OutputLine.indented).map OutputLine.render) =
      { reader with address := reader.address + lineSize reader.inside * texts.length } := by
  induction texts generalizing reader with
  | nil => simp
  | cons text rest ih =>
    rw [List.map_cons, List.map_cons, readAll_cons, read_indented, ih]
    simp only [List.length_cons, Nat.mul_add, Nat.mul_one, OutputReader.mk.injEq, true_and]
    omega

theorem marks_indented (texts : List Text) :
    reader.marks ((texts.map OutputLine.indented).map OutputLine.render) = [] := by
  induction texts generalizing reader with
  | nil => rfl
  | cons text rest ih =>
    rw [List.map_cons, List.map_cons, marks_cons, ih, labelName?_indented]
    rfl

theorem content_indented (texts : List Text) :
    reader.content ((texts.map OutputLine.indented).map OutputLine.render) =
      texts.mapIdx fun index text => (reader.address + lineSize reader.inside * index, text) := by
  induction texts generalizing reader with
  | nil => rfl
  | cons text rest ih =>
    have further (index : Nat) : reader.address + lineSize reader.inside +
        lineSize reader.inside * index = reader.address + lineSize reader.inside * (index + 1) := by
      rw [Nat.mul_add]
      omega
    rw [List.map_cons, List.map_cons, content_cons, ih, indented?_indented, List.mapIdx_cons,
      read_indented]
    simp [further]

theorem map_snd_content (lines : List Text) :
    (reader.content lines).map Prod.snd = lines.filterMap indented? := by
  induction lines generalizing reader with
  | nil => rfl
  | cons line rest ih =>
    rw [content_cons, List.map_append, ih]
    cases text : indented? line <;> simp [text]

end OutputReader

/-- The lines of an entry, each with its address: the first at that of the entry, and the next ones
an instruction further each. -/
def ListingEntry.addressed (entry : ListingEntry) : List (Nat × Text) :=
  entry.written.mapIdx fun index text => (entry.address + Machine.instructionSize * index, text)

theorem ListingEntry.map_snd_addressed (entry : ListingEntry) :
    entry.addressed.map Prod.snd = entry.written := by
  apply List.ext_getElem?
  intro index
  rw [addressed, List.getElem?_map, List.getElem?_mapIdx, Option.map_map]
  exact congrFun Option.map_id _

def Placement.content? (placement : Placement) : Option (Nat × Nat × Text) :=
  match placement.entry with
  | .item line => some (placement.number, placement.address, line.text)
  | .code statement _ _ => some (placement.number, placement.address, statement.text)
  | _ => none

def Cursor.reader (cursor : Cursor) : OutputReader := ⟨cursor.inside, cursor.address⟩

namespace Contribution

variable {settings : Settings} {table : SymbolTable} {file : Text} {cursor : Cursor} {raw : Text}
  {placement : Placement} {emission : Emission}

/-- Reading the lines written for a source line leads from where the line begins to where it ends. -/
theorem readAll_eq (contribution : Contribution settings table file cursor raw placement emission) :
    cursor.reader.readAll ((emission.outputLines cursor.inside).map OutputLine.render) =
      placement.after.reader := by
  cases contribution with
  | nothing inert unlabelled =>
    simp [Emission.outputLines, Cursor.reader, Placement.after, Placement.next,
      Entry.size_of_not_isEmitted inert]
  | @directive line target read directive =>
    by_cases same : cursor.inside = some target
    · simp [Emission.outputLines, Cursor.reader, Placement.after, Placement.next, Entry.size,
        same]
    · simp only [Emission.outputLines, same, if_false, List.map_cons, List.map_nil]
      exact OutputReader.read_directive cursor.reader target
  | @label line name read label =>
    cases settings.keepLabels with
    | false => rfl
    | true => exact OutputReader.read_label cursor.reader (Line.isName_of_read read label)
  | item read content data resolved =>
    refine (OutputReader.readAll_indented cursor.reader [_]).trans ?_
    simp only [Cursor.reader, data]
    rfl
  | code read code valid writes =>
    refine (OutputReader.readAll_indented cursor.reader _).trans ?_
    have size : 4 * _ = _ := writes.size_eq valid
    simp only [Cursor.reader, code, OutputReader.lineSize, size]
    rfl

theorem marks_eq (kept : settings.keepLabels = true)
    (contribution : Contribution settings table file cursor raw placement emission) :
    cursor.reader.marks ((emission.outputLines cursor.inside).map OutputLine.render) =
      placement.definition?.toList := by
  cases contribution with
  | nothing inert unlabelled =>
    rw [Placement.definition?, unlabelled]
    rfl
  | @directive line target read directive =>
    have undefined : Placement.definition? ⟨cursor.number, some target, cursor.address,
        .passive line⟩ = none := by
      simp only [Placement.definition?, Placement.symbol?, directive, Option.map_none]
    rw [undefined]
    by_cases same : cursor.inside = some target
    · simp only [Emission.outputLines, same, if_true]
      rfl
    · simp only [Emission.outputLines, same, if_false, List.map_cons, List.map_nil,
        OutputReader.marks_cons, OutputReader.labelName?_directive]
      rfl
  | @label line name read label =>
    have valid := Line.isName_of_read read label
    simp only [Placement.definition?, Placement.symbol?, label, kept, if_true,
      Emission.outputLines, List.map_cons, List.map_nil, OutputReader.marks_cons,
      OutputReader.labelName?_label valid]
    rfl
  | item => exact OutputReader.marks_indented cursor.reader [_]
  | code => exact OutputReader.marks_indented cursor.reader _

theorem content_eq
    (contribution : Contribution settings table file cursor raw placement emission) :
    cursor.reader.content ((emission.outputLines cursor.inside).map OutputLine.render) =
      (emission.listed placement).flatMap ListingEntry.addressed := by
  cases contribution with
  | nothing => rfl
  | @directive line target read directive =>
    by_cases same : cursor.inside = some target
    · simp only [Emission.outputLines, same, if_true]
      rfl
    · simp only [Emission.outputLines, same, if_false, List.map_cons, List.map_nil,
        OutputReader.content_cons, OutputReader.indented?_directive]
      rfl
  | @label line name read label =>
    have valid := Line.isName_of_read read label
    cases settings.keepLabels with
    | false => rfl
    | true =>
      simp only [if_true, Emission.outputLines, List.map_cons, List.map_nil,
        OutputReader.content_cons, OutputReader.indented?_label valid]
      rfl
  | item read content data resolved =>
    refine (OutputReader.content_indented cursor.reader [_]).trans ?_
    simp [Emission.listed, ListingEntry.addressed, Cursor.reader]
  | code read code valid writes =>
    refine (OutputReader.content_indented cursor.reader _).trans ?_
    simp only [Emission.listed, ListingEntry.addressed, Cursor.reader, code, List.flatMap_cons,
      List.flatMap_nil, List.append_nil]
    rfl

theorem listed_eq (contribution : Contribution settings table file cursor raw placement emission) :
    (emission.listed placement).map (fun entry => (entry.number, entry.address, entry.source)) =
      placement.content?.toList := by
  cases contribution with
  | @nothing entry inert unlabelled =>
    cases entry with
    | item | code => cases inert
    | _ => rfl
  | directive => rfl
  | label => cases settings.keepLabels <;> rfl
  | item => rfl
  | code read code valid writes =>
    simp only [Placement.content?, valid.text_eq]
    rfl

theorem written_ne_nil
    (contribution : Contribution settings table file cursor raw placement emission) :
    ∀ entry ∈ emission.listed placement, entry.written ≠ [] := by
  cases contribution with
  | nothing | directive => exact fun entry member => absurd member List.not_mem_nil
  | label =>
    cases settings.keepLabels <;> exact fun entry member => absurd member List.not_mem_nil
  | item => exact List.forall_mem_singleton.mpr (List.cons_ne_nil _ _)
  | code read code valid writes => exact List.forall_mem_singleton.mpr writes.ne_nil

end Contribution

namespace Transcribed

variable {settings : Settings} {table : SymbolTable} {file : Text} {start finish : Cursor}
  {lines : List Text} {placements : List Placement} {output : List OutputLine}
  {listing : List ListingEntry}

theorem readAll_eq
    (transcribed : Transcribed settings table file start lines placements output listing finish) :
    start.reader.readAll (output.map OutputLine.render) = finish.reader := by
  induction transcribed with
  | nil cursor => rfl
  | cons contribution rest ih =>
    rw [List.map_append, OutputReader.readAll_append, contribution.readAll_eq, ih]

theorem marks_eq (kept : settings.keepLabels = true)
    (transcribed : Transcribed settings table file start lines placements output listing finish) :
    start.reader.marks (output.map OutputLine.render) =
      placements.filterMap Placement.definition? := by
  induction transcribed with
  | nil cursor => rfl
  | @cons cursor _ _ _ placement _ emission _ _ contribution rest ih =>
    rw [List.map_append, OutputReader.marks_append, contribution.readAll_eq,
      contribution.marks_eq kept, ih]
    cases defined : placement.definition? <;> simp [defined]

theorem content_eq
    (transcribed : Transcribed settings table file start lines placements output listing finish) :
    start.reader.content (output.map OutputLine.render) =
      listing.flatMap ListingEntry.addressed := by
  induction transcribed with
  | nil cursor => rfl
  | @cons cursor _ _ _ placement _ emission _ _ contribution rest ih =>
    rw [List.map_append, OutputReader.content_append, contribution.readAll_eq,
      contribution.content_eq, ih, List.flatMap_append]

theorem indented_eq
    (transcribed : Transcribed settings table file start lines placements output listing finish) :
    (output.map OutputLine.render).filterMap OutputReader.indented? =
      listing.flatMap ListingEntry.written := by
  have texts := congrArg (List.map Prod.snd) transcribed.content_eq
  rw [OutputReader.map_snd_content, List.map_flatMap] at texts
  rw [texts]
  simp only [ListingEntry.map_snd_addressed]

theorem listing_eq
    (transcribed : Transcribed settings table file start lines placements output listing finish) :
    listing.map (fun entry => (entry.number, entry.address, entry.source)) =
      placements.filterMap Placement.content? := by
  induction transcribed with
  | nil cursor => rfl
  | @cons _ _ _ _ placement _ _ _ _ contribution rest ih =>
    rw [List.map_append, contribution.listed_eq, ih]
    cases listed : placement.content? <;> simp [listed]

theorem written_ne_nil
    (transcribed : Transcribed settings table file start lines placements output listing finish) :
    ∀ entry ∈ listing, entry.written ≠ [] := by
  induction transcribed with
  | nil cursor => exact fun entry member => absurd member List.not_mem_nil
  | cons contribution rest ih =>
    rw [List.forall_mem_append]
    exact ⟨contribution.written_ne_nil, ih⟩

theorem address_le
    (transcribed : Transcribed settings table file start lines placements output listing finish) :
    start.address ≤ finish.address := by
  induction transcribed with
  | nil cursor => exact Nat.le_refl _
  | @cons cursor _ _ _ placement _ _ _ _ contribution rest ih =>
    have same : placement.address = cursor.address := by cases contribution <;> rfl
    have advanced : placement.after.address = placement.address + placement.entry.size := rfl
    omega

end Transcribed

namespace Run

/-- The output of a run that keeps labels and passes nothing through, read with a counter of
addresses that starts at the base address: it ends at the end of the program; every label line is met
at the address where its line was placed, and the last one of a name at the address that the table
has; and the indented lines are those of the listing, of which every entry begins at the address of
its line. -/
theorem output_addresses {settings : Settings} {file : Text} {lines output : List Text}
    (kept : settings.keepLabels = true)
    (returned : (Run.ofLines settings file lines).result = .ok output)
    (resolved : settings.allowUndefined = false ∨ (Run.ofLines settings file lines).Resolved) :
    let run := Run.ofLines settings file lines
    let placements := (Layout.ofLines settings.base file lines).placements
    let reader : OutputReader := ⟨none, settings.base⟩
    (reader.readAll output).address = settings.base + run.codeSize settings ∧
    reader.marks output = placements.filterMap Placement.definition? ∧
    (∀ before name address after, reader.marks output = before ++ (name, address) :: after →
      name ∉ after.map Prod.fst → (run.symbols.find? name).map Symbol.address = some address) ∧
    reader.content output = run.listing.flatMap ListingEntry.addressed ∧
    run.listing.map (fun entry => (entry.number, entry.address, entry.source)) =
      placements.filterMap Placement.content? ∧
    ∀ entry ∈ run.listing, entry.written ≠ [] := by
  obtain ⟨outcome, rfl⟩ := outcome_of_result returned
  obtain ⟨placements, finish, assembled⟩ := assembled_of_outcome outcome
  have transcribed := assembled.transcribed resolved
  have marks := transcribed.marks_eq kept
  have grown := transcribed.address_le
  dsimp only
  rw [assembled.placements_eq]
  refine ⟨?_, marks, ?_, transcribed.content_eq, transcribed.listing_eq, transcribed.written_ne_nil⟩
  · have ended := congrArg OutputReader.address transcribed.readAll_eq
    rw [codeSize, assembled.ended]
    refine ended.trans ?_
    have start : settings.start.address = settings.base := rfl
    have finished : finish.reader.address = finish.address := rfl
    omega
  · intro before name address after split last
    -- the marks are the bindings of the table in the order in which they were made
    have definitions : placements.filterMap Placement.definition? =
        (placements.filterMap Placement.symbol?).map fun symbol => (symbol.name, symbol.address) := by
      rw [List.map_filterMap]
      rfl
    rw [assembled.symbols]
    exact SymbolTable.address_of_last ((definitions.symm.trans marks.symm).trans split) last

/-- A program with a stray line, a refused pseudo-instruction, a repeated directive and a label that
is defined again behind its first use. -/
theorem output_addresses_redefined :
    let lines : List Text := ["ignored", ".code", ":TOP", "ld r1, :END", ".code", "push r2", "in r1",
      ":TOP", "brr :TOP", ".data", "42 :TOP", ":END", "7"]
    let run := Run.ofLines { keepLabels := true } "demo" lines
    let reader : OutputReader := ⟨none, 0x1000⟩
    run.result = .ok run.outputLines ∧ run.Resolved ∧
    (reader.readAll run.outputLines).address = 0x1000 + run.codeSize { keepLabels := true } ∧
    reader.marks run.outputLines =
      ([("TOP", 0x1000), ("TOP", 0x1038), ("END", 0x1044)] : List (Text × Nat)) ∧
    (run.symbols.find? "TOP").map Symbol.address = some 0x1038 := by
  intro lines run reader
  have returned : run.result = .ok run.outputLines := by rfl
  have resolved : run.Resolved := by decide +kernel
  obtain ⟨ended, marks, bound, -⟩ :=
    output_addresses (show Settings.keepLabels { keepLabels := true } = true from rfl) returned
      (.inr resolved)
  have placed : reader.marks run.outputLines =
      ([("TOP", 0x1000), ("TOP", 0x1038), ("END", 0x1044)] : List (Text × Nat)) :=
    marks.trans (by decide +kernel)
  exact ⟨returned, resolved, ended, placed,
    bound [("TOP".toList, 0x1000)] "TOP" 0x1038 [("END".toList, 0x1044)] placed (by decide)⟩

end Run

end TwoPass
