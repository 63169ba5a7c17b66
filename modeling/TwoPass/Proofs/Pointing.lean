import TwoPass.Proofs.Permission
import TwoPass.Proofs.Subject
import TwoPass.Proofs.Text.LineBreak
import TwoPass.Proofs.Text.Lines

/-! Where the problems of a line are told.

Whatever fails over a line, reading it, sizing it, scanning, parsing or checking it, resolving its
labels, the problem has the file and the number of the line, and its column is that of the characters
which the problem is about. The message stays within one line, so that under it stands the line as it
is and then a caret right under the column. -/

set_option autoImplicit false

namespace TwoPass

/-! ### The lines of a message -/

namespace Text

def isPlain (c : Char) : Bool := 0x20 ≤ c.toNat && c.toNat ≤ 0x7E

def DrawnFrom (source text : Text) : Prop := ∀ c ∈ text, isPlain c = true ∨ c ∈ source

theorem isPlain_of_isDigit {c : Char} (digit : c.isDigit = true) : isPlain c = true := by
  rw [isDigit_iff] at digit
  simp only [isPlain, Bool.and_eq_true, decide_eq_true_eq]
  omega

theorem not_isLineBreak_of_isPlain {c : Char} (plain : isPlain c = true) : isLineBreak c = false := by
  simp only [isPlain, Bool.and_eq_true, decide_eq_true_eq] at plain
  simp only [isLineBreak, Bool.or_eq_false_iff, Bool.and_eq_false_iff, decide_eq_false_iff_not,
    beq_eq_false_iff_ne]
  omega

namespace DrawnFrom

variable {source text more : Text}

theorem of_plain (plain : text.all isPlain = true) : DrawnFrom source text :=
  fun c member => .inl (List.all_eq_true.mp plain c member)

theorem of_subset (part : text ⊆ source) : DrawnFrom source text := fun _ member => .inr (part member)

theorem append (first : DrawnFrom source text) (second : DrawnFrom source more) :
    DrawnFrom source (text ++ more) := by
  intro c member
  rcases List.mem_append.mp member with front | back
  · exact first c front
  · exact second c back

theorem between {before after : Text} (drawn : DrawnFrom source text) (front : before.all isPlain = true)
    (back : after.all isPlain = true) : DrawnFrom source (before ++ text ++ after) :=
  ((of_plain front).append drawn).append (of_plain back)

theorem mono {other : Text} (drawn : DrawnFrom source text) (part : source ⊆ other) :
    DrawnFrom other text := fun c member => (drawn c member).imp_right fun there => part there

theorem decimalNat (value : Nat) : DrawnFrom source (Numeral.decimalNat value) :=
  fun _ member => .inl (isPlain_of_isDigit (Numeral.isDigit_of_mem_decimalNat member))

theorem decimal (value : Int) : DrawnFrom source (Numeral.decimal value) := by
  unfold Numeral.decimal
  split
  · have minus : DrawnFrom source ['-'] := of_plain rfl
    exact minus.append (decimalNat _)
  · exact decimalNat _

end DrawnFrom

end Text

open Text (DrawnFrom)

theorem Malformation.About.drawn {text subject : Text} {offset : Nat} {cause : Malformation}
    (about : cause.About text offset subject) : DrawnFrom subject cause.message := by
  have own : DrawnFrom subject subject := .of_subset (List.Subset.refl _)
  have expected {what : Text} (listed : what ∈ expectations) : DrawnFrom subject what := by
    apply DrawnFrom.of_plain
    revert what
    decide
  cases about with
  | character | number | instruction | operand => exact own.between rfl rfl
  | hexDigits | labelName | noInstruction | noOperand => exact .of_plain rfl
  | token member listed => exact (((expected listed).between rfl rfl).append own).append (.of_plain rfl)
  | noToken listed =>
    exact (((expected listed).between rfl rfl).append (.of_plain rfl)).append (.of_plain rfl)

theorem Slot.drawn_immediateName? {slot : Slot} {what source : Text}
    (named : slot.immediateName? = some what) : DrawnFrom source what := by
  cases slot <;> cases named <;> exact .of_plain rfl

theorem Line.About.drawn {line : Line} {fault : Fault} {offset : Nat} {subject : Text}
    (about : line.About fault offset subject) : DrawnFrom subject fault.message := by
  have own : DrawnFrom subject subject := .of_subset (List.Subset.refl _)
  cases about with
  | malformed about => exact about.drawn
  | pseudoMalformed listed about =>
    have mnemonic {instruction : Instruction} (listed : instruction ∈ Instruction.catalog) :
        DrawnFrom subject instruction.mnemonic := by
      apply DrawnFrom.of_plain
      revert instruction
      decide
    exact ((mnemonic listed).between rfl rfl).append about.drawn
  | unknownInstruction | operandShape | pseudoShape => exact own.between rfl rfl
  | register => exact (DrawnFrom.append (.of_plain rfl) (.decimalNat _)).between rfl rfl
  | immediate read member denotes named =>
    exact (((Slot.drawn_immediateName? named).append (.of_plain rfl)).append (.decimal _)).append
      (.of_plain rfl)
  | displacement => exact (DrawnFrom.decimal _).between rfl rfl
  | label | reference => exact (DrawnFrom.of_subset (List.subset_cons_self _ _)).between rfl rfl
  | branch =>
    exact (((DrawnFrom.of_subset (List.subset_cons_self _ _)).between rfl rfl).append (.decimal _)).append
      (.of_plain rfl)

/-! ### What fails over a line -/

/-- The problems that come of one line, whichever step of the assembly finds them. -/
inductive Raised (raw file : Text) (number : Int) : Problem → Prop
  | read {found : Problem} (failed : Line.read raw file number = .error found) :
    Raised raw file number found
  | sized {line : Line} {fault : Fault} (inside : Option Section)
    (read : Line.read raw file number = .ok line)
    (failed : contentSize inside line.text = .error fault) :
    Raised raw file number (line.problem fault 0)
  | scanned {line : Line} {cause : Malformation} {offset : Nat}
    (read : Line.read raw file number = .ok line)
    (failed : (Scan.ofText line.text).ending = .error (.malformed cause, offset)) :
    Raised raw file number (line.problem (.malformed cause) offset)
  | parsed {line : Line} {found : Problem} (read : Line.read raw file number = .ok line)
    (failed : Statement.read line = .error (.problem found)) : Raised raw file number found
  | checked {line : Line} {statement : Statement} {found : Problem}
    (read : Line.read raw file number = .ok line) (parsed : Statement.read line = .ok statement)
    (failed : statement.check = .error (.problem found)) : Raised raw file number found
  | resolved {line : Line} {statement : Statement} {shape : Shape} {found : Problem}
    (table : SymbolTable) (place : Int) (read : Line.read raw file number = .ok line)
    (parsed : Statement.read line = .ok statement) (checked : statement.check = .ok shape)
    (failed : statement.resolve table shape place = .error (.problem found)) :
    Raised raw file number found
  | substituted {line : Line} {found : Problem} (table : SymbolTable)
    (read : Line.read raw file number = .ok line)
    (failed : line.resolveData table = .error found) : Raised raw file number found
  /-- An undefined label that is allowed. -/
  | downgraded {found : Problem} (raised : Raised raw file number found) :
    Raised raw file number found.downgraded

/-- The characters of a line that a fault is about and their offset: the word of a directive that there
is not, what stands behind the colon of a label line, or what content is faulted for. -/
inductive Fault.Subject (raw file : Text) (number : Int) : Fault → Nat → Text → Prop
  | directive {offset : Nat} (word : Text)
    (blanks : ∀ c ∈ (Line.withoutBreak raw).take offset, Text.isBlank c = true) :
    Subject raw file number (.unknownDirective word) offset word
  | labelLine {offset : Nat} (rest : Text)
    (blanks : ∀ c ∈ (Line.withoutBreak raw).take offset, Text.isBlank c = true) :
    Subject raw file number (.malformed (.invalidLabelLine (':' :: rest))) (offset + 1) rest
  | content {line : Line} {fault : Fault} {offset : Nat} {subject : Text}
    (read : Line.read raw file number = .ok line) (about : line.About fault offset subject) :
    Subject raw file number fault (line.indent + offset) subject

theorem Fault.Subject.drawn {raw file subject : Text} {number : Int} {fault : Fault} {offset : Nat}
    (about : Fault.Subject raw file number fault offset subject) : DrawnFrom subject fault.message := by
  have own : DrawnFrom subject subject := .of_subset (List.Subset.refl _)
  cases about with
  | directive => exact own.between rfl rfl
  | labelLine =>
    -- the message quotes the colon too, which is no part of the subject
    have colon : DrawnFrom subject [':'] := .of_plain rfl
    exact (colon.append own).between rfl rfl
  | content read about => exact about.drawn

structure Problem.At (raw file : Text) (number : Int) (found : Problem) (offset : Nat)
    (subject : Text) : Prop where
  location : found.location = some ⟨file, number, offset + 1⟩
  sourceLine : found.sourceLine = some (Line.withoutBreak raw)
  within : offset ≤ (Line.withoutBreak raw).length
  about : Fault.Subject raw file number found.fault offset subject
  begins : subject <+: (Line.withoutBreak raw).drop offset

/-! ### From the text of a line to the line -/

namespace Line

variable {raw file : Text} {number : Int} {line : Line} {found : Problem}

theorem PointsAt.exists_at (points : line.PointsAt found)
    (read : Line.read raw file number = .ok line) :
    ∃ offset subject, found.At raw file number offset subject := by
  obtain ⟨fault, offset, subject, rfl, within, about, begins⟩ := points
  obtain ⟨sameFile, sameNumber, sameRaw, -⟩ := read_eq_ok_iff.mp read
  have part := text_begins read
  refine ⟨line.indent + offset, subject, ?_, ?_, ?_, .content read about, ?_⟩
  · simp [problem, location, sameFile, sameNumber]
  · rw [problem, sameRaw]
  · have room := part.length_le
    have fits := indent_le read
    rw [List.length_drop] at room
    omega
  · rw [← List.drop_drop]
    exact begins.trans (part.drop offset)

theorem exists_at_of_read (failed : Line.read raw file number = .error found) :
    ∃ offset subject, found.At raw file number offset subject := by
  obtain ⟨fault, offset, refused, rfl⟩ := read_eq_error failed
  -- the offset counts from the first character that is not blank
  have whole := Text.trim_begins (withoutBreak raw)
  have fits : (withoutBreak raw).length - (Text.trimLeft (withoutBreak raw)).length ≤
      (withoutBreak raw).length := Nat.sub_le _ _
  rcases Body.ofText_eq_error refused with ⟨rfl, rfl⟩ | ⟨rest, text, rfl, rfl⟩
  · exact ⟨_, _, rfl, rfl, fits, .directive _ fun _ => Text.isBlank_of_mem_indent,
      (Text.firstWord_begins (Text.trimmed_trim _)).trans whole⟩
  · rw [text] at whole
    have room := whole.length_le
    rw [List.length_drop, List.length_cons] at room
    refine ⟨_ + 1, rest, rfl, rfl, by omega, .labelLine rest fun _ => Text.isBlank_of_mem_indent, ?_⟩
    rw [← List.drop_drop]
    exact whole.drop 1

end Line

theorem Problem.At.downgraded {raw file subject : Text} {number : Int} {found : Problem} {offset : Nat}
    (told : found.At raw file number offset subject) :
    found.downgraded.At raw file number offset subject := by
  unfold Problem.downgraded
  split
  · next name hint similar severity same =>
    have about := told.about
    rw [same] at about
    refine ⟨told.location, told.sourceLine, told.within, ?_, told.begins⟩
    -- only references can be undefined, and the characters do not depend on hint and severity
    cases about with
    | content read about =>
      cases about with
      | label parsed member denotes => exact .content read (.label parsed member denotes _ similar .error)
      | reference refers => exact .content read (.reference refers _ similar .error)
  · exact told

theorem Statement.exists_valid {line : Line} {statement : Statement} {shape : Shape}
    (read : Statement.read line = .ok statement) (checked : statement.check = .ok shape) :
    ∃ instruction, Statement.Valid line statement instruction shape := by
  cases known : Instruction.find? statement.mnemonic with
  | none =>
    rw [check_of_unlisted known] at checked
    cases checked
  | some instruction => exact ⟨instruction, (read_eq_ok_iff.mp read).1, read, known, checked⟩

/-- Whatever fails over a line is told where the characters begin that it is about. -/
theorem Raised.exists_at {raw file : Text} {number : Int} {found : Problem}
    (raised : Raised raw file number found) :
    ∃ offset subject, found.At raw file number offset subject := by
  induction raised with
  | read failed => exact Line.exists_at_of_read failed
  | sized inside read failed =>
    have leads := Text.firstWord_begins (Line.trimmed_of_read read)
    exact (Line.PointsAt.of_contentSize leads failed).exists_at read
  | scanned read failed =>
    obtain ⟨subject, about, some_character, begins⟩ := Scan.about_of_ending failed
    refine Line.PointsAt.exists_at ?_ read
    exact ⟨_, _, _, rfl, Text.le_of_begins some_character begins, .malformed about, begins⟩
  | parsed read failed => exact (Line.PointsAt.of_read failed).exists_at read
  | checked read parsed failed =>
    have leads := Text.firstWord_begins (Line.trimmed_of_read read)
    exact (Line.PointsAt.of_check leads parsed failed).exists_at read
  | resolved table place read parsed checked failed =>
    obtain ⟨instruction, valid⟩ := Statement.exists_valid parsed checked
    obtain ⟨other, told, same⟩ := Option.map_eq_some_iff.mp (valid.resolve_answers.eq_some failed)
    cases same
    exact (Line.PointsAt.of_labelProblem? parsed told).exists_at read
  | @substituted line found table read failed =>
    have told := (line.resolveData_answers table).eq_some failed
    exact (Line.PointsAt.of_itemProblem? told).exists_at read
  | downgraded raised ih =>
    obtain ⟨offset, subject, told⟩ := ih
    exact ⟨offset, subject, told.downgraded⟩

/-! ### The caret -/

namespace Text

/-- A way to cut a text into lines: a line feed ends a line, and no plain character does. -/
structure LineSplit (split : Text → List Text) (ends : Char → Bool) : Prop where
  plain {c : Char} : isPlain c = true → ends c = false
  feed {line : Text} (rest : Text) : (∀ c ∈ line, ends c = false) →
    split (line ++ '\n' :: rest) = line :: split rest
  last {line : Text} : line ≠ [] → (∀ c ∈ line, ends c = false) → split line = [line]

theorem lineSplit_splitLines : LineSplit splitLines isLineBreak :=
  ⟨not_isLineBreak_of_isPlain, fun rest unbroken => splitLines_append_break unbroken rest,
    splitLines_of_unbroken⟩

theorem lineSplit_splitOn : LineSplit (List.splitOn '\n') (· == '\n') := by
  refine ⟨fun {c} plain => ?_, fun rest whole => ?_, fun _ whole => ?_⟩
  · rw [beq_eq_false_iff_ne]
    rintro rfl
    cases plain
  · exact List.splitOnP_append_cons_of_forall_mem whole _ rfl rest
  · exact List.splitOnP_eq_singleton whole

theorem LineSplit.split_lines {split : Text → List Text} {ends : Char → Bool}
    (splits : LineSplit split ends) {first second third : Text} (rest : List Text)
    (firstWhole : ∀ c ∈ first, ends c = false) (secondWhole : ∀ c ∈ second, ends c = false)
    (thirdWhole : ∀ c ∈ third, ends c = false) (some_character : third ≠ []) :
    ∃ more, split (lines (first :: second :: third :: rest)) = first :: second :: third :: more := by
  rw [lines_cons_cons, splits.feed _ firstWhole, lines_cons_cons, splits.feed _ secondWhole]
  cases rest with
  | nil =>
    have alone : lines [third] = third := by simp [lines, join, List.intercalate]
    exact ⟨[], by rw [alone, splits.last some_character thirdWhole]⟩
  | cons fourth rest => exact ⟨_, by rw [lines_cons_cons, splits.feed _ thirdWhole]⟩

end Text

namespace Problem.At

variable {raw file subject : Text} {number : Int} {found : Problem} {offset : Nat}

theorem drawn_headline (told : found.At raw file number offset subject) :
    DrawnFrom (file ++ Line.withoutBreak raw) found.headline := by
  have quoted : subject ⊆ Line.withoutBreak raw :=
    fun c member => List.mem_of_mem_drop (told.begins.subset member)
  have message : DrawnFrom (file ++ Line.withoutBreak raw) found.fault.message :=
    told.about.drawn.mono (List.subset_append_of_subset_right file quoted)
  have word : DrawnFrom (file ++ Line.withoutBreak raw) found.severity.word := by
    cases found.severity <;> exact .of_plain rfl
  have named : DrawnFrom (file ++ Line.withoutBreak raw) file :=
    .of_subset (List.subset_append_left file _)
  rw [headline, told.location]
  have place : DrawnFrom (file ++ Line.withoutBreak raw)
      (Location.text ⟨file, number, offset + 1⟩) :=
    .append (.append (.append (.append named (.of_plain rfl)) (.decimal _)) (.of_plain rfl)) (.decimal _)
  exact .append (.append place (.of_plain rfl)) (.append (.append word (.of_plain rfl)) message)

theorem text_eq (told : found.At raw file number offset subject) :
    found.text = Text.lines (found.headline :: ("    " ++ Line.withoutBreak raw) ::
      (List.replicate (4 + offset) ' ' ++ "^") :: found.hintLines) := by
  have positive : (0 : Int) < offset + 1 := by omega
  have column : 4 + ((offset : Int) + 1).toNat - 1 = 4 + offset := by omega
  rw [text, context, told.location, told.sourceLine]
  simp only [column, if_pos positive, List.cons_append, List.nil_append]

theorem shown {split : Text → List Text} {ends : Char → Bool} (splits : Text.LineSplit split ends)
    (told : found.At raw file number offset subject) (named : ∀ c ∈ file, ends c = false)
    (whole : ∀ c ∈ Line.withoutBreak raw, ends c = false) :
    (split found.text)[1]? = some ("    " ++ Line.withoutBreak raw) ∧
      (split found.text)[2]? = some (List.replicate (4 + offset) ' ' ++ "^") := by
  have drawn {text : Text} (from_both : DrawnFrom (file ++ Line.withoutBreak raw) text) :
      ∀ c ∈ text, ends c = false := by
    intro c member
    rcases from_both c member with plain | there
    · exact splits.plain plain
    · rcases List.mem_append.mp there with own | own
      · exact named c own
      · exact whole c own
  have source : DrawnFrom (file ++ Line.withoutBreak raw) ("    " ++ Line.withoutBreak raw) :=
    .append (.of_plain rfl) (.of_subset (List.subset_append_right file _))
  have caret : DrawnFrom (file ++ Line.withoutBreak raw)
      (List.replicate (4 + offset) ' ' ++ "^") := by
    refine .append (fun c member => .inl ?_) (.of_plain rfl)
    rw [List.eq_of_mem_replicate member]
    rfl
  obtain ⟨more, cut⟩ := splits.split_lines found.hintLines (drawn told.drawn_headline) (drawn source)
    (drawn caret) (by simp)
  rw [told.text_eq, cut]
  exact ⟨rfl, rfl⟩

end Problem.At

/-! ### What a run tells -/

namespace Raised

variable {raw file : Text} {number : Int} {line : Line} {found : Problem}

theorem of_ofCode (read : Line.read raw file number = .ok line)
    (failed : Entry.ofCode line = .error (.problem found)) : Raised raw file number found := by
  unfold Entry.ofCode at failed
  split at failed
  · next fault unknown =>
    cases failed
    have unsized : contentSize (some .code) line.text = .error fault := by
      rw [contentSize, unknown]
      rfl
    exact .sized (some .code) read unsized
  · rcases Except.bind_eq_error_iff.mp failed with unread | ⟨statement, parsed, failed⟩
    · exact .parsed read unread
    · rcases Except.bind_eq_error_iff.mp failed with unchecked | ⟨shape, -, ended⟩
      · exact .checked read parsed unchecked
      · cases ended

theorem of_told {settings : Settings} (raised : Raised raw file number found) {other : Problem}
    (told : .problem other = settings.told found) : Raised raw file number other := by
  cases told
  split
  · exact .downgraded raised
  · exact raised

end Raised

namespace Placement

variable {settings : Settings} {table : SymbolTable} {file raw : Text} {inside : Option Section}
  {placement : Placement} {found : Problem}

/-- But for a label whose address is too large, collecting tells what fails over the line. -/
theorem raised_of_collecting {before : List Placement}
    (placed : Placed file placement.number inside raw placement.inside placement.entry)
    (told : .problem found ∈ placement.toldOnCollecting before)
    (other : found.fault.category ≠ .addressOverflow) :
    Raised raw file placement.number found := by
  obtain ⟨number, after, address, entry⟩ := placement
  dsimp only at placed
  cases placed with
  | unread failed =>
    cases List.mem_singleton.mp told
    exact .read failed
  | refused read content code failed =>
    cases List.mem_singleton.mp told
    exact .of_ofCode read failed
  | passive read =>
    rw [toldOnCollecting] at told
    dsimp only at told
    split at told
    · split at told
      · split at told
        · cases told
        · cases List.mem_singleton.mp told
      · cases List.mem_singleton.mp told
        exact absurd rfl other
    · cases told
  | stray read => cases List.mem_singleton.mp told
  | item | code => cases told

theorem raised_of_emitting
    (placed : Placed file placement.number inside raw placement.inside placement.entry)
    (told : .problem found ∈ placement.toldOnEmitting settings table) :
    Raised raw file placement.number found := by
  obtain ⟨number, after, address, entry⟩ := placement
  dsimp only at placed
  cases placed with
  | unread | refused | passive | stray => cases told
  | @item line read content data =>
    have answers := line.resolveData_answers table
    rw [toldOnEmitting] at told
    dsimp only at told
    obtain ⟨own, some_problem, same⟩ := List.mem_map.mp told
    rw [Option.mem_toList] at some_problem
    rw [some_problem] at answers
    exact (Raised.substituted table read answers.eq_error).of_told same.symm
  | @code line statement instruction shape read code valid =>
    rw [toldOnEmitting] at told
    dsimp only at told
    obtain ⟨own, some_problem, same⟩ := List.mem_map.mp told
    rw [Option.mem_toList] at some_problem
    have failed := valid.resolve_of_problem some_problem
    exact (Raised.resolved table address read valid.read valid.check failed).of_told same.symm

end Placement

theorem Run.raised_of_reported {settings : Settings} {file : Text} {lines : List Text} {found : Problem}
    (reported : .problem found ∈ (Run.ofLines settings file lines).report.diagnostics)
    (other : found.fault.category ≠ .addressOverflow) :
    ∃ index raw, lines[index]? = some raw ∧ Raised raw file (index + 1 : Nat) found := by
  obtain ⟨front, after, ⟨rest, whole⟩, laid⟩ := Laid.of_layFrom file settings.start lines
  have placed_line (placement : Placement)
      (member : placement ∈ (Layout.ofLines settings.base file lines).placements) :
      ∃ inside index raw, placement.number = index + 1 ∧ lines[index]? = some raw ∧
        Placed file placement.number inside raw placement.inside placement.entry := by
    obtain ⟨above, inside, raw, own, placed⟩ := laid.line_of_mem placement member
    have start : settings.start.number = 1 := rfl
    rw [start] at above own
    refine ⟨inside, placement.number - 1, raw, (Nat.sub_add_cancel above).symm, ?_, placed⟩
    obtain ⟨short, -⟩ := List.getElem?_eq_some_iff.mp own
    rw [← whole, List.getElem?_append_left short, own]
  rcases List.mem_append.mp ((reported_sublist settings file lines).subset reported) with
    collecting | emitting
  · obtain ⟨placement, member, before, told⟩ := Placement.exists_of_mem_collecting collecting
    obtain ⟨inside, index, raw, number, own, placed⟩ := placed_line placement member
    exact ⟨index, raw, own, number ▸ Placement.raised_of_collecting placed told other⟩
  · obtain ⟨placement, member, told⟩ := List.mem_flatMap.mp emitting
    obtain ⟨inside, index, raw, number, own, placed⟩ := placed_line placement member
    exact ⟨index, raw, own, number ▸ Placement.raised_of_emitting placed told⟩

/-- A problem that fails over a line has its file and number and a column within it or right behind
it, where the characters begin that it is about. The message shows the line in its second line, four
spaces in, and in its third a caret under the column. The problems that a run records all fail over one
of its lines, but for labels whose address is too large. -/
theorem problems_point_at_subject (file : Text) :
    (∀ (raw : Text) (number : Int) (found : Problem), Raised raw file number found →
      ∃ (column : Nat) (subject : Text),
        let line := Line.withoutBreak raw
        let shown : Text := "    " ++ line
        let caret : Text := List.replicate (4 + column - 1) ' ' ++ "^"
        found.location = some ⟨file, number, column⟩ ∧ 1 ≤ column ∧ column ≤ line.length + 1 ∧
        Fault.Subject raw file number found.fault (column - 1) subject ∧
        subject <+: line.drop (column - 1) ∧
        ('\n' ∉ file → '\n' ∉ line →
          (found.text.splitOn '\n')[1]? = some shown ∧ (found.text.splitOn '\n')[2]? = some caret) ∧
        (Text.Unbroken file → Text.Unbroken line →
          (Text.splitLines found.text)[1]? = some shown ∧
            (Text.splitLines found.text)[2]? = some caret)) ∧
    ∀ (settings : Settings) (lines : List Text) (found : Problem),
      .problem found ∈ (Run.ofLines settings file lines).report.diagnostics →
      found.fault.category ≠ .addressOverflow →
      ∃ index raw, lines[index]? = some raw ∧ Raised raw file (index + 1 : Nat) found := by
  constructor
  · intro raw number found raised
    obtain ⟨offset, subject, told⟩ := raised.exists_at
    refine ⟨offset + 1, subject, told.location, Nat.le_add_left 1 offset,
      Nat.succ_le_succ told.within, told.about, told.begins, ?_, ?_⟩
    · intro named whole
      have apart {text : Text} (absent : '\n' ∉ text) : ∀ c ∈ text, (c == '\n') = false := by
        intro c member
        rw [beq_eq_false_iff_ne]
        rintro rfl
        exact absent member
      exact told.shown Text.lineSplit_splitOn (apart named) (apart whole)
    · exact told.shown Text.lineSplit_splitLines
  · intro settings lines found reported other
    exact Run.raised_of_reported reported other

/-- A displacement behind a wide indent and in front of a comment. -/
theorem problems_point_at_subject_displacement :
    let raw : Text := "\t\u2003mov r1, (r2)(+5000) ; far\r\n"
    let found : Problem := ⟨.immediateRange 5000 (-2048) 2047 "memory offset", some ⟨"demo", 7, 16⟩,
      some "\t\u2003mov r1, (r2)(+5000) ; far"⟩
    Raised raw "demo" 7 found ∧
    (∃ subject, Fault.Subject raw "demo" 7 found.fault 15 subject ∧
      subject <+: "+5000) ; far".toList) ∧
    (Text.splitLines found.text)[2]? = some (List.replicate 19 ' ' ++ "^") := by
  intro raw found
  let line : Line := ⟨"demo", 7, "\t\u2003mov r1, (r2)(+5000) ; far", 2, "mov r1, (r2)(+5000)", .content⟩
  let statement : Statement := ⟨"mov", [⟨.register 1, "r1", 4, 6, false⟩,
    ⟨.memory 2 5000 13, "(r2)(+5000)", 8, 19, false⟩], line⟩
  have read : Line.read raw "demo" 7 = .ok line := by decide +kernel
  have parsed : Statement.read line = .ok statement := by decide +kernel
  have failed : statement.check = .error (.problem found) := by decide +kernel
  have raised : Raised raw "demo" 7 found := .checked read parsed failed
  obtain ⟨column, subject, place, -, -, about, begins, -, shown⟩ :=
    (problems_point_at_subject "demo").1 raw 7 found raised
  obtain rfl : column = 16 := by
    have columns : (16 : Int) = column := congrArg Location.column (Option.some.inj place)
    omega
  have named : Text.Unbroken "demo" := Text.unbroken_of_all rfl
  have whole : Text.Unbroken (Line.withoutBreak raw) := Text.unbroken_of_all rfl
  have behind : (Line.withoutBreak raw).drop 15 = "+5000) ; far" := by decide +kernel
  exact ⟨raised, ⟨subject, about, behind ▸ begins⟩, (shown named whole).2⟩

end TwoPass
