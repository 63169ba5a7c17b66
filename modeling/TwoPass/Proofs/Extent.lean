import TwoPass.Proofs.Collection
import TwoPass.Proofs.Line

/-! Addresses told from the source lines alone.

The size of a line depends on its characters and on the section it is in, and the address of a line
is the base address and the sizes of the lines in front of it. A layout agrees with that line by
line, and the table of a run has each label at the address of the last line that defines it. -/

set_option autoImplicit false

namespace TwoPass

namespace Source

def line? (raw : Text) : Option Line := (Line.read raw [] 0).toOption

def labelName? (raw : Text) : Option Text :=
  match (line? raw).map Line.body with
  | some (.label name) => some name
  | _ => none

def sectionAfter (inside : Option Section) (raw : Text) : Option Section :=
  match (line? raw).map Line.body with
  | some (.directive target) => some target
  | _ => inside

/-- The catalog size of a statement that passes the check, and nothing for any other line. -/
def codeSize (line : Line) : Nat :=
  match Statement.read line with
  | .error _ => 0
  | .ok statement =>
    match statement.check, statement.instruction? with
    | .ok _, some instruction => instruction.size
    | _, _ => 0

def sizeIn (line : Line) : Option Section → Nat
  | none => 0
  | some .data => 8
  | some .code => codeSize line

def lineSize (inside : Option Section) (raw : Text) : Nat :=
  match line? raw with
  | none => 0
  | some line => if line.body = .content then sizeIn line inside else 0

def sectionAfterAll (inside : Option Section) (lines : List Text) : Option Section :=
  lines.foldl sectionAfter inside

def extent (inside : Option Section) : List Text → Nat
  | [] => 0
  | raw :: rest => lineSize inside raw + extent (sectionAfter inside raw) rest

theorem extent_append (inside : Option Section) (front back : List Text) :
    extent inside (front ++ back) =
      extent inside front + extent (sectionAfterAll inside front) back := by
  induction front generalizing inside with
  | nil => simp [extent, sectionAfterAll]
  | cons raw rest ih =>
    rw [List.cons_append, extent, extent, ih, Nat.add_assoc]
    rfl

section
variable {raw file : Text} {number : Int}

theorem line?_eq_none {found : Problem} (failed : Line.read raw file number = .error found) :
    line? raw = none := by
  cases read : Line.read raw [] 0 with
  | error other =>
    rw [line?, read]
    rfl
  | ok line =>
    rw [Line.read_at read file number] at failed
    cases failed

theorem line?_eq_some {line : Line} (read : Line.read raw file number = .ok line) :
    line? raw = some { line with file := [], number := 0 } := by
  rw [line?, Line.read_at read [] 0]
  rfl

theorem sectionAfter_of_read {line : Line} (read : Line.read raw file number = .ok line)
    (inside : Option Section) : sectionAfter inside raw = line.sectionAfter inside := by
  simp only [sectionAfter, line?_eq_some read, Option.map_some, Line.sectionAfter]
  cases line.body <;> rfl

theorem labelName?_of_read {line : Line} (read : Line.read raw file number = .ok line) :
    labelName? raw = match line.body with
      | .label name => some name
      | _ => none := by
  simp only [labelName?, line?_eq_some read, Option.map_some]
  cases line.body <;> rfl

theorem exists_label_line {name : Text} (label : labelName? raw = some name) :
    ∃ line, line? raw = some line ∧ line.body = .label name := by
  unfold labelName? at label
  split at label
  · next body same =>
    cases label
    exact Option.map_eq_some_iff.mp same
  · cases label

theorem lineSize_of_other {line : Line} (read : Line.read raw file number = .ok line)
    (other : line.body ≠ .content) (inside : Option Section) : lineSize inside raw = 0 := by
  simp only [lineSize, line?_eq_some read, other, if_false]

end

theorem codeSize_of_valid {line : Line} {statement : Statement} {instruction : Instruction}
    {shape : Shape} (valid : Statement.Valid line statement instruction shape) :
    codeSize line = instruction.size := by
  simp only [codeSize, valid.read, valid.check, Statement.instruction?, valid.known]

theorem codeSize_of_invalid {line : Line} (content : line.body = .content)
    (invalid : ∀ statement instruction shape, ¬Statement.Valid line statement instruction shape) :
    codeSize line = 0 := by
  unfold codeSize
  split
  · rfl
  next statement read =>
  split
  · next shape instruction check known =>
    exact absurd ⟨content, read, known, check⟩ (invalid statement instruction shape)
  · rfl

theorem codeSize_relocated {line other : Line} (text : other.text = line.text)
    (content : line.body = .content) (content' : other.body = .content) :
    codeSize other = codeSize line := by
  by_cases some_valid : ∃ statement instruction shape,
      Statement.Valid line statement instruction shape
  · obtain ⟨statement, instruction, shape, valid⟩ := some_valid
    rw [codeSize_of_valid valid, codeSize_of_valid (valid.relocated text content')]
  · have invalid : ∀ statement instruction shape,
        ¬Statement.Valid other statement instruction shape := by
      intro statement instruction shape valid
      exact some_valid ⟨_, _, _, valid.relocated text.symm content⟩
    rw [codeSize_of_invalid content' invalid, codeSize_of_invalid content (by simpa using some_valid)]

theorem lineSize_of_content {raw file : Text} {number : Int} {line : Line}
    (read : Line.read raw file number = .ok line) (content : line.body = .content)
    (inside : Option Section) : lineSize inside raw = sizeIn line inside := by
  simp only [lineSize, line?_eq_some read, if_pos content]
  match inside with
  | none => rfl
  | some .data => rfl
  | some .code => exact codeSize_relocated rfl content content

end Source

variable {file : Text}

section
variable {number : Nat} {inside after : Option Section} {raw : Text} {entry : Entry}

theorem Placed.section_eq (placed : Placed file number inside raw after entry) :
    after = Source.sectionAfter inside raw := by
  cases placed with
  | unread failed =>
    rw [Source.sectionAfter, Source.line?_eq_none failed]
    rfl
  | passive read other => exact (Source.sectionAfter_of_read read inside).symm
  | stray read content | item read content | refused read content =>
    rw [Source.sectionAfter_of_read read, Line.sectionAfter_of_content content]
  | code read code valid =>
    rw [Source.sectionAfter_of_read read, Line.sectionAfter_of_content valid.content]

theorem Placed.size_eq (placed : Placed file number inside raw after entry) :
    entry.size = Source.lineSize inside raw := by
  cases placed with
  | unread failed =>
    simp only [Source.lineSize, Source.line?_eq_none failed]
    rfl
  | passive read other => exact (Source.lineSize_of_other read other inside).symm
  | stray read content outside =>
    rw [Source.lineSize_of_content read content, outside]
    rfl
  | item read content data =>
    rw [Source.lineSize_of_content read content, data]
    rfl
  | @refused line found read content code failed =>
    rw [Source.lineSize_of_content read content, code]
    refine (Source.codeSize_of_invalid content ?_).symm
    intro statement instruction shape valid
    -- a valid statement would not have been refused
    have passed := (Entry.ofCode_eq_ok_iff content).mpr ⟨_, _, _, rfl, valid⟩
    cases failed.symm.trans passed
  | code read code valid =>
    rw [Source.lineSize_of_content read valid.content, code]
    exact (Source.codeSize_of_valid valid).symm

theorem Placed.definition?_eq {placement : Placement}
    (placed : Placed file number inside raw after placement.entry) :
    placement.definition? = (Source.labelName? raw).map (·, placement.address) := by
  unfold Placement.definition? Placement.symbol?
  generalize placement.entry = own at placed
  cases placed with
  | unread failed =>
    rw [Source.labelName?, Source.line?_eq_none failed]
    rfl
  | @passive line read other =>
    rw [Source.labelName?_of_read read]
    dsimp only
    cases line.body <;> rfl
  | stray read content | item read content | refused read content =>
    rw [Source.labelName?_of_read read, content]
    rfl
  | code read code valid =>
    rw [Source.labelName?_of_read read, valid.content]
    rfl

end

namespace Laid

variable {start finish : Cursor} {lines : List Text} {placements : List Placement}

theorem finish_eq (laid : Laid file start lines placements finish) :
    finish = ⟨start.number + lines.length, Source.sectionAfterAll start.inside lines,
      start.address + Source.extent start.inside lines⟩ := by
  induction laid with
  | nil cursor => rfl
  | @cons cursor finish raw rest placement placements number address placed laid ih =>
    have inside : placement.after.inside = Source.sectionAfter cursor.inside raw := placed.section_eq
    have reached : placement.after.address =
        cursor.address + Source.lineSize cursor.inside raw := by
      rw [← placed.size_eq, ← address]
      rfl
    have count : placement.after.number = cursor.number + 1 := congrArg (· + 1) number
    rw [ih, inside, reached, count]
    simp only [List.length_cons, Source.sectionAfterAll, List.foldl_cons, Source.extent,
      Cursor.mk.injEq, true_and]
    omega

theorem names_eq (laid : Laid file start lines placements finish) :
    (placements.filterMap Placement.symbol?).map Symbol.name =
      lines.filterMap Source.labelName? := by
  induction laid with
  | nil cursor => rfl
  | @cons cursor finish raw rest placement placements number address placed laid ih =>
    have defined := placed.definition?_eq
    cases named : Source.labelName? raw with
    | none =>
      rw [Placement.definition?, named, Option.map_none, Option.map_eq_none_iff] at defined
      rw [List.filterMap_cons_none defined, List.filterMap_cons_none named]
      exact ih
    | some name =>
      rw [Placement.definition?, named, Option.map_some, Option.map_eq_some_iff] at defined
      obtain ⟨symbol, made, same⟩ := defined
      rw [List.filterMap_cons_some made, List.filterMap_cons_some named, List.map_cons, ih]
      exact congrArg (· :: _) (congrArg Prod.fst same)

theorem last_symbol {before : List Text} {raw : Text} {after : List Text} {name : Text}
    (laid : Laid file start (before ++ raw :: after) placements finish)
    (label : Source.labelName? raw = some name)
    (last : ∀ later ∈ after, Source.labelName? later ≠ some name) :
    ∃ earlier symbol later, placements.filterMap Placement.symbol? = earlier ++ symbol :: later ∧
      symbol.name = name ∧ symbol.address = start.address + Source.extent start.inside before ∧
      ∀ other ∈ later, other.name ≠ symbol.name := by
  obtain ⟨front, placement, back, cursor, rfl, ahead, -, address, placed, behind⟩ := laid.split
  have defined := placed.definition?_eq
  rw [Placement.definition?, label, Option.map_some, Option.map_eq_some_iff] at defined
  obtain ⟨symbol, made, same⟩ := defined
  obtain ⟨rfl, sameAddress⟩ := Prod.mk.inj same
  refine ⟨front.filterMap Placement.symbol?, symbol, back.filterMap Placement.symbol?, ?_, rfl, ?_, ?_⟩
  · rw [List.filterMap_append, List.filterMap_cons_some made]
  · rw [sameAddress, address, ahead.finish_eq]
  · intro other member sameName
    -- another one of that name would come from a later line
    have named : other.name ∈ after.filterMap Source.labelName? := by
      rw [← behind.names_eq]
      exact List.mem_map_of_mem member
    obtain ⟨later, inside, labelled⟩ := List.mem_filterMap.mp named
    exact last later inside (labelled.trans (congrArg some sameName))

end Laid

end TwoPass
