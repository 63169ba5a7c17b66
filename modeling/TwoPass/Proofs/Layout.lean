import TwoPass.Layout
import TwoPass.Proofs.Admission

/-! Laying out a program, line by line.

`Placed` says everything that one line can become in its section. `Laid` strings the placements of
lines together: each begins where the one in front of it has ended. -/

set_option autoImplicit false

namespace TwoPass

structure Cursor where
  number : Nat
  inside : Option Section
  address : Nat
  deriving DecidableEq, Repr

def Placement.after (placement : Placement) : Cursor :=
  ⟨placement.number + 1, placement.inside, placement.next⟩

/-- A code line that the machine can execute, and the instruction and shape it is executed as. -/
structure Statement.Valid (line : Line) (statement : Statement) (instruction : Instruction)
    (shape : Shape) : Prop where
  content : line.body = .content
  read : Statement.read line = .ok statement
  known : Instruction.find? statement.mnemonic = some instruction
  check : statement.check = .ok shape

/-- What a line in a section contributes. The last two arguments are the section after the line and
its entry. -/
inductive Placed (file : Text) (number : Nat) (inside : Option Section) (raw : Text) :
    Option Section → Entry → Prop
  | unread {found : Problem} (failed : Line.read raw file number = .error found) :
    Placed file number inside raw inside (.rejected none found)
  | passive {line : Line} (read : Line.read raw file number = .ok line)
    (other : line.body ≠ .content) :
    Placed file number inside raw (line.sectionAfter inside) (.passive line)
  | stray {line : Line} (read : Line.read raw file number = .ok line)
    (content : line.body = .content) (outside : inside = none) :
    Placed file number inside raw inside (.stray line)
  | item {line : Line} (read : Line.read raw file number = .ok line)
    (content : line.body = .content) (data : inside = some .data) :
    Placed file number inside raw inside (.item line)
  | refused {line : Line} {found : Problem} (read : Line.read raw file number = .ok line)
    (content : line.body = .content) (code : inside = some .code)
    (failed : Entry.ofCode line = .error (.problem found)) :
    Placed file number inside raw inside (.rejected (some line) found)
  | code {line : Line} {statement : Statement} {instruction : Instruction} {shape : Shape}
    (read : Line.read raw file number = .ok line) (code : inside = some .code)
    (valid : Statement.Valid line statement instruction shape) :
    Placed file number inside raw inside (.code statement instruction shape)

namespace Statement

variable {line : Line} {statement : Statement} {instruction : Instruction} {shape : Shape}

theorem line_of_read (read : Statement.read line = .ok statement) : statement.line = line := by
  obtain ⟨-, -, -, -, -, -, -, -, rfl⟩ := Statement.read_eq_ok_iff.mp read
  rfl

theorem mnemonic_of_read (read : Statement.read line = .ok statement) :
    statement.mnemonic = Text.firstWord line.text := by
  obtain ⟨-, -, -, -, -, -, -, -, rfl⟩ := Statement.read_eq_ok_iff.mp read
  rfl

theorem Valid.line_eq (valid : Valid line statement instruction shape) : statement.line = line :=
  line_of_read valid.read

theorem Valid.text_eq (valid : Valid line statement instruction shape) :
    statement.text = line.text := by
  rw [Statement.text, valid.line_eq]

theorem Valid.relocated (valid : Valid line statement instruction shape) {other : Line}
    (text : other.text = line.text) (content : other.body = .content) :
    Valid other { statement with line := other } instruction shape :=
  ⟨content, read_relocated valid.read text content, valid.known, check_relocated valid.check other⟩

theorem Valid.admits (valid : Valid line statement instruction shape) :
    instruction.Admits shape (statement.operands.map Operand.value) := by
  obtain ⟨other, known, admits⟩ := Statement.check_eq_ok_iff.mp valid.check
  cases valid.known.symm.trans known
  exact admits

end Statement

theorem Instruction.ofContent_eq_ok_iff {content : Text} {instruction : Instruction} :
    ofContent content = .ok instruction ↔
      Instruction.find? (Text.firstWord content) = some instruction := by
  unfold ofContent
  cases known : Instruction.find? (Text.firstWord content) <;> simp [known]

theorem Entry.ofCode_eq_ok_iff {line : Line} {entry : Entry} (content : line.body = .content) :
    Entry.ofCode line = .ok entry ↔ ∃ statement instruction shape,
      entry = .code statement instruction shape ∧
        Statement.Valid line statement instruction shape := by
  constructor
  · intro passed
    unfold Entry.ofCode at passed
    split at passed
    · cases passed
    next instruction known =>
    obtain ⟨statement, read, rest⟩ := Except.bind_eq_ok_iff.mp passed
    obtain ⟨shape, check, result⟩ := Except.bind_eq_ok_iff.mp rest
    cases result
    refine ⟨statement, instruction, shape, rfl, content, read, ?_, check⟩
    rw [Statement.mnemonic_of_read read]
    exact Instruction.ofContent_eq_ok_iff.mp known
  · rintro ⟨statement, instruction, shape, rfl, valid⟩
    have known : Instruction.ofContent line.text = .ok instruction := by
      rw [Instruction.ofContent_eq_ok_iff, ← Statement.mnemonic_of_read valid.read]
      exact valid.known
    unfold Entry.ofCode
    rw [known]
    exact Except.bind_eq_ok_iff.mpr ⟨statement, valid.read,
      Except.bind_eq_ok_iff.mpr ⟨shape, valid.check, rfl⟩⟩

namespace Entry

variable {inside : Option Section} {line : Line}

theorem ofLine_of_ne_content (other : line.body ≠ .content) :
    Entry.ofLine inside line = .ok (.passive line) := by
  unfold Entry.ofLine
  split <;> first | rfl | contradiction

theorem ofLine_of_ofCode_ok {entry : Entry} (content : line.body = .content)
    (passed : Entry.ofCode line = .ok entry) : Entry.ofLine (some .code) line = .ok entry := by
  simp only [Entry.ofLine, content, passed]

theorem ofLine_of_ofCode_error {failure : Failure} (content : line.body = .content)
    (failed : Entry.ofCode line = .error failure) :
    Entry.ofLine (some .code) line = match failure with
      | .problem found => .ok (.rejected (some line) found)
      | failure => .error failure := by
  simp only [Entry.ofLine, content, failed]
  cases failure <;> rfl

end Entry

theorem Line.sectionAfter_of_content {line : Line} (content : line.body = .content)
    (inside : Option Section) : line.sectionAfter inside = inside := by
  simp only [Line.sectionAfter, content]

namespace Placement

variable {file raw : Text} {number address : Nat} {inside : Option Section}

theorem ofRaw_of_read {line : Line} (read : Line.read raw file number = .ok line) :
    ofRaw file number inside address raw = (Entry.ofLine inside line).map fun entry =>
      ⟨number, line.sectionAfter inside, address, entry⟩ := by
  unfold ofRaw
  simp only [read]
  cases Entry.ofLine inside line <;> rfl

theorem ofRaw_of_placed {after : Option Section} {entry : Entry}
    (placed : Placed file number inside raw after entry) :
    ofRaw file number inside address raw = .ok ⟨number, after, address, entry⟩ := by
  cases placed with
  | unread failed =>
    unfold ofRaw
    rw [failed]
  | passive read other => rw [ofRaw_of_read read, Entry.ofLine_of_ne_content other]; rfl
  | stray read content outside =>
    subst outside
    rw [ofRaw_of_read read, Line.sectionAfter_of_content content]
    simp only [Entry.ofLine, content, Except.map]
  | item read content data =>
    subst data
    rw [ofRaw_of_read read, Line.sectionAfter_of_content content]
    simp only [Entry.ofLine, content, Except.map]
  | refused read content code failed =>
    subst code
    rw [ofRaw_of_read read, Line.sectionAfter_of_content content,
      Entry.ofLine_of_ofCode_error content failed]
    rfl
  | code read code valid =>
    subst code
    have passed := (Entry.ofCode_eq_ok_iff valid.content).mpr ⟨_, _, _, rfl, valid⟩
    rw [ofRaw_of_read read, Line.sectionAfter_of_content valid.content,
      Entry.ofLine_of_ofCode_ok valid.content passed]
    rfl

theorem placed_of_ofLine {line : Line} {entry : Entry} (read : Line.read raw file number = .ok line)
    (becomes : Entry.ofLine inside line = .ok entry) :
    Placed file number inside raw (line.sectionAfter inside) entry := by
  by_cases content : line.body = .content
  · rw [Line.sectionAfter_of_content content]
    match inside with
    | none =>
      simp only [Entry.ofLine, content, Except.ok.injEq] at becomes
      subst becomes
      exact .stray read content rfl
    | some .data =>
      simp only [Entry.ofLine, content, Except.ok.injEq] at becomes
      subst becomes
      exact .item read content rfl
    | some .code =>
      cases passed : Entry.ofCode line with
      | ok entry =>
        rw [Entry.ofLine_of_ofCode_ok content passed] at becomes
        cases becomes
        obtain ⟨statement, instruction, shape, rfl, valid⟩ :=
          (Entry.ofCode_eq_ok_iff content).mp passed
        exact .code read rfl valid
      | error failure =>
        rw [Entry.ofLine_of_ofCode_error content passed] at becomes
        -- a problem rejects the line, and any other failure stops the layout
        cases failure with
        | problem found =>
          cases becomes
          exact .refused read content rfl passed
        | _ => cases becomes
  · rw [Entry.ofLine_of_ne_content content] at becomes
    cases becomes
    exact .passive read content

/-- Everything that a line can become, in the section and at the address where it stands. -/
theorem ofRaw_eq_ok_iff {placement : Placement} :
    ofRaw file number inside address raw = .ok placement ↔
      placement.number = number ∧ placement.address = address ∧
        Placed file number inside raw placement.inside placement.entry := by
  constructor
  · intro laid
    cases read : Line.read raw file number with
    | error found =>
      unfold ofRaw at laid
      rw [read] at laid
      cases laid
      exact ⟨rfl, rfl, .unread read⟩
    | ok line =>
      rw [ofRaw_of_read read] at laid
      cases becomes : Entry.ofLine inside line with
      | error failure =>
        rw [becomes] at laid
        cases laid
      | ok entry =>
        rw [becomes] at laid
        cases laid
        exact ⟨rfl, rfl, placed_of_ofLine read becomes⟩
  · obtain ⟨ownNumber, after, ownAddress, entry⟩ := placement
    rintro ⟨rfl, rfl, placed⟩
    exact ofRaw_of_placed placed

end Placement

theorem Placed.unique {file raw : Text} {number : Nat} {inside after after' : Option Section}
    {entry entry' : Entry} (placed : Placed file number inside raw after entry)
    (placed' : Placed file number inside raw after' entry') : after = after' ∧ entry = entry' := by
  have same := (@Placement.ofRaw_of_placed file raw number 0 _ _ _ placed).symm.trans
    (Placement.ofRaw_of_placed placed')
  cases same
  exact ⟨rfl, rfl⟩

inductive Laid (file : Text) : Cursor → List Text → List Placement → Cursor → Prop
  | nil (cursor : Cursor) : Laid file cursor [] [] cursor
  | cons {cursor finish : Cursor} {raw : Text} {rest : List Text} {placement : Placement}
    {placements : List Placement}
    (number : placement.number = cursor.number) (address : placement.address = cursor.address)
    (placed : Placed file cursor.number cursor.inside raw placement.inside placement.entry)
    (laid : Laid file placement.after rest placements finish) :
    Laid file cursor (raw :: rest) (placement :: placements) finish

namespace Laid

variable {file : Text}

/-- A layout that comes to its end is laid out, and the other way round. -/
theorem layFrom_eq_iff {lines : List Text} {cursor : Cursor} {placements : List Placement}
    {finish : Nat} :
    Layout.layFrom file cursor.number cursor.inside cursor.address lines =
        ⟨placements, .ok finish⟩ ↔
      ∃ after : Cursor, after.address = finish ∧ Laid file cursor lines placements after := by
  induction lines generalizing cursor placements with
  | nil =>
    simp only [Layout.layFrom, Layout.mk.injEq, Except.ok.injEq]
    constructor
    · rintro ⟨rfl, rfl⟩
      exact ⟨cursor, rfl, .nil cursor⟩
    · rintro ⟨after, rfl, ⟨⟩⟩
      exact ⟨rfl, rfl⟩
  | cons raw rest ih =>
    unfold Layout.layFrom
    constructor
    · intro laid
      split at laid
      · cases laid
      next placement placed =>
      obtain ⟨number, address, becomes⟩ := Placement.ofRaw_eq_ok_iff.mp placed
      simp only [Layout.cons, Layout.mk.injEq] at laid
      obtain ⟨rfl, ended⟩ := laid
      -- the layout goes on from the cursor behind the placement
      obtain ⟨after, same, tail⟩ := (@ih placement.after _).mp (by
        rw [← ended, Placement.after, number])
      exact ⟨after, same, .cons number address becomes tail⟩
    · rintro ⟨after, same, laid⟩
      cases laid with
      | @cons _ _ _ _ placement more number address placed tail =>
        have whole := (@ih placement.after more).mpr ⟨after, same, tail⟩
        rw [Placement.after, number] at whole
        rw [Placement.ofRaw_eq_ok_iff.mpr ⟨number, address, placed⟩]
        simp only [whole, Layout.cons]

theorem split {before : List Text} {raw : Text} {after : List Text} {start finish : Cursor}
    {placements : List Placement} (laid : Laid file start (before ++ raw :: after) placements finish) :
    ∃ (first : List Placement) (placement : Placement) (last : List Placement) (cursor : Cursor),
      placements = first ++ placement :: last ∧ Laid file start before first cursor ∧
      placement.number = cursor.number ∧ placement.address = cursor.address ∧
      Placed file cursor.number cursor.inside raw placement.inside placement.entry ∧
      Laid file placement.after after last finish := by
  induction before generalizing start placements with
  | nil =>
    cases laid with
    | cons number address placed tail =>
      exact ⟨[], _, _, start, rfl, .nil start, number, address, placed, tail⟩
  | cons head before ih =>
    cases laid with
    | cons number address placed tail =>
      obtain ⟨first, placement, last, cursor, rfl, front, rest⟩ := ih tail
      exact ⟨_ :: first, placement, last, cursor, rfl, .cons number address placed front, rest⟩

end Laid

end TwoPass
