import TwoPass.Proofs.Resolution

/-! References and their problems.

A reference has a problem if its label is not bound, or if it is a branch that is too far from its
target. Which problem a data item or a statement has is said here without resolving it; resolving
fails with that problem, and succeeds if there is none. -/

set_option autoImplicit false

namespace TwoPass

def SymbolTable.undefined (table : SymbolTable) (line : Line) (offset : Nat) (name : Text) :
    Problem :=
  line.problem (.undefinedLabel name none (table.similar name) .fatal) offset

def DataPiece.problem? (line : Line) (table : SymbolTable) : DataPiece → Option Problem
  | .plain _ => none
  | .reference offset name =>
    if (table.find? name).isSome then none else some (table.undefined line offset name)

def Line.itemProblem? (line : Line) (table : SymbolTable) : Option Problem :=
  (DataPiece.ofText line.text).findSome? (DataPiece.problem? line table)

def Operand.problem? (line : Line) (table : SymbolTable) (place : Int) (slot : Slot)
    (operand : Operand) : Option Problem :=
  match operand.value with
  | .label name =>
    match table.find? name with
    | none => some (table.undefined line operand.start name)
    | some symbol =>
      if slot = .relative ∧ signed12Range.contains (symbol.address - place) = false then
        some (line.problem (.branchRange name (symbol.address - place)) operand.start)
      else none
  | _ => none

def Statement.labelProblem? (statement : Statement) (table : SymbolTable) (shape : Shape)
    (place : Int) : Option Problem :=
  (shape.zip statement.operands).findSome? fun (slot, operand) =>
    operand.problem? statement.line table place slot

inductive Line.Referred (line : Line) : Problem → Prop
  | undefined (table : SymbolTable) (offset : Nat) (name : Text) :
    Referred line (table.undefined line offset name)
  | branchRange (name : Text) (distance : Int) (offset : Nat) :
    Referred line (line.problem (.branchRange name distance) offset)

namespace Line.Referred

variable {line : Line} {table : SymbolTable} {found : Problem}

theorem of_itemProblem? (told : line.itemProblem? table = some found) : line.Referred found := by
  obtain ⟨piece, -, piecewise⟩ := List.exists_of_findSome?_eq_some told
  cases piece with
  | plain text => cases piecewise
  | reference offset name =>
    rw [DataPiece.problem?] at piecewise
    split at piecewise
    · cases piecewise
    · cases piecewise
      exact .undefined table offset name

theorem of_labelProblem? {statement : Statement} {shape : Shape} {place : Int}
    (told : statement.labelProblem? table shape place = some found) :
    statement.line.Referred found := by
  obtain ⟨⟨slot, operand⟩, -, own⟩ := List.exists_of_findSome?_eq_some told
  dsimp only at own
  unfold Operand.problem? at own
  split at own
  · split at own
    · cases own
      exact .undefined table _ _
    · split at own
      · cases own
        exact .branchRange _ _ _
      · cases own
  · cases own

end Line.Referred

/-- A computation fails with the problem there is, and succeeds if there is none. -/
inductive Answers {ε α : Type} : Option ε → Except ε α → Prop
  | fails (fault : ε) : Answers (some fault) (.error fault)
  | succeeds (value : α) : Answers none (.ok value)

namespace Answers

variable {ε α β : Type} {fault? other? : Option ε} {result : Except ε α} {next : α → Except ε β}

theorem bind (answers : Answers fault? result) (follows : ∀ value, Answers other? (next value)) :
    Answers (fault?.or other?) (result >>= next) := by
  cases answers with
  | fails fault => exact .fails fault
  | succeeds value => exact follows value

theorem map (answers : Answers fault? result) (finish : α → β) :
    Answers fault? (result >>= fun value => pure (finish value)) := by
  have followed := answers.bind fun value => .succeeds (finish value)
  rwa [Option.or_none] at followed

theorem eq_error {fault : ε} (answers : Answers (some fault) result) : result = .error fault := by
  cases answers
  rfl

theorem eq_some {fault : ε} (answers : Answers fault? result) (failed : result = .error fault) :
    fault? = some fault := by
  cases answers with
  | fails other =>
    cases failed
    rfl
  | succeeds value => cases failed

theorem exists_ok (answers : Answers none result) : ∃ value, result = .ok value := by
  cases answers with
  | succeeds value => exact ⟨value, rfl⟩

/-- What fails with a problem, if at all, fails with nothing else. -/
theorem problem_of_error {found? : Option Problem} {failure : Failure} {result : Except Failure α}
    (answers : Answers (found?.map Failure.problem) result) (failed : result = .error failure) :
    ∃ found, failure = .problem found := by
  cases found? with
  | none =>
    cases answers
    cases failed
  | some found =>
    cases answers
    cases failed
    exact ⟨found, rfl⟩

end Answers

theorem findSome?_cons_or {α β : Type} (test : α → Option β) (first : α) (rest : List α) :
    (first :: rest).findSome? test = (test first).or (rest.findSome? test) := by
  rw [List.findSome?_cons]
  cases test first <;> rfl

theorem SymbolTable.lookup_answers (table : SymbolTable) (line : Line) (offset : Nat) (name : Text) :
    Answers (if (table.find? name).isSome then none else some (table.undefined line offset name))
      (table.lookup name (some (line.location offset)) (some line.raw)) := by
  unfold lookup
  cases table.find? name with
  | none => exact .fails _
  | some symbol => exact .succeeds symbol

theorem Line.resolvePiece_answers (line : Line) (table : SymbolTable) (piece : DataPiece) :
    Answers (piece.problem? line table) (line.resolvePiece table piece) := by
  cases piece with
  | plain c => exact .succeeds [c]
  | reference offset name => exact (table.lookup_answers line offset name).map _

theorem Line.resolvePieces_answers (line : Line) (table : SymbolTable) (pieces : List DataPiece) :
    Answers (pieces.findSome? (DataPiece.problem? line table)) (line.resolvePieces table pieces) := by
  induction pieces with
  | nil => exact .succeeds []
  | cons piece rest ih =>
    rw [findSome?_cons_or]
    exact (line.resolvePiece_answers table piece).bind fun written => ih.map _

theorem Line.resolveData_answers (line : Line) (table : SymbolTable) :
    Answers (line.itemProblem? table) (line.resolveData table) :=
  line.resolvePieces_answers table (DataPiece.ofText line.text)

namespace Statement

variable {statement : Statement} {table : SymbolTable} {place : Int}

theorem addressOf_of_none {operand : Operand} {name : Text} (unbound : table.find? name = none) :
    statement.addressOf table operand name =
      .error (.problem (table.undefined statement.line operand.start name)) := by
  rw [addressOf, SymbolTable.lookup, unbound]
  rfl

theorem addressOf_of_some {operand : Operand} {name : Text} {symbol : Symbol}
    (bound : table.find? name = some symbol) :
    statement.addressOf table operand name = .ok symbol.address :=
  addressOf_eq_ok_iff.mpr ⟨symbol, bound, rfl⟩

theorem resolveOperand_address_answers {operand : Operand} {name : Text}
    (label : operand.value = .label name) :
    Answers ((operand.problem? statement.line table place .address).map Failure.problem)
      (statement.resolveOperand table place .address operand) := by
  simp only [resolveOperand, Operand.problem?, label]
  cases bound : table.find? name with
  | none =>
    rw [addressOf_of_none bound]
    exact .fails _
  | some symbol =>
    rw [addressOf_of_some bound]
    exact .succeeds _

theorem resolveOperand_relative_answers {operand : Operand} {name : Text}
    (label : operand.value = .label name) :
    Answers ((operand.problem? statement.line table place .relative).map Failure.problem)
      (statement.resolveOperand table place .relative operand) := by
  simp only [resolveOperand, Operand.problem?, label]
  cases bound : table.find? name with
  | none =>
    rw [addressOf_of_none bound]
    exact .fails _
  | some symbol =>
    rw [addressOf_of_some bound]
    cases near : signed12Range.contains (symbol.address - place) with
    | true =>
      simp only [near, bind, Except.bind]
      exact .succeeds _
    | false =>
      simp only [near, bind, Except.bind]
      exact .fails _

theorem problem?_of_unlabelled {slot : Slot} {operand : Operand}
    (accepts : slot.accepts operand.value = true) (unlabelled : slot.isLabel = false) :
    operand.problem? statement.line table place slot = none := by
  unfold Operand.problem?
  split
  · next name label =>
    rw [label] at accepts
    cases slot <;> simp [Slot.accepts, Slot.isLabel] at accepts unlabelled
  · rfl

theorem resolveOperand_answers {slot : Slot} {operand : Operand}
    (accepts : slot.accepts operand.value = true) :
    Answers ((operand.problem? statement.line table place slot).map Failure.problem)
      (statement.resolveOperand table place slot operand) := by
  cases slot with
  | address =>
    obtain ⟨name, label⟩ := (Slot.accepts_label_iff rfl).mp accepts
    exact resolveOperand_address_answers label
  | relative =>
    obtain ⟨name, label⟩ := (Slot.accepts_label_iff rfl).mp accepts
    exact resolveOperand_relative_answers label
  | _ =>
    rw [problem?_of_unlabelled accepts rfl]
    exact .succeeds operand

theorem resolveOperands_answers {pairs : List (Slot × Operand)}
    (accepts : ∀ pair ∈ pairs, pair.1.accepts pair.2.value = true) :
    Answers ((pairs.findSome? fun (slot, operand) =>
        operand.problem? statement.line table place slot).map Failure.problem)
      (statement.resolveOperands table place pairs) := by
  induction pairs with
  | nil => exact .succeeds []
  | cons pair rest ih =>
    rw [List.forall_mem_cons] at accepts
    rw [findSome?_cons_or, Option.map_or]
    exact (resolveOperand_answers accepts.1).bind fun operand => (ih accepts.2).map _

theorem Valid.accepts {line : Line} {instruction : Instruction} {shape : Shape}
    (valid : Valid line statement instruction shape) :
    ∀ pair ∈ shape.zip statement.operands, pair.1.accepts pair.2.value = true := by
  have takes := valid.takes.2
  rw [← Shape.accepts_eq_takes] at takes
  exact Shape.accepts_of_mem_zip takes

theorem Valid.resolve_answers {line : Line} {instruction : Instruction} {shape : Shape}
    (valid : Valid line statement instruction shape) :
    Answers ((statement.labelProblem? table shape place).map Failure.problem)
      (statement.resolve table shape place) := by
  unfold resolve
  split
  · exact (resolveOperands_answers valid.accepts).map _
  · next plain =>
    have unlabelled : statement.labelProblem? table shape place = none := by
      rw [labelProblem?, List.findSome?_eq_none_iff]
      intro pair member
      refine problem?_of_unlabelled (valid.accepts pair member) ?_
      have slots : ∀ slot ∈ shape, slot.isLabel = false := by simpa using plain
      exact slots pair.1 (List.of_mem_zip member).1
    rw [unlabelled]
    exact .succeeds statement

section
variable {line : Line} {instruction : Instruction} {shape : Shape}
  (valid : Valid line statement instruction shape)

include valid

theorem Valid.resolve_of_problem {found : Problem}
    (told : statement.labelProblem? table shape place = some found) :
    statement.resolve table shape place = .error (.problem found) := by
  have answers := @resolve_answers statement table place _ _ _ valid
  rw [told] at answers
  exact answers.eq_error

theorem Valid.exists_resolved (silent : statement.labelProblem? table shape place = none) :
    ∃ resolved, statement.resolve table shape place = .ok resolved := by
  have answers := @resolve_answers statement table place _ _ _ valid
  rw [silent] at answers
  exact answers.exists_ok

end

end Statement

end TwoPass
