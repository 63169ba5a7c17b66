import Mathlib.Data.List.Forall2
import TwoPass.Proofs.Meaning
import TwoPass.Proofs.Share

/-! Lines that mean the same at different places.

Nothing about a line depends on where it stands but the places that are told with its problems. So
lines with the same text are read, checked, resolved and written alike, and where one fails the other
fails with the same fault. -/

set_option autoImplicit false

namespace TwoPass

def Problem.Alike (found other : Problem) : Prop := other.fault = found.fault

inductive Failure.Alike : Failure → Failure → Prop
  | problem {found other : Problem} (alike : found.Alike other) : Alike (.problem found) (.problem other)
  | refl (failure : Failure) : Alike failure failure

/-- Two results of which both are values or both are failures, related as is said of each. -/
inductive Agree {ε α β : Type} (alike : ε → ε → Prop) (same : α → β → Prop) :
    Except ε α → Except ε β → Prop
  | ok {value : α} {other : β} (values : same value other) : Agree alike same (.ok value) (.ok other)
  | error {failure other : ε} (failures : alike failure other) :
    Agree alike same (.error failure) (.error other)

namespace Agree

variable {ε α β γ δ : Type} {alike : ε → ε → Prop} {same : α → β → Prop} {same' : γ → δ → Prop}
  {first : Except ε α} {second : Except ε β}

theorem bind {next : α → Except ε γ} {next' : β → Except ε δ} (agree : Agree alike same first second)
    (then_agree : ∀ value other, same value other → Agree alike same' (next value) (next' other)) :
    Agree alike same' (first >>= next) (second >>= next') := by
  cases agree with
  | ok values => exact then_agree _ _ values
  | error failures => exact .error failures

theorem mono {alike' : ε → ε → Prop} {same' : α → β → Prop} (agree : Agree alike same first second)
    (failures : ∀ failure other, alike failure other → alike' failure other)
    (values : ∀ value other, same value other → same' value other) :
    Agree alike' same' first second := by
  cases agree with
  | ok equal => exact .ok (values _ _ equal)
  | error alike => exact .error (failures _ _ alike)

theorem exists_ok {value : α} (agree : Agree alike same first second) (ok : first = .ok value) :
    ∃ other, second = .ok other ∧ same value other := by
  cases agree with
  | ok values =>
    cases ok
    exact ⟨_, rfl, values⟩
  | error failures => cases ok

theorem exists_error {failure : ε} (agree : Agree alike same first second)
    (failed : first = .error failure) : ∃ other, second = .error other ∧ alike failure other := by
  cases agree with
  | ok values => cases failed
  | error failures =>
    cases failed
    exact ⟨_, rfl, failures⟩

end Agree

theorem Line.problem_alike (line other : Line) (fault : Fault) (offset : Nat) :
    Failure.Alike (.problem (line.problem fault offset)) (.problem (other.problem fault offset)) :=
  .problem rfl

namespace Operand

def Value.nameless : Operand.Value → Operand.Value
  | .label _ => .label []
  | value => value.placeless

def Alike (operand other : Operand) : Prop := other.value.nameless = operand.value.nameless

theorem Alike.register?_eq {operand other : Operand} (alike : operand.Alike other) :
    other.register? = operand.register? := by
  have register? (value : Operand.Value) : value.nameless.register? = value.register? := by
    cases value <;> rfl
  rw [Operand.register?_eq, Operand.register?_eq, ← register?, alike, register?]

theorem Alike.accepts_eq {operand other : Operand} (alike : operand.Alike other) (slot : Slot) :
    slot.accepts other.value = slot.accepts operand.value := by
  have accepts (value : Operand.Value) : slot.accepts value.nameless = slot.accepts value := by
    cases slot <;> cases value <;> rfl
  rw [← accepts, alike, accepts]

end Operand

theorem Shape.accepts_alike {operands others : List Operand}
    (alike : List.Forall₂ Operand.Alike operands others) (shape : Shape) :
    shape.accepts others = shape.accepts operands := by
  have slots : ((shape.zip others).all fun pair => pair.1.accepts pair.2.value) =
      (shape.zip operands).all fun pair => pair.1.accepts pair.2.value := by
    induction alike generalizing shape with
    | nil => rfl
    | cons first _ ih =>
      cases shape with
      | nil => rfl
      | cons slot shape =>
        simp only [List.zip_cons_cons, List.all_cons, ih, first.accepts_eq]
  rw [Shape.accepts, Shape.accepts, alike.length_eq]
  exact congrArg (shape.length == others.length && ·) slots

namespace Statement

variable (line other : Line)

theorem checkRegisters_agree {operands others : List Operand}
    (alike : List.Forall₂ Operand.Alike operands others) :
    Agree Failure.Alike Eq (checkRegisters line operands) (checkRegisters other others) := by
  induction alike with
  | nil => exact .ok rfl
  | cons first _ ih =>
    unfold checkRegisters
    rw [first.register?_eq]
    split
    · split
      · exact ih
      · split
        · exact .error (.problem rfl)
        · exact .error (.refl _)
    · exact ih

theorem checkRange_agree (value : Int) (range : Range) (what : Text) (offset offset' : Nat) :
    Agree Failure.Alike Eq (checkRange line value range what offset)
      (checkRange other value range what offset') := by
  unfold checkRange
  split
  · exact .ok rfl
  · split
    · exact .error (.problem rfl)
    · exact .error (.refl _)

theorem checkSlot_agree (slot : Slot) {operand operand' : Operand} (alike : operand.Alike operand') :
    Agree Failure.Alike Eq (checkSlot line slot operand) (checkSlot other slot operand') := by
  rw [Operand.Alike] at alike
  unfold checkSlot
  generalize operand.value = value at alike
  generalize operand'.value = value' at alike
  cases value <;> cases value' <;> cases alike <;> cases slot <;> first
    | exact .ok rfl
    | exact .error (.refl _)
    | exact checkRange_agree line other _ _ _ _ _

theorem checkRanges_agree (shape : Shape) {operands others : List Operand}
    (alike : List.Forall₂ Operand.Alike operands others) :
    Agree Failure.Alike Eq (checkRanges line (shape.zip operands))
      (checkRanges other (shape.zip others)) := by
  induction alike generalizing shape with
  | nil =>
    rw [List.zip_nil_right]
    exact .ok rfl
  | cons first _ ih =>
    cases shape with
    | nil => exact .ok rfl
    | cons slot shape => exact (checkSlot_agree line other slot first).bind fun _ _ _ => ih shape

variable {line other}

theorem check_agree {statement moved : Statement} (mnemonic : moved.mnemonic = statement.mnemonic)
    (alike : List.Forall₂ Operand.Alike statement.operands moved.operands) :
    Agree Failure.Alike Eq statement.check moved.check := by
  have sameShape : moved.shape? = statement.shape? := by
    simp only [shape?, instruction?, mnemonic, Shape.accepts_alike alike]
  unfold check
  rw [sameShape, instruction?, instruction?, mnemonic]
  split
  · exact .error (.problem rfl)
  next instruction known =>
  refine (checkRegisters_agree statement.line moved.line alike).bind fun _ _ _ => ?_
  split
  · refine .error (.problem ?_)
    simp only [Problem.Alike, shapeProblem, mnemonic]
    rfl
  · next shape shaped =>
    exact (checkRanges_agree statement.line moved.line shape alike).bind fun _ _ _ => .ok rfl

theorem misread_alike (text : other.text = line.text) (misreading : Misreading) :
    Failure.Alike (.problem (misread line misreading)) (.problem (misread other misreading)) := by
  unfold misread
  rw [text]
  exact line.problem_alike other _ _

theorem read_agree (text : other.text = line.text) (content : line.body = .content)
    (contentOther : other.body = .content) :
    Agree Failure.Alike
      (fun statement moved => statement.line = line ∧ moved = { statement with line := other })
      (Statement.read line) (Statement.read other) := by
  unfold Statement.read
  rw [if_neg (not_not.mpr content), if_neg (not_not.mpr contentOther), text]
  dsimp only
  split
  · exact .error (.refl _)
  · exact .error (misread_alike text _)
  · split
    · exact .error (misread_alike text _)
    · exact .ok ⟨rfl, rfl⟩

end Statement

inductive Entry.Alike : Entry → Entry → Prop
  | rejected {line other : Option Line} {found reason : Problem} (alike : found.Alike reason) :
    Alike (.rejected line found) (.rejected other reason)
  | passive {line other : Line} (same : other.meaning = line.meaning) :
    Alike (.passive line) (.passive other)
  | stray {line other : Line} : Alike (.stray line) (.stray other)
  | item {line other : Line} (text : other.text = line.text) : Alike (.item line) (.item other)
  | code {statement : Statement} {other : Line} {instruction : Instruction} {shape : Shape}
    (text : other.text = statement.text) :
    Alike (.code statement instruction shape) (.code { statement with line := other } instruction shape)

theorem Entry.ofCode_agree {line other : Line} (text : other.text = line.text)
    (content : line.body = .content) (contentOther : other.body = .content) :
    Agree Failure.Alike Entry.Alike (Entry.ofCode line) (Entry.ofCode other) := by
  unfold Entry.ofCode
  rw [text]
  split
  · exact .error (line.problem_alike other _ _)
  next instruction known =>
  refine (Statement.read_agree text content contentOther).bind ?_
  rintro statement _ ⟨own, rfl⟩
  have alike : List.Forall₂ Operand.Alike statement.operands statement.operands :=
    List.forall₂_same.mpr fun _ _ => rfl
  refine (@Statement.check_agree statement { statement with line := other } rfl alike).bind ?_
  rintro shape _ rfl
  exact .ok (.code (text.trans (congrArg Line.text own).symm))

namespace SymbolTable

variable {table other : SymbolTable}

theorem names_of_bindings (same : other.bindings = table.bindings) : other.names = table.names := by
  rw [← map_fst_bindings, ← map_fst_bindings, same]

theorem address?_eq (table : SymbolTable) (name : Text) :
    table.address? name = (table.bindings.find? (·.1 == name)).map Prod.snd := by
  rw [address?, find?, bindings, List.find?_map, Option.map_map]
  rfl

theorem address?_of_bindings (same : other.bindings = table.bindings) (name : Text) :
    other.address? name = table.address? name := by
  rw [address?_eq, address?_eq, same]

/-- Tables with the same bindings answer alike, and know the same names similar to one they lack. -/
theorem lookup_agree (same : other.bindings = table.bindings) (name : Text)
    (place place' : Option Location) (source source' : Option Text) :
    Agree Problem.Alike (fun symbol symbol' => symbol'.address = symbol.address)
      (table.lookup name place source) (other.lookup name place' source') := by
  have addresses := address?_of_bindings same name
  unfold address? at addresses
  unfold lookup
  cases bound : table.find? name with
  | none =>
    rw [bound, Option.map_none, Option.map_eq_none_iff] at addresses
    rw [addresses]
    refine .error ?_
    rw [Problem.Alike, similar, similar, names_of_bindings same]
  | some symbol =>
    rw [bound, Option.map_some, Option.map_eq_some_iff] at addresses
    obtain ⟨symbol', found, address⟩ := addresses
    rw [found]
    exact .ok address

end SymbolTable

section
variable {table otherTable : SymbolTable} {line other : Line}

theorem Line.resolvePieces_agree (same : otherTable.bindings = table.bindings)
    (pieces : List DataPiece) :
    Agree Problem.Alike Eq (line.resolvePieces table pieces) (other.resolvePieces otherTable pieces) := by
  have piecewise (piece : DataPiece) :
      Agree Problem.Alike Eq (line.resolvePiece table piece) (other.resolvePiece otherTable piece) := by
    cases piece with
    | plain c => exact .ok rfl
    | reference offset name =>
      refine (SymbolTable.lookup_agree same name _ _ _ _).bind fun symbol symbol' address => ?_
      rw [address]
      exact .ok rfl
  induction pieces with
  | nil => exact .ok rfl
  | cons piece rest ih =>
    refine (piecewise piece).bind ?_
    rintro written _ rfl
    refine ih.bind ?_
    rintro more _ rfl
    exact .ok rfl

namespace Statement

variable (statement : Statement)

theorem addressOf_agree (same : otherTable.bindings = table.bindings) (operand : Operand)
    (name : Text) :
    Agree Failure.Alike Eq (statement.addressOf table operand name)
      (({ statement with line := other } : Statement).addressOf otherTable operand name) := by
  have agree := SymbolTable.lookup_agree same name (some (statement.line.location operand.start))
    (some (other.location operand.start)) (some statement.line.raw) (some other.raw)
  unfold addressOf
  dsimp only
  generalize table.lookup name _ _ = first at agree
  generalize otherTable.lookup name _ _ = second at agree
  cases agree with
  | ok address => exact .ok address.symm
  | error alike => exact .error (.problem alike)

theorem resolveOperand_agree (same : otherTable.bindings = table.bindings) (place : Int) (slot : Slot)
    (operand : Operand) :
    Agree Failure.Alike Eq (statement.resolveOperand table place slot operand)
      (({ statement with line := other } : Statement).resolveOperand otherTable place slot operand) := by
  unfold resolveOperand
  split
  · refine (statement.addressOf_agree same operand _).bind ?_
    rintro address _ rfl
    exact .ok rfl
  · refine (statement.addressOf_agree same operand _).bind ?_
    rintro address _ rfl
    dsimp only
    split
    · exact .ok rfl
    · exact .error (statement.line.problem_alike other _ _)
  · exact .error (.refl _)
  · exact .error (.refl _)
  · exact .ok rfl

theorem resolveOperands_agree (same : otherTable.bindings = table.bindings) (place : Int)
    (pairs : List (Slot × Operand)) :
    Agree Failure.Alike Eq (statement.resolveOperands table place pairs)
      (({ statement with line := other } : Statement).resolveOperands otherTable place pairs) := by
  induction pairs with
  | nil => exact .ok rfl
  | cons pair rest ih =>
    refine (statement.resolveOperand_agree same place pair.1 pair.2).bind ?_
    rintro operand _ rfl
    refine ih.bind ?_
    rintro operands _ rfl
    exact .ok rfl

theorem resolve_agree (same : otherTable.bindings = table.bindings) (shape : Shape) (place : Int) :
    Agree Failure.Alike
      (fun resolved moved => resolved.line = statement.line ∧ moved = { resolved with line := other })
      (statement.resolve table shape place)
      (({ statement with line := other } : Statement).resolve otherTable shape place) := by
  unfold resolve
  split
  · refine (statement.resolveOperands_agree same place _).bind ?_
    rintro operands _ rfl
    exact .ok ⟨rfl, rfl⟩
  · exact .ok ⟨rfl, rfl⟩

end Statement

end

namespace Emission

structure Alike (emission other : Emission) : Prop where
  outputLines : ∀ written, other.outputLines written = emission.outputLines written
  sectionAfter : ∀ written, other.sectionAfter written = emission.sectionAfter written

theorem Alike.refl (emission : Emission) : Alike emission emission := ⟨fun _ => rfl, fun _ => rfl⟩

section
variable {settings : Settings} {table otherTable : SymbolTable}

theorem unresolved_agree (source : Text) {found other : Problem} (alike : found.Alike other) :
    Agree Failure.Alike Alike (unresolved settings source found) (unresolved settings source other) := by
  unfold unresolved
  rw [show other.fault = found.fault from alike]
  split
  · exact .ok ⟨fun _ => rfl, fun _ => rfl⟩
  · exact .error (.problem alike)

theorem ofItem_agree (same : otherTable.bindings = table.bindings) {line other : Line}
    (text : other.text = line.text) :
    Agree Failure.Alike Alike (ofItem settings table line) (ofItem settings otherTable other) := by
  have agree := @Line.resolvePieces_agree table otherTable line other same (DataPiece.ofText line.text)
  unfold ofItem Line.resolveData
  rw [text]
  generalize line.resolvePieces table _ = first at agree
  generalize other.resolvePieces otherTable _ = second at agree
  cases agree with
  | ok equal =>
    subst equal
    exact .ok (.refl _)
  | error alike => exact unresolved_agree line.text alike

theorem ofCode_agree (same : otherTable.bindings = table.bindings) (place : Nat)
    {statement : Statement} {other : Line} (text : other.text = statement.text)
    (instruction : Instruction) (shape : Shape) :
    Agree Failure.Alike Alike (ofCode settings table place statement instruction shape)
      (ofCode settings otherTable place { statement with line := other } instruction shape) := by
  have agree := @Statement.resolve_agree table otherTable other statement same shape place
  have source : ({ statement with line := other } : Statement).text = statement.text := text
  unfold ofCode
  rw [source]
  generalize statement.resolve table shape place = first at agree
  generalize Statement.resolve _ otherTable shape place = second at agree
  cases agree with
  | @error failure reason alike =>
    cases alike with
    | problem alike => exact unresolved_agree statement.text alike
    | refl =>
      cases failure with
      | problem found => exact unresolved_agree statement.text rfl
      | _ => exact .error (.refl _)
  | @ok resolved moved values =>
    obtain ⟨own, rfl⟩ := values
    have rendered : ({ resolved with line := other } : Statement).render = resolved.render := by
      rw [Statement.render, Statement.render, Statement.text, Statement.text, own]
      exact congrArg ((Operand.lastFirst resolved.operands).foldl Operand.splice) text
    have expanded : ({ resolved with line := other } : Statement).expand = resolved.expand := rfl
    dsimp only
    rw [rendered, expanded]
    split
    · cases resolved.expand with
      | error failure => exact .error (.refl _)
      | ok texts => exact .ok (.refl _)
    · exact .ok (.refl _)

end

end Emission

end TwoPass
