import TwoPass.Proofs.OutputLayout
import TwoPass.Proofs.Share

/-! Lines that refer to labels without a binding.

Where undefined labels are allowed such a line is passed through as it stands, and otherwise it is
refused; a line whose labels are all bound does not depend on the policy. What a line would be if its
labels were bound is told by a table that binds them to the line itself. -/

set_option autoImplicit false

namespace TwoPass

def Settings.strict (settings : Settings) : Settings := { settings with allowUndefined := false }

def DataPiece.name? : DataPiece → Option Text
  | .plain _ => none
  | .reference _ name => some name

def Operand.Value.label? : Operand.Value → Option Text
  | .label name => some name
  | _ => none

theorem Operand.Value.label?_eq_some_iff {value : Operand.Value} {name : Text} :
    value.label? = some name ↔ value = .label name := by
  cases value <;> simp [label?]

def Placement.references (placement : Placement) : List Text :=
  match placement.entry with
  | .item line => (DataPiece.ofText line.text).filterMap DataPiece.name?
  | .code statement _ _ => statement.operands.filterMap fun operand => operand.value.label?
  | _ => []

/-- Some label that the line refers to has no binding. -/
def Placement.refersUndefined (table : SymbolTable) (placement : Placement) : Bool :=
  placement.references.any fun name => !table.contains name

theorem Line.itemProblem?_eq_none_iff {line : Line} {table : SymbolTable} :
    line.itemProblem? table = none ↔
      ∀ name ∈ (DataPiece.ofText line.text).filterMap DataPiece.name?, table.contains name = true := by
  rw [itemProblem?, List.findSome?_eq_none_iff]
  constructor
  · intro bound name member
    obtain ⟨piece, inside, named⟩ := List.mem_filterMap.mp member
    have silent := bound piece inside
    cases piece with
    | plain c => cases named
    | reference offset other =>
      cases named
      rw [DataPiece.problem?] at silent
      split at silent
      · next bound => exact bound
      · cases silent
  · intro bound piece inside
    cases piece with
    | plain c => rfl
    | reference offset name =>
      have own := bound name (List.mem_filterMap.mpr ⟨_, inside, rfl⟩)
      exact if_pos own

theorem Line.category_of_itemProblem? {line : Line} {table : SymbolTable} {found : Problem}
    (told : line.itemProblem? table = some found) : found.fault.category = .undefinedLabel := by
  obtain ⟨piece, -, own⟩ := List.exists_of_findSome?_eq_some told
  cases piece with
  | plain c => cases own
  | reference offset name =>
    rw [DataPiece.problem?] at own
    split at own
    · cases own
    · cases own
      rfl

theorem Shape.unlabelled_of_takes {shape : Shape} {values : List Operand.Value}
    (takes : shape.takes values = true) (unlabelled : shape.any Slot.isLabel = false) :
    ∀ value ∈ values, value.label? = none := by
  induction shape generalizing values with
  | nil =>
    cases Shape.takes_nil_iff.mp takes
    nofun
  | cons slot shape ih =>
    obtain ⟨value, rest, rfl, accepts, others⟩ := Shape.takes_cons_iff.mp takes
    rw [List.any_cons, Bool.or_eq_false_iff] at unlabelled
    rw [List.forall_mem_cons]
    refine ⟨?_, ih others unlabelled.2⟩
    cases value with
    | label name => cases slot <;> simp [Slot.accepts, Slot.isLabel] at accepts unlabelled
    | _ => rfl

namespace Statement

variable {line : Line} {statement : Statement} {instruction : Instruction} {shape : Shape}
  {table : SymbolTable} {place : Int} {found : Problem}

/-- No shape of the catalog has two labels. -/
theorem Valid.label_unique (valid : Valid line statement instruction shape) {operand other : Operand}
    {name otherName : Text} (member : operand ∈ statement.operands)
    (member' : other ∈ statement.operands) (label : operand.value = .label name)
    (label' : other.value = .label otherName) : operand = other := by
  obtain ⟨shaped, takes⟩ := valid.takes
  have single {slot : Slot} (labelled : slot.isLabel = true)
      (alone : Shape.takes [slot] (statement.operands.map Operand.value) = true) : operand = other := by
    obtain ⟨only, own, all, -⟩ := label_of_takes labelled alone
    rw [all, List.mem_singleton] at member member'
    rw [member, member']
  cases labelled : shape.any Slot.isLabel with
  | false =>
    have none := Shape.unlabelled_of_takes takes labelled operand.value (List.mem_map_of_mem member)
    rw [label] at none
    cases none
  | true =>
    rcases Instruction.labelled_shapes valid.mem_catalog shaped labelled with
      ⟨rfl, -⟩ | ⟨rfl, -⟩ | ⟨rfl, -⟩
    · exact single rfl takes
    · exact single rfl takes
    · obtain ⟨value, rest, values, accepts, takes⟩ := Shape.takes_cons_iff.mp takes
      obtain ⟨index, rfl⟩ := Slot.accepts_register_iff.mp accepts
      obtain ⟨target, others, both, register, rfl⟩ := List.map_eq_cons_iff.mp values
      obtain ⟨only, own, rfl, -⟩ := label_of_takes rfl takes
      simp only [both, List.mem_cons, List.not_mem_nil, or_false] at member member'
      -- the first operand is a register
      have behind {reference : Operand} {referred : Text}
          (inside : reference = target ∨ reference = only)
          (label : reference.value = .label referred) : reference = only := by
        rcases inside with rfl | same
        · cases register.symm.trans label
        · exact same
      rw [behind member label, behind member' label']

theorem Valid.labelProblem?_of_unbound (valid : Valid line statement instruction shape)
    {operand : Operand} {name : Text} (member : operand ∈ statement.operands)
    (label : operand.value = .label name) (unbound : table.find? name = none) :
    statement.labelProblem? table shape place =
      some (table.undefined statement.line operand.start name) := by
  have problem : ∀ slot, operand.problem? statement.line table place slot =
      some (table.undefined statement.line operand.start name) := by
    intro slot
    simp only [Operand.problem?, label, unbound]
  have length : statement.operands.length ≤ shape.length := by
    have takes := valid.takes.2
    rw [Shape.takes, Bool.and_eq_true, beq_iff_eq, List.length_map] at takes
    exact takes.1.ge
  -- the operand has a slot, since the shape is as long as the list of operands
  obtain ⟨⟨slot, own⟩, paired, rfl⟩ : ∃ pair ∈ shape.zip statement.operands, pair.2 = operand := by
    rw [← List.mem_map, List.map_snd_zip length]
    exact member
  rw [labelProblem?]
  generalize first : List.findSome? _ (shape.zip statement.operands) = result
  cases result with
  | none =>
    have silent := List.findSome?_eq_none_iff.mp first (slot, own) paired
    cases (problem slot).symm.trans silent
  | some found =>
    obtain ⟨⟨otherSlot, other⟩, inside, told⟩ := List.exists_of_findSome?_eq_some first
    dsimp only at told
    cases value : other.value with
    | label otherName =>
      -- no shape has two labels
      have same := valid.label_unique member (List.of_mem_zip inside).2 label value
      dsimp only at same
      subst same
      exact told.symm.trans (problem otherSlot)
    | _ =>
      simp only [Operand.problem?, value] at told
      cases told

theorem category_of_labelProblem? (bound : ∀ operand ∈ statement.operands, ∀ name,
      operand.value = .label name → (table.find? name).isSome = true)
    (told : statement.labelProblem? table shape place = some found) :
    found.fault.category = .branchRange := by
  obtain ⟨⟨slot, operand⟩, inside, own⟩ := List.exists_of_findSome?_eq_some told
  dsimp only at own
  unfold Operand.problem? at own
  split at own
  · next name label =>
    split at own
    · next unbound =>
      have some_symbol := bound operand (List.of_mem_zip inside).2 name label
      rw [unbound] at some_symbol
      cases some_symbol
    · split at own
      · cases own
        rfl
      · cases own
  · cases own

end Statement

namespace Emission

variable {settings : Settings} {table : SymbolTable} {file raw : Text} {inside : Option Section}
  {placement : Placement}

theorem unresolved_of_allowed (allowed : settings.allowUndefined = true) (source : Text)
    {found : Problem} (missing : found.fault.category = .undefinedLabel) :
    unresolved settings source found = .ok (.verbatim source found.downgraded) := by
  simp [unresolved, allowed, missing]

theorem unresolved_of_strict (source : Text) (found : Problem) :
    unresolved settings.strict source found = .error (.problem found) := rfl

theorem unresolved_of_other (source : Text) {found : Problem}
    (other : found.fault.category ≠ .undefinedLabel) :
    unresolved settings source found = .error (.problem found) := by
  simp [unresolved, other]

theorem ofPlacement_of_refersUndefined (allowed : settings.allowUndefined = true)
    (placed : Placed file placement.number inside raw placement.inside placement.entry)
    (undefined : placement.refersUndefined table = true) :
    ∃ content found, placement.content? = some content ∧
      ofPlacement settings table placement = .ok (.verbatim content.2.2 found) ∧
      ∃ reason, ofPlacement settings.strict table placement = .error (.problem reason) := by
  obtain ⟨number, after, address, entry⟩ := placement
  dsimp only at placed
  obtain ⟨name, member, missing⟩ := List.any_eq_true.mp undefined
  have unbound : table.find? name = none := by
    simpa [SymbolTable.contains] using missing
  cases placed with
  | @item line read content data =>
    have told : line.itemProblem? table ≠ none := by
      intro silent
      have bound := Line.itemProblem?_eq_none_iff.mp silent name member
      rw [SymbolTable.contains, unbound] at bound
      cases bound
    obtain ⟨found, problem⟩ := Option.ne_none_iff_exists'.mp told
    have answers := line.resolveData_answers table
    rw [problem] at answers
    have failed : line.resolveData table = .error found := answers.eq_error
    refine ⟨_, found.downgraded, rfl, ?_, found, ?_⟩
    · simp only [ofPlacement, ofItem, failed]
      exact unresolved_of_allowed allowed line.text (Line.category_of_itemProblem? problem)
    · simp only [ofPlacement, ofItem, failed]
      exact unresolved_of_strict line.text found
  | @code line statement instruction shape read code valid =>
    obtain ⟨operand, inside, named⟩ := List.mem_filterMap.mp member
    have label := Operand.Value.label?_eq_some_iff.mp named
    have problem := @Statement.Valid.labelProblem?_of_unbound line statement instruction shape table
      address valid operand name inside label unbound
    have failed := valid.resolve_of_problem problem
    refine ⟨_, (table.undefined statement.line operand.start name).downgraded, rfl, ?_,
      table.undefined statement.line operand.start name, ?_⟩
    · simp only [ofPlacement, ofCode, failed]
      exact unresolved_of_allowed allowed statement.text rfl
    · simp only [ofPlacement, ofCode, failed]
      exact unresolved_of_strict statement.text _
  | _ => cases member

theorem ofPlacement_strict
    (placed : Placed file placement.number inside raw placement.inside placement.entry)
    (bound : placement.refersUndefined table = false) :
    ofPlacement settings.strict table placement = ofPlacement settings table placement := by
  obtain ⟨number, after, address, entry⟩ := placement
  dsimp only at placed
  rw [Placement.refersUndefined, List.any_eq_false] at bound
  simp only [Bool.not_eq_true, Bool.not_eq_false'] at bound
  cases placed with
  | @item line read content data =>
    have silent := Line.itemProblem?_eq_none_iff.mpr bound
    have answers := line.resolveData_answers table
    rw [silent] at answers
    obtain ⟨text, done⟩ := answers.exists_ok
    simp only [ofPlacement, ofItem, done]
  | @code line statement instruction shape read code valid =>
    have labels : ∀ operand ∈ statement.operands, ∀ name, operand.value = .label name →
        (table.find? name).isSome = true := by
      intro operand member name label
      exact bound name (List.mem_filterMap.mpr
        ⟨operand, member, Operand.Value.label?_eq_some_iff.mpr label⟩)
    simp only [ofPlacement, ofCode]
    cases told : statement.labelProblem? table shape address with
    | none =>
      obtain ⟨resolved, done⟩ := valid.exists_resolved told
      rw [done]
    | some found =>
      have distant := Statement.category_of_labelProblem? labels told
      have other : found.fault.category ≠ .undefinedLabel := by simp [distant]
      rw [valid.resolve_of_problem told]
      exact (unresolved_of_other _ other).trans (unresolved_of_other _ other).symm
  | _ => rfl

theorem lines_of_content {emission : Emission} {number address : Nat} {text : Text}
    (placed : Placed file placement.number inside raw placement.inside placement.entry)
    (content : placement.content? = some (number, address, text))
    (emits : ofPlacement settings table placement = .ok emission) (silent : emission.told = []) :
    ∃ texts, emission = .lines text texts ∧
      placement.entry.size = OutputReader.lineSize placement.inside * texts.length := by
  obtain ⟨ownNumber, after, ownAddress, entry⟩ := placement
  dsimp only at placed
  cases placed with
  | @item line read content data =>
    cases content
    obtain ⟨text, -, rfl⟩ := ofItem_eq_ok emits silent
    subst data
    exact ⟨[text], rfl, rfl⟩
  | @code line statement instruction shape read code valid =>
    cases content
    obtain ⟨texts, writes, rfl⟩ := ofCode_eq_ok valid emits silent
    subst code
    exact ⟨texts, by rw [valid.text_eq], (writes.size_eq valid).symm⟩
  | _ => cases content

theorem exists_of_silent
    (placed : Placed file placement.number inside raw placement.inside placement.entry)
    (harmless : ∀ line found, placement.entry = .rejected line found → found.isFatal = false)
    (silent : placement.toldOnEmitting settings table = []) :
    ∃ emission, ofPlacement settings table placement = .ok emission ∧ emission.told = [] := by
  have told := @toldBy_ofPlacement settings table file raw inside placement placed harmless
  rw [silent] at told
  cases emits : ofPlacement settings table placement with
  | ok emission =>
    rw [emits] at told
    exact ⟨emission, rfl, told⟩
  | error failure =>
    obtain ⟨found, rfl⟩ := problem_of_placed placed emits
    rw [emits] at told
    cases told

end Emission

/-- The table with every label of the line that it lacks bound to the line itself. -/
def Placement.supplied (table : SymbolTable) (placement : Placement) : SymbolTable :=
  ⟨table.symbols ++ placement.references.map fun name => ⟨name, placement.address, none⟩, true⟩

namespace Placement

variable {table : SymbolTable} {placement : Placement} {name : Text}

theorem find?_supplied_of_bound {symbol : Symbol} (bound : table.find? name = some symbol) :
    (placement.supplied table).find? name = some symbol := by
  rw [SymbolTable.find?] at bound
  rw [SymbolTable.find?, supplied, List.find?_append, bound, Option.some_or]

theorem find?_supplied_of_unbound (member : name ∈ placement.references)
    (unbound : table.find? name = none) :
    ∃ symbol, (placement.supplied table).find? name = some symbol ∧
      symbol.address = placement.address := by
  rw [SymbolTable.find?] at unbound
  rw [SymbolTable.find?, supplied, List.find?_append, unbound, Option.none_or]
  obtain ⟨symbol, found⟩ : ∃ symbol, (placement.references.map fun name =>
      (⟨name, placement.address, none⟩ : Symbol)).find? (·.name == name) = some symbol := by
    rw [← Option.isSome_iff_exists, List.find?_isSome]
    exact ⟨_, List.mem_map_of_mem member, beq_self_eq_true name⟩
  obtain ⟨other, -, rfl⟩ := List.mem_map.mp (List.mem_of_find?_eq_some found)
  exact ⟨_, found, rfl⟩

theorem contains_supplied (member : name ∈ placement.references) :
    (placement.supplied table).contains name = true := by
  rw [SymbolTable.contains, Option.isSome_iff_exists]
  cases bound : table.find? name with
  | some symbol => exact ⟨symbol, find?_supplied_of_bound bound⟩
  | none =>
    obtain ⟨symbol, found, -⟩ := find?_supplied_of_unbound member bound
    exact ⟨symbol, found⟩

/-- With its labels supplied there is nothing to be told about a line that lacks one: an item has none
unbound, and the only label of a statement is at no distance. -/
theorem silent_of_supplied {settings : Settings} {file raw : Text} {inside : Option Section}
    (placed : Placed file placement.number inside raw placement.inside placement.entry)
    (undefined : placement.refersUndefined table = true) :
    placement.toldOnEmitting settings (placement.supplied table) = [] := by
  have bound : ∀ name ∈ placement.references, (placement.supplied table).contains name = true :=
    fun name member => contains_supplied member
  obtain ⟨missing, referred, absent⟩ := List.any_eq_true.mp undefined
  have unbound : table.find? missing = none := by simpa [SymbolTable.contains] using absent
  obtain ⟨symbol, found, near⟩ := find?_supplied_of_unbound referred unbound
  -- all that matters of the completed table is that it binds the references, and the missing one here
  generalize placement.supplied table = completed at bound found
  obtain ⟨number, after, address, entry⟩ := placement
  dsimp only at placed near
  cases placed with
  | @item line read content data =>
    simp only [toldOnEmitting, Line.itemProblem?_eq_none_iff.mpr bound, Option.toList_none,
      List.map_nil]
  | @code line statement instruction shape read code valid =>
    obtain ⟨operand, member, named⟩ := List.mem_filterMap.mp referred
    have label := Operand.Value.label?_eq_some_iff.mp named
    have silent : statement.labelProblem? completed shape address = none := by
      rw [Statement.labelProblem?, List.findSome?_eq_none_iff]
      rintro ⟨slot, other⟩ paired
      dsimp only
      unfold Operand.problem?
      split
      · next otherName otherLabel =>
        have same := valid.label_unique member (List.of_mem_zip paired).2 label otherLabel
        subst same
        cases label.symm.trans otherLabel
        have distance : (symbol.address : Int) - address = 0 := by omega
        simp [found, distance, signed12Range, Range.contains]
      · rfl
    simp only [toldOnEmitting, silent, Option.toList_none, List.map_nil]
  | _ => cases referred

end Placement

end TwoPass
