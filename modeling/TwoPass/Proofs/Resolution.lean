import TwoPass.Proofs.Emission
import TwoPass.Proofs.Expansion

/-! Statements whose labels are replaced by numbers, and the lines written for them.

Only three shapes of the catalog hold a label: the target of a jump, the target of a relative branch
and the address that is loaded. `Resolution` tells for each what resolving makes of the operands, and
`Writes` which lines the result is written as. -/

set_option autoImplicit false

namespace TwoPass

namespace Shape

theorem takes_nil_iff {values : List Operand.Value} : Shape.takes [] values = true ↔ values = [] := by
  cases values <;> simp [Shape.takes]

theorem takes_cons_iff {slot : Slot} {shape : Shape} {values : List Operand.Value} :
    Shape.takes (slot :: shape) values = true ↔ ∃ value rest, values = value :: rest ∧
      slot.accepts value = true ∧ Shape.takes shape rest = true := by
  cases values with
  | nil => simp [Shape.takes]
  | cons value rest =>
    simp only [Shape.takes, List.length_cons, List.zip_cons_cons, List.all_cons,
      Bool.and_eq_true, beq_iff_eq, Nat.add_right_cancel_iff, List.cons.injEq]
    constructor
    · rintro ⟨same, first, others⟩
      exact ⟨value, rest, ⟨rfl, rfl⟩, first, same, others⟩
    · rintro ⟨_, _, ⟨rfl, rfl⟩, first, same, others⟩
      exact ⟨same, first, others⟩

end Shape

namespace Slot

variable {value : Operand.Value}

theorem accepts_register_iff : Slot.register.accepts value = true ↔ ∃ index, value = .register index := by
  cases value <;> simp [Slot.accepts]

theorem accepts_label_iff {slot : Slot} (label : slot.isLabel = true) :
    slot.accepts value = true ↔ ∃ name, value = .label name := by
  cases slot <;> cases value <;> simp_all [Slot.accepts, Slot.isLabel]

theorem accepts_unsigned64_iff :
    Slot.unsigned64.accepts value = true ↔ ∃ number, value = .immediate number := by
  cases value <;> simp [Slot.accepts]

end Slot

theorem Shape.register_of_takes {values : List Operand.Value}
    (takes : Shape.takes [.register] values = true) : ∃ index, values = [.register index] := by
  obtain ⟨value, rest, rfl, accepts, ended⟩ := Shape.takes_cons_iff.mp takes
  obtain ⟨index, rfl⟩ := Slot.accepts_register_iff.mp accepts
  cases Shape.takes_nil_iff.mp ended
  exact ⟨index, rfl⟩

theorem Shape.registers_of_takes {values : List Operand.Value}
    (takes : Shape.takes [.register, .register] values = true) :
    ∃ first second, values = [.register first, .register second] := by
  obtain ⟨value, rest, rfl, accepts, others⟩ := Shape.takes_cons_iff.mp takes
  obtain ⟨first, rfl⟩ := Slot.accepts_register_iff.mp accepts
  obtain ⟨second, rfl⟩ := Shape.register_of_takes others
  exact ⟨first, second, rfl⟩

theorem Shape.register_number_of_takes {values : List Operand.Value}
    (takes : Shape.takes [.register, .unsigned64] values = true) :
    ∃ index number, values = [.register index, .immediate number] := by
  obtain ⟨value, rest, rfl, accepts, others⟩ := Shape.takes_cons_iff.mp takes
  obtain ⟨index, rfl⟩ := Slot.accepts_register_iff.mp accepts
  obtain ⟨second, more, rfl, accepted, ended⟩ := Shape.takes_cons_iff.mp others
  obtain ⟨number, rfl⟩ := Slot.accepts_unsigned64_iff.mp accepted
  cases Shape.takes_nil_iff.mp ended
  exact ⟨index, number, rfl⟩

theorem Pseudo.ready_of_takes {pseudo : Pseudo} {shape : Shape} {values : List Operand.Value}
    (shaped : shape ∈ pseudo.shapes) (unlabelled : shape.any Slot.isLabel = false)
    (takes : shape.takes values = true)
    (registers : ∀ value ∈ values, ∀ index, value.register? = some index →
      index < Machine.registerCount) : pseudo.Ready values := by
  have small {index : Nat} (member : .register index ∈ values) : index < Machine.registerCount :=
    registers _ member index rfl
  cases pseudo with
  | input | output =>
    cases List.mem_singleton.mp shaped
    obtain ⟨first, second, rfl⟩ := Shape.registers_of_takes takes
    constructor <;> apply small <;> simp
  | clear | push | pop =>
    cases List.mem_singleton.mp shaped
    obtain ⟨index, rfl⟩ := Shape.register_of_takes takes
    constructor
    exact small List.mem_cons_self
  | halt =>
    cases List.mem_singleton.mp shaped
    cases Shape.takes_nil_iff.mp takes
    exact .halt
  | load =>
    simp only [Pseudo.shapes, List.mem_cons, List.not_mem_nil, or_false] at shaped
    rcases shaped with rfl | rfl
    · obtain ⟨index, number, rfl⟩ := Shape.register_number_of_takes takes
      exact .load (small List.mem_cons_self)
    · cases unlabelled

/-- The shapes with a label in them, and the instructions that have them. -/
theorem Instruction.labelled_shapes {instruction : Instruction} {shape : Shape}
    (member : instruction ∈ catalog) (shaped : shape ∈ instruction.shapes)
    (labelled : shape.any Slot.isLabel = true) :
    (shape = [.address] ∧ instruction.pseudo = none ∧
      (instruction.mnemonic = "br" ∨ instruction.mnemonic = "call")) ∨
    (shape = [.relative] ∧ instruction.pseudo = none ∧ instruction.mnemonic = "brr") ∨
    (shape = [.register, .address] ∧ instruction.pseudo = some .load ∧
      instruction.mnemonic = "ld") := by
  have shapes : ∀ entry ∈ catalog, ∀ shape ∈ entry.shapes, shape.any Slot.isLabel = true →
      (shape = [.address] ∧ entry.pseudo = none ∧
        (entry.mnemonic = "br" ∨ entry.mnemonic = "call")) ∨
      (shape = [.relative] ∧ entry.pseudo = none ∧ entry.mnemonic = "brr") ∨
      (shape = [.register, .address] ∧ entry.pseudo = some .load ∧ entry.mnemonic = "ld") := by
    decide
  exact shapes instruction member shape shaped labelled

namespace Statement

/-- What resolving makes of a statement whose operands have the shape. -/
inductive Resolution (table : SymbolTable) (place : Int) (statement : Statement) :
    Shape → Statement → Prop
  | plain {shape : Shape} (unlabelled : shape.any Slot.isLabel = false) :
    Resolution table place statement shape statement
  | address {operand : Operand} {name : Text} {symbol : Symbol}
    (only : statement.operands = [operand]) (label : operand.value = .label name)
    (bound : table.find? name = some symbol) :
    Resolution table place statement [.address]
      { statement with operands := [operand.resolvedTo symbol.address] }
  | relative {operand : Operand} {name : Text} {symbol : Symbol}
    (only : statement.operands = [operand]) (label : operand.value = .label name)
    (bound : table.find? name = some symbol)
    (near : signed12Range.contains (symbol.address - place) = true) :
    Resolution table place statement [.relative]
      { statement with operands := [operand.resolvedTo (symbol.address - place)] }
  | load {target operand : Operand} {index : Nat} {name : Text} {symbol : Symbol}
    (both : statement.operands = [target, operand]) (register : target.value = .register index)
    (label : operand.value = .label name) (bound : table.find? name = some symbol) :
    Resolution table place statement [.register, .address]
      { statement with operands := [target, operand.resolvedTo symbol.address] }

variable {line : Line} {statement resolved : Statement} {instruction : Instruction} {shape : Shape}
  {table : SymbolTable} {place : Int}

theorem addressOf_eq_ok_iff {operand : Operand} {name : Text} {address : Nat} :
    statement.addressOf table operand name = .ok address ↔
      ∃ symbol, table.find? name = some symbol ∧ symbol.address = address := by
  unfold addressOf SymbolTable.lookup
  cases table.find? name <;> simp

theorem resolveOperand_address {operand written : Operand} {name : Text}
    (label : operand.value = .label name)
    (done : statement.resolveOperand table place .address operand = .ok written) :
    ∃ symbol, table.find? name = some symbol ∧ written = operand.resolvedTo symbol.address := by
  simp only [resolveOperand, label] at done
  obtain ⟨address, found, result⟩ := Except.bind_eq_ok_iff.mp done
  obtain ⟨symbol, bound, rfl⟩ := addressOf_eq_ok_iff.mp found
  cases result
  exact ⟨symbol, bound, rfl⟩

theorem resolveOperand_relative {operand written : Operand} {name : Text}
    (label : operand.value = .label name)
    (done : statement.resolveOperand table place .relative operand = .ok written) :
    ∃ symbol, table.find? name = some symbol ∧
      signed12Range.contains (symbol.address - place) = true ∧
      written = operand.resolvedTo (symbol.address - place) := by
  simp only [resolveOperand, label] at done
  obtain ⟨address, found, result⟩ := Except.bind_eq_ok_iff.mp done
  obtain ⟨symbol, bound, rfl⟩ := addressOf_eq_ok_iff.mp found
  split at result
  · next near =>
    cases result
    exact ⟨symbol, bound, near, rfl⟩
  · cases result

theorem Valid.takes (valid : Valid line statement instruction shape) :
    shape ∈ instruction.shapes ∧ shape.takes (statement.operands.map Operand.value) = true := by
  have found := valid.admits.shaped
  have passes := List.find?_some found
  exact ⟨List.mem_of_find?_eq_some found, passes⟩

theorem Valid.mem_catalog (valid : Valid line statement instruction shape) :
    instruction ∈ Instruction.catalog := (Instruction.find?_eq_some valid.known).1

theorem Valid.mnemonic_eq (valid : Valid line statement instruction shape) :
    instruction.mnemonic = statement.mnemonic := (Instruction.find?_eq_some valid.known).2

theorem resolveOperands_single {slot : Slot} {operand : Operand} {written : List Operand}
    (done : statement.resolveOperands table place [(slot, operand)] = .ok written) :
    ∃ own, statement.resolveOperand table place slot operand = .ok own ∧ written = [own] := by
  obtain ⟨own, first, rest⟩ := Except.bind_eq_ok_iff.mp done
  obtain ⟨none', empty, result⟩ := Except.bind_eq_ok_iff.mp rest
  cases empty
  cases result
  exact ⟨own, first, rfl⟩

theorem label_of_takes {slot : Slot} {operands : List Operand} (labelled : slot.isLabel = true)
    (takes : Shape.takes [slot] (operands.map Operand.value) = true) :
    ∃ operand name, operands = [operand] ∧ operand.value = .label name := by
  obtain ⟨value, rest, values, accepts, nothing⟩ := Shape.takes_cons_iff.mp takes
  obtain ⟨name, rfl⟩ := (Slot.accepts_label_iff labelled).mp accepts
  rw [Shape.takes_nil_iff] at nothing
  subst nothing
  obtain ⟨operand, only, label⟩ := List.map_eq_singleton_iff.mp values
  exact ⟨operand, name, only, label⟩

theorem resolution_of_check (passed : statement.check = .ok shape)
    (done : statement.resolve table shape place = .ok resolved) :
    Resolution table place statement shape resolved := by
  obtain ⟨instruction, known, admits⟩ := check_eq_ok_iff.mp passed
  have shaped := List.mem_of_find?_eq_some admits.shaped
  have takes := List.find?_some admits.shaped
  unfold resolve at done
  split at done
  · next labelled =>
    obtain ⟨operands, written, result⟩ := Except.bind_eq_ok_iff.mp done
    cases result
    -- the catalog has three shapes with a label in them
    rcases Instruction.labelled_shapes (Instruction.find?_eq_some known).1 shaped labelled with
      ⟨rfl, -⟩ | ⟨rfl, -⟩ | ⟨rfl, -⟩
    · obtain ⟨operand, name, only, label⟩ := label_of_takes rfl takes
      rw [only] at written
      obtain ⟨own, first, rfl⟩ := resolveOperands_single written
      obtain ⟨symbol, bound, rfl⟩ := resolveOperand_address label first
      exact .address only label bound
    · obtain ⟨operand, name, only, label⟩ := label_of_takes rfl takes
      rw [only] at written
      obtain ⟨own, first, rfl⟩ := resolveOperands_single written
      obtain ⟨symbol, bound, near, rfl⟩ := resolveOperand_relative label first
      exact .relative only label bound near
    · obtain ⟨value, rest, values, accepts, takes⟩ := Shape.takes_cons_iff.mp takes
      obtain ⟨index, rfl⟩ := Slot.accepts_register_iff.mp accepts
      obtain ⟨target, others, both, register, rfl⟩ := List.map_eq_cons_iff.mp values
      obtain ⟨operand, name, rfl, label⟩ := label_of_takes rfl takes
      rw [both] at written
      obtain ⟨first, kept, rest⟩ := Except.bind_eq_ok_iff.mp written
      obtain ⟨second, later, result⟩ := Except.bind_eq_ok_iff.mp rest
      obtain ⟨own, last, rfl⟩ := resolveOperands_single later
      obtain ⟨symbol, bound, rfl⟩ := resolveOperand_address label last
      cases kept
      cases result
      exact .load both register label bound
  · next unlabelled =>
    cases done
    exact .plain (by simpa using unlabelled)

theorem Valid.resolution (valid : Valid line statement instruction shape)
    (done : statement.resolve table shape place = .ok resolved) :
    Resolution table place statement shape resolved :=
  resolution_of_check valid.check done

inductive Writes (table : SymbolTable) (place : Int) (statement : Statement)
    (instruction : Instruction) (shape : Shape) : List Text → Prop
  | real {resolved : Statement} (real : instruction.pseudo = none)
    (resolution : Resolution table place statement shape resolved) :
    Writes table place statement instruction shape [resolved.render]
  | expanded {resolved : Statement} {pseudo : Pseudo} {instructions : List InstructionText}
    (stands : instruction.pseudo = some pseudo)
    (resolution : Resolution table place statement shape resolved)
    (expanded : Expansion.ofPseudo resolved.operands pseudo = .ok instructions) :
    Writes table place statement instruction shape (instructions.map InstructionText.render)

theorem Resolution.mnemonic_eq (resolution : Resolution table place statement shape resolved) :
    resolved.mnemonic = statement.mnemonic := by
  cases resolution <;> rfl

theorem Writes.size_eq {texts : List Text} (valid : Valid line statement instruction shape)
    (writes : Writes table place statement instruction shape texts) :
    Machine.instructionSize * texts.length = instruction.size := by
  rw [Instruction.size_of_mem_catalog valid.mem_catalog]
  cases writes with
  | real real resolution => rw [real]; rfl
  | expanded stands resolution expanded =>
    rw [stands, List.length_map, Expansion.length_of_ofPseudo expanded]
    rfl

theorem Writes.ne_nil {texts : List Text}
    (writes : Writes table place statement instruction shape texts) : texts ≠ [] := by
  cases writes with
  | real real resolution => exact List.cons_ne_nil _ _
  | @expanded resolved pseudo instructions stands resolution expanded =>
    have some_instruction : 0 < instructions.length := by
      rw [Expansion.length_of_ofPseudo expanded]
      cases pseudo <;> decide
    simpa using List.length_pos_iff.mp some_instruction

theorem Valid.ready {pseudo : Pseudo} (valid : Valid line statement instruction shape)
    (stands : instruction.pseudo = some pseudo)
    (resolution : Resolution table place statement shape resolved) :
    pseudo.Ready (resolved.operands.map Operand.value) := by
  have shapes := Instruction.shapes_of_pseudo valid.mem_catalog stands
  obtain ⟨shaped, takes⟩ := valid.takes
  have registers := valid.admits.registers
  rw [shapes] at shaped
  cases resolution with
  | plain unlabelled => exact Pseudo.ready_of_takes shaped unlabelled takes registers
  | address | relative => cases pseudo <;> simp [Pseudo.shapes] at shaped
  | @load target operand index name symbol both register label bound =>
    have small : index < Machine.registerCount :=
      registers target.value (by simp [both]) index (by rw [register]; rfl)
    cases pseudo with
    | load =>
      simp only [List.map_cons, List.map_nil, register]
      exact .load small
    | _ => simp [Pseudo.shapes] at shaped

theorem Writes.primitive_of_pseudo {texts : List Text}
    (valid : Valid line statement instruction shape) (stands : instruction.isPseudo = true)
    (writes : Writes table place statement instruction shape texts) :
    ∀ text ∈ texts, Primitive text := by
  cases writes with
  | real real resolution => simp [Instruction.isPseudo, real] at stands
  | expanded stands resolution expanded =>
    rw [List.forall_mem_map]
    exact Expansion.primitive_of_ofPseudo (valid.ready stands resolution) expanded

end Statement

namespace Emission

variable {settings : Settings} {table : SymbolTable} {emission : Emission}

theorem ofItem_eq_ok {line : Line} (emits : ofItem settings table line = .ok emission)
    (silent : emission.told = []) :
    ∃ text, line.resolveData table = .ok text ∧ emission = .lines line.text [text] := by
  unfold ofItem at emits
  split at emits
  · next text resolved =>
    cases emits
    exact ⟨text, resolved, rfl⟩
  · obtain ⟨-, found, rfl, -⟩ := unresolved_eq_ok emits
    cases silent

theorem ofCode_eq_ok {line : Line} {statement : Statement} {instruction : Instruction} {shape : Shape}
    {place : Nat} (valid : Statement.Valid line statement instruction shape)
    (emits : ofCode settings table place statement instruction shape = .ok emission)
    (silent : emission.told = []) :
    ∃ texts, Statement.Writes table place statement instruction shape texts ∧
      emission = .lines line.text texts := by
  unfold ofCode at emits
  split at emits
  · obtain ⟨-, found, rfl, -⟩ := unresolved_eq_ok emits
    cases silent
  · cases emits
  next resolved done =>
  have resolution := valid.resolution done
  rw [← valid.text_eq]
  split at emits
  · next stands =>
    obtain ⟨texts, expanded, result⟩ := Except.bind_eq_ok_iff.mp emits
    cases result
    obtain ⟨pseudo, known⟩ := Option.isSome_iff_exists.mp stands
    have named : Instruction.pseudo? resolved.mnemonic = some pseudo := by
      rw [Instruction.pseudo?, resolution.mnemonic_eq, valid.known]
      exact known
    simp only [Statement.expand, named] at expanded
    obtain ⟨instructions, made, result⟩ := Except.bind_eq_ok_iff.mp expanded
    cases result
    exact ⟨_, .expanded known resolution made, rfl⟩
  · next stands =>
    cases emits
    exact ⟨_, .real (by simpa [Instruction.isPseudo] using stands) resolution, rfl⟩

end Emission

end TwoPass
