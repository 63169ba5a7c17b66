import Mathlib.Data.List.Forall2
import TwoPass.Proofs.Outcome
import TwoPass.Proofs.Primitive

/-! The verdict on a statement.

A statement passes the check in a shape exactly if its instruction has that shape and each slot holds
the operand at its place. Otherwise the check objects to the first thing that is wrong, in the order
mnemonic, registers, shape, numbers. The shapes of an instruction differ in the kinds of their slots,
so it makes no difference in which order they are tried. -/

set_option autoImplicit false

namespace TwoPass

/-! ### Kinds of operands -/

inductive Operand.Kind where
  | register
  | immediate
  | memory
  | label
  deriving DecidableEq, Repr

def Operand.Value.kind : Operand.Value → Operand.Kind
  | .register _ => .register
  | .immediate _ => .immediate
  | .memory .. => .memory
  | .label _ => .label

def Operand.Value.literal? : Operand.Value → Option Int
  | .immediate value => some value
  | .memory _ displacement _ => some displacement
  | _ => none

def Operand.kind (operand : Operand) : Operand.Kind := operand.value.kind

def Operand.RegisterExists (operand : Operand) : Prop :=
  ∀ index, operand.register? = some index → index ≤ 31

instance (operand : Operand) : Decidable operand.RegisterExists :=
  decidable_of_iff (operand.register?.all (· ≤ 31) = true) <| by
    rw [Operand.RegisterExists]
    cases operand.register? <;> simp

namespace Slot

def kind : Slot → Operand.Kind
  | .register => .register
  | .unsigned12 | .signed12 | .unsigned64 => .immediate
  | .memory => .memory
  | .address | .relative => .label

inductive Holds : Slot → Operand.Value → Prop
  | register (index : Nat) : Holds .register (.register index)
  | unsigned12 {value : Int} : 0 ≤ value → value ≤ 4095 → Holds .unsigned12 (.immediate value)
  | signed12 {value : Int} : -2048 ≤ value → value ≤ 2047 → Holds .signed12 (.immediate value)
  | unsigned64 {value : Int} : 0 ≤ value → value ≤ 0xFFFFFFFFFFFFFFFF →
      Holds .unsigned64 (.immediate value)
  | memory {displacement : Int} (base start : Nat) : -2048 ≤ displacement → displacement ≤ 2047 →
      Holds .memory (.memory base displacement start)
  | address (name : Text) : Holds .address (.label name)
  | relative (name : Text) : Holds .relative (.label name)

/-- The number of an operand lies outside of the range of its slot: the fault, and where it shows. -/
inductive Exceeded : Slot → Operand → Fault → Nat → Prop
  | unsigned12 {operand : Operand} {value : Int} : operand.value = .immediate value →
      value < 0 ∨ 4095 < value → Exceeded .unsigned12 operand
        (.immediateRange value 0 4095 "unsigned 12-bit immediate") operand.start
  | signed12 {operand : Operand} {value : Int} : operand.value = .immediate value →
      value < -2048 ∨ 2047 < value → Exceeded .signed12 operand
        (.immediateRange value (-2048) 2047 "signed 12-bit immediate") operand.start
  | unsigned64 {operand : Operand} {value : Int} : operand.value = .immediate value →
      value < 0 ∨ 0xFFFFFFFFFFFFFFFF < value → Exceeded .unsigned64 operand
        (.immediateRange value 0 0xFFFFFFFFFFFFFFFF "64-bit immediate") operand.start
  | memory {operand : Operand} {base start : Nat} {displacement : Int} :
      operand.value = .memory base displacement start →
      displacement < -2048 ∨ 2047 < displacement → Exceeded .memory operand
        (.immediateRange displacement (-2048) 2047 "memory offset") start

theorem accepts_iff {slot : Slot} {value : Operand.Value} :
    slot.accepts value = true ↔ slot.kind = value.kind := by
  cases slot <;> cases value <;> simp [accepts, kind, Operand.Value.kind]

theorem holds_iff {slot : Slot} {value : Operand.Value} :
    slot.Holds value ↔ slot.accepts value = true ∧ slot.Fits value := by
  constructor
  · intro holds
    cases holds <;> refine ⟨rfl, ?_⟩ <;>
      simp_all [Fits, range?, Range.contains, unsigned12Range, signed12Range, unsigned64Range]
  · rintro ⟨accepts, fits⟩
    have within {range : Range} {value : Int} (inside : range.contains value = true) :=
      Range.contains_iff.mp inside
    cases slot <;> cases value <;> cases accepts
    case mpr.register.register.refl index => exact .register index
    case mpr.unsigned12.immediate.refl =>
      exact .unsigned12 (within (fits _ rfl)).1 (within (fits _ rfl)).2
    case mpr.signed12.immediate.refl =>
      exact .signed12 (within (fits _ rfl)).1 (within (fits _ rfl)).2
    case mpr.unsigned64.immediate.refl =>
      exact .unsigned64 (within (fits _ rfl)).1 (within (fits _ rfl)).2
    case mpr.memory.memory.refl base displacement start =>
      exact .memory base start (within fits).1 (within fits).2
    case mpr.address.label.refl name => exact .address name
    case mpr.relative.label.refl name => exact .relative name

end Slot

namespace Shape

variable {shape : Shape} {operands : List Operand}

theorem accepts_iff : shape.accepts operands = true ↔
    shape.map Slot.kind = operands.map Operand.kind := by
  induction shape generalizing operands with
  | nil => cases operands <;> simp [Shape.accepts]
  | cons slot shape ih =>
    cases operands with
    | nil => simp [Shape.accepts]
    | cons operand rest =>
      rw [List.map_cons, List.map_cons, List.cons.injEq, ← ih, Operand.kind, ← Slot.accepts_iff]
      simp only [Shape.accepts, List.length_cons, List.zip_cons_cons, List.all_cons,
        Nat.add_right_cancel_iff, Bool.and_eq_true, beq_iff_eq]
      exact and_left_comm

theorem forall₂_holds_iff : List.Forall₂ (fun slot operand => slot.Holds operand.value) shape operands ↔
    shape.accepts operands = true ∧ ∀ pair ∈ shape.zip operands, pair.1.Fits pair.2.value := by
  rw [List.forall₂_iff_zip, Shape.accepts, Bool.and_eq_true, beq_iff_eq, List.all_eq_true, and_assoc]
  refine and_congr_right fun _ => ?_
  constructor
  · intro holds
    exact ⟨fun pair member => (Slot.holds_iff.mp (holds member)).1,
      fun pair member => (Slot.holds_iff.mp (holds member)).2⟩
  · rintro ⟨accepts, fits⟩ slot operand member
    exact Slot.holds_iff.mpr ⟨accepts _ member, fits _ member⟩

/-- The shapes of an instruction differ in their kinds. -/
theorem eq_of_accepts {other : Shape} {instruction : Instruction}
    (member : instruction ∈ Instruction.catalog) (shaped : shape ∈ instruction.shapes)
    (also : other ∈ instruction.shapes) (first : shape.accepts operands = true)
    (second : other.accepts operands = true) : shape = other := by
  have apart : ∀ instruction ∈ Instruction.catalog, ∀ shape ∈ instruction.shapes,
      ∀ other ∈ instruction.shapes, shape.map Slot.kind = other.map Slot.kind → shape = other := by
    decide
  exact apart instruction member shape shaped other also
    ((accepts_iff.mp first).trans (accepts_iff.mp second).symm)

end Shape

/-! ### Searching without an order -/

section
variable {α : Type} {test : α → Bool} {list other : List α}

theorem find?_eq_some_iff_of_unique {found : α}
    (unique : ∀ first ∈ list, ∀ second ∈ list, test first = true → test second = true →
      first = second) : list.find? test = some found ↔ found ∈ list ∧ test found = true := by
  constructor
  · intro told
    exact ⟨List.mem_of_find?_eq_some told, List.find?_some told⟩
  · rintro ⟨member, passes⟩
    obtain ⟨first, told⟩ := Option.isSome_iff_exists.mp
      (List.find?_isSome.mpr ⟨found, member, passes⟩)
    have same : first = found :=
      unique first (List.mem_of_find?_eq_some told) found member (List.find?_some told) passes
    rw [told, same]

theorem find?_perm_of_unique (reordered : list.Perm other)
    (unique : ∀ first ∈ list, ∀ second ∈ list, test first = true → test second = true →
      first = second) : list.find? test = other.find? test := by
  have uniqueToo : ∀ first ∈ other, ∀ second ∈ other, test first = true → test second = true →
      first = second := fun first one second two =>
    unique first (reordered.mem_iff.mpr one) second (reordered.mem_iff.mpr two)
  ext found
  rw [find?_eq_some_iff_of_unique unique, find?_eq_some_iff_of_unique uniqueToo,
    reordered.mem_iff]

end

theorem Instruction.find?_eq_some_iff {mnemonic : Text} {instruction : Instruction} :
    Instruction.find? mnemonic = some instruction ↔
      instruction ∈ catalog ∧ instruction.mnemonic = mnemonic := by
  have distinct : ∀ first ∈ catalog, ∀ second ∈ catalog, first.mnemonic = second.mnemonic →
      first = second := by decide
  rw [Instruction.find?, find?_eq_some_iff_of_unique, beq_iff_eq]
  intro first one second two named also
  rw [beq_iff_eq] at named also
  exact distinct first one second two (named.trans also.symm)

theorem Instruction.find?_eq_none_iff {mnemonic : Text} : Instruction.find? mnemonic = none ↔
    ∀ instruction ∈ catalog, instruction.mnemonic ≠ mnemonic := by
  simp [Instruction.find?]

/-! ### Where a loop of checks fails -/

theorem Except.loop_eq_error_iff {ε α : Type} {check : List α → Except ε Unit} {list : List α} {fault : ε}
    (nil : check [] = .ok ())
    (cons : ∀ first rest, check (first :: rest) = (check [first] >>= fun _ => check rest)) :
    check list = .error fault ↔ ∃ before element after, list = before ++ element :: after ∧
      check before = .ok () ∧ check [element] = .error fault := by
  induction list with
  | nil => simp [nil]
  | cons first rest ih =>
    rw [cons, Except.bind_eq_error_iff, ih]
    constructor
    · rintro (failed | ⟨⟨⟩, passed, before, element, after, rfl, earlier, failed⟩)
      · exact ⟨[], first, rest, rfl, nil, failed⟩
      · refine ⟨first :: before, element, after, rfl, ?_, failed⟩
        rw [cons, passed]
        exact earlier
    · rintro ⟨before, element, after, split, earlier, failed⟩
      cases before with
      | nil =>
        cases split
        exact .inl failed
      | cons other before =>
        cases split
        rw [cons, Except.bind_eq_ok_iff] at earlier
        obtain ⟨⟨⟩, passed, others⟩ := earlier
        exact .inr ⟨(), passed, before, element, after, rfl, others, failed⟩

theorem Numeral.write_eq_ok_iff {value : Int} {digits : Text} :
    Numeral.write value = .ok digits ↔ Numeral.Writable value ∧ digits = Numeral.decimal value := by
  have short_iff : (decimalNat value.natAbs).length ≤ digitLimit ↔ Writable value :=
    Nat.length_toDigits_le_iff (by decide) (by decide)
  rw [write, ← short_iff]
  split
  · next short => simp [short, eq_comm]
  · next long => simp [long]

namespace Statement

variable {line : Line} {operand : Operand} {operands : List Operand} {found : Problem}

theorem checkRegisters_cons (line : Line) (operand : Operand) (rest : List Operand) :
    checkRegisters line (operand :: rest) =
      (checkRegisters line [operand] >>= fun _ => checkRegisters line rest) := by
  simp only [checkRegisters]
  split
  · split
    · rfl
    · split <;> rfl
  · rfl

theorem checkRegister_eq_problem_iff : checkRegisters line [operand] = .error (.problem found) ↔
    ∃ index, operand.register? = some index ∧ 31 < index ∧ Numeral.Writable index ∧
      found = line.problem (.registerRange ("r" ++ Numeral.decimalNat index)) operand.start := by
  simp only [checkRegisters]
  split
  · next index named =>
    simp only [named, Option.some.injEq, exists_eq_left']
    split
    · next small =>
      have : ¬31 < index := by rw [Machine.registerCount] at small; omega
      simp [this]
    · next large =>
      have : 31 < index := by rw [Machine.registerCount] at large; omega
      split
      · next digits written =>
        obtain ⟨writable, rfl⟩ := Numeral.write_eq_ok_iff.mp written
        simp [this, writable, Numeral.decimal_natCast, eq_comm]
      · next fault unwritten =>
        have : ¬Numeral.Writable index := by
          intro writable
          rw [Numeral.write_of_writable writable] at unwritten
          cases unwritten
        simp [this]
  · next unnamed => simp [unnamed]

theorem checkRange_eq_problem_iff {value : Int} {range : Range} {what : Text} {offset : Nat} :
    checkRange line value range what offset = .error (.problem found) ↔
      (value < range.low ∨ range.high < value) ∧ Numeral.Writable value ∧
        found = line.problem (.immediateRange value range.low range.high what) offset := by
  unfold checkRange
  split
  · next inside =>
    rw [Range.contains_iff] at inside
    have : ¬(value < range.low ∨ range.high < value) := by omega
    simp [this]
  · next outside =>
    rw [Range.contains_iff] at outside
    have : value < range.low ∨ range.high < value := by omega
    split
    · next digits written =>
      have writable := (Numeral.write_eq_ok_iff.mp written).1
      simp [this, writable, eq_comm]
    · next fault unwritten =>
      have : ¬Numeral.Writable value := by
        intro writable
        rw [Numeral.write_of_writable writable] at unwritten
        cases unwritten
      simp [this]

theorem exceeded_of_checkSlot {slot : Slot} (accepts : slot.accepts operand.value = true)
    (failed : checkSlot line slot operand = .error (.problem found)) :
    ∃ fault offset, slot.Exceeded operand fault offset ∧ found = line.problem fault offset := by
  cases slot <;> cases value : operand.value <;> rw [value] at accepts <;> cases accepts
  all_goals
    simp only [checkSlot, value, Slot.range?, Slot.immediateName?, Operand.Value.number?] at failed
  case register.register | address.label | relative.label => cases failed
  case unsigned12.immediate =>
    obtain ⟨outside, -, rfl⟩ := checkRange_eq_problem_iff.mp failed
    exact ⟨_, _, .unsigned12 value outside, rfl⟩
  case signed12.immediate =>
    obtain ⟨outside, -, rfl⟩ := checkRange_eq_problem_iff.mp failed
    exact ⟨_, _, .signed12 value outside, rfl⟩
  case unsigned64.immediate =>
    obtain ⟨outside, -, rfl⟩ := checkRange_eq_problem_iff.mp failed
    exact ⟨_, _, .unsigned64 value outside, rfl⟩
  case memory.memory =>
    obtain ⟨outside, -, rfl⟩ := checkRange_eq_problem_iff.mp failed
    exact ⟨_, _, .memory value outside, rfl⟩

theorem checkSlot_of_exceeded {slot : Slot} {fault : Fault} {offset : Nat}
    (exceeded : slot.Exceeded operand fault offset)
    (writable : ∀ number ∈ operand.value.numbers, Numeral.Writable number) :
    checkSlot line slot operand = .error (.problem (line.problem fault offset)) := by
  cases exceeded with
  | unsigned12 denotes outside | signed12 denotes outside | unsigned64 denotes outside =>
    have told := writable _ (by rw [denotes]; exact List.mem_singleton_self _)
    simp only [checkSlot, denotes, Slot.range?, Slot.immediateName?, Operand.Value.number?]
    exact checkRange_eq_problem_iff.mpr ⟨outside, told, rfl⟩
  | memory denotes outside =>
    have told := writable _ (by rw [denotes]; exact List.mem_cons_of_mem _ List.mem_cons_self)
    simp only [checkSlot, denotes]
    exact checkRange_eq_problem_iff.mpr ⟨outside, told, rfl⟩

theorem checkRanges_cons (line : Line) (pair : Slot × Operand) (rest : List (Slot × Operand)) :
    checkRanges line (pair :: rest) =
      (checkRanges line [pair] >>= fun _ => checkRanges line rest) := by
  simp only [checkRanges]
  cases checkSlot line pair.1 pair.2 <;> rfl

theorem checkRanges_single (line : Line) (pair : Slot × Operand) :
    checkRanges line [pair] = checkSlot line pair.1 pair.2 := by
  simp only [checkRanges]
  cases checkSlot line pair.1 pair.2 <;> rfl

def checkAs (statement : Statement) (instruction : Instruction) : Except Failure Shape := do
  checkRegisters statement.line statement.operands
  match instruction.shapes.find? (·.accepts statement.operands) with
  | none => .error (.problem (statement.shapeProblem instruction))
  | some shape =>
    checkRanges statement.line (shape.zip statement.operands)
    pure shape

def checkIn (statement : Statement) (catalog : List Instruction) : Except Failure Shape :=
  match catalog.find? (·.mnemonic == statement.mnemonic) with
  | none =>
    .error (.problem (statement.line.problem (.unknownInstruction statement.mnemonic []) 0))
  | some instruction => statement.checkAs instruction

theorem check_eq_checkIn (statement : Statement) :
    statement.check = statement.checkIn Instruction.catalog := by
  change statement.check = match statement.instruction? with
    | none =>
      .error (.problem (statement.line.problem (.unknownInstruction statement.mnemonic []) 0))
    | some instruction => statement.checkAs instruction
  unfold check shape?
  cases statement.instruction? with
  | none => rfl
  | some instruction => rfl

theorem check_of_find? {statement : Statement} {instruction : Instruction}
    (known : Instruction.find? statement.mnemonic = some instruction) :
    statement.check = statement.checkAs instruction := by
  rw [Instruction.find?] at known
  rw [check_eq_checkIn, checkIn, known]

theorem check_of_unlisted {statement : Statement}
    (unknown : Instruction.find? statement.mnemonic = none) : statement.check =
      .error (.problem (statement.line.problem (.unknownInstruction statement.mnemonic []) 0)) := by
  rw [Instruction.find?] at unknown
  rw [check_eq_checkIn, checkIn, unknown]

/-! ### The first thing that is wrong -/

/-- What is wrong with a statement and where it shows. Each kind of objection is made only if there
is none of the kinds before it, and among several of one kind the leftmost counts. -/
inductive Objection (statement : Statement) : Fault → Nat → Prop
  | unknown (unlisted : ∀ instruction ∈ Instruction.catalog,
      instruction.mnemonic ≠ statement.mnemonic) :
    Objection statement (.unknownInstruction statement.mnemonic []) 0
  | register {instruction : Instruction} {before after : List Operand} {operand : Operand} {index : Nat}
    (listed : instruction ∈ Instruction.catalog) (named : instruction.mnemonic = statement.mnemonic)
    (split : statement.operands = before ++ operand :: after)
    (earlier : ∀ other ∈ before, other.RegisterExists)
    (register : operand.register? = some index) (large : 31 < index) :
    Objection statement (.registerRange ("r" ++ Numeral.decimalNat index)) operand.start
  | shape {instruction : Instruction}
    (listed : instruction ∈ Instruction.catalog) (named : instruction.mnemonic = statement.mnemonic)
    (registers : ∀ operand ∈ statement.operands, operand.RegisterExists)
    (unshaped : ∀ shape ∈ instruction.shapes,
      shape.map Slot.kind ≠ statement.operands.map Operand.kind)
    (real : instruction.pseudo = none) :
    Objection statement (.operandShape statement.mnemonic instruction.shapeTexts) 0
  | pseudoShape {instruction : Instruction} {pseudo : Pseudo}
    (listed : instruction ∈ Instruction.catalog) (named : instruction.mnemonic = statement.mnemonic)
    (registers : ∀ operand ∈ statement.operands, operand.RegisterExists)
    (unshaped : ∀ shape ∈ instruction.shapes,
      shape.map Slot.kind ≠ statement.operands.map Operand.kind)
    (stands : instruction.pseudo = some pseudo) :
    Objection statement (.pseudoShape statement.mnemonic instruction.shapeTexts) 0
  | number {instruction : Instruction} {shape : Shape} {before after : List (Slot × Operand)}
    {slot : Slot} {operand : Operand} {fault : Fault} {offset : Nat}
    (listed : instruction ∈ Instruction.catalog) (named : instruction.mnemonic = statement.mnemonic)
    (registers : ∀ operand ∈ statement.operands, operand.RegisterExists)
    (shaped : shape ∈ instruction.shapes)
    (kinds : shape.map Slot.kind = statement.operands.map Operand.kind)
    (split : shape.zip statement.operands = before ++ (slot, operand) :: after)
    (earlier : ∀ pair ∈ before, pair.1.Holds pair.2.value)
    (exceeded : slot.Exceeded operand fault offset) :
    Objection statement fault offset

theorem checkRegisters_eq_ok_iff_exist : checkRegisters line operands = .ok () ↔
    ∀ operand ∈ operands, operand.RegisterExists := by
  rw [checkRegisters_eq_ok_iff]
  refine forall₂_congr fun operand _ => forall₂_congr fun index _ => ?_
  rw [Machine.registerCount]
  omega

theorem shapeProblem_of_real {statement : Statement} {instruction : Instruction}
    (real : instruction.pseudo = none) : statement.shapeProblem instruction =
      statement.line.problem (.operandShape statement.mnemonic instruction.shapeTexts) 0 := by
  simp [shapeProblem, Instruction.isPseudo, real]

theorem shapeProblem_of_pseudo {statement : Statement} {instruction : Instruction} {pseudo : Pseudo}
    (stands : instruction.pseudo = some pseudo) : statement.shapeProblem instruction =
      statement.line.problem (.pseudoShape statement.mnemonic instruction.shapeTexts) 0 := by
  simp [shapeProblem, Instruction.isPseudo, stands]

theorem find?_shape_eq_none_iff {instruction : Instruction} :
    instruction.shapes.find? (·.accepts operands) = none ↔
      ∀ shape ∈ instruction.shapes, shape.map Slot.kind ≠ operands.map Operand.kind := by
  rw [List.find?_eq_none]
  exact forall₂_congr fun shape _ => not_congr Shape.accepts_iff

theorem find?_shape_eq_some_iff {instruction : Instruction} {shape : Shape}
    (listed : instruction ∈ Instruction.catalog) :
    instruction.shapes.find? (·.accepts operands) = some shape ↔
      shape ∈ instruction.shapes ∧ shape.accepts operands = true :=
  find?_eq_some_iff_of_unique fun _ one _ two => Shape.eq_of_accepts listed one two

theorem objection_of_check {statement : Statement}
    (failed : statement.check = .error (.problem found)) :
    ∃ fault offset, statement.Objection fault offset ∧
      found = statement.line.problem fault offset := by
  cases known : Instruction.find? statement.mnemonic with
  | none =>
    rw [check_of_unlisted known] at failed
    cases failed
    exact ⟨_, _, .unknown (Instruction.find?_eq_none_iff.mp known), rfl⟩
  | some instruction =>
    -- registers come before the shape, and the shape before the numbers
    obtain ⟨listed, named⟩ := Instruction.find?_eq_some known
    rw [check_of_find? known, checkAs] at failed
    rcases Except.bind_eq_error_iff.mp failed with registers | ⟨⟨⟩, registers, rest⟩
    · obtain ⟨before, operand, after, split, earlier, first⟩ :=
        (Except.loop_eq_error_iff rfl (checkRegisters_cons statement.line)).mp registers
      obtain ⟨index, register, large, -, rfl⟩ := checkRegister_eq_problem_iff.mp first
      rw [checkRegisters_eq_ok_iff_exist] at earlier
      exact ⟨_, _, .register listed named split earlier register large, rfl⟩
    rw [checkRegisters_eq_ok_iff_exist] at registers
    split at rest
    · next missing =>
      cases rest
      have unshaped := find?_shape_eq_none_iff.mp missing
      cases stands : instruction.pseudo with
      | none => exact ⟨_, _, .shape listed named registers unshaped stands, shapeProblem_of_real stands⟩
      | some pseudo =>
        exact ⟨_, _, .pseudoShape listed named registers unshaped stands,
          shapeProblem_of_pseudo stands⟩
    · next shape told =>
      obtain ⟨shaped, accepts⟩ := (find?_shape_eq_some_iff listed).mp told
      have pairs := Shape.accepts_of_mem_zip accepts
      rcases Except.bind_eq_error_iff.mp rest with ranges | ⟨⟨⟩, -, impossible⟩
      · obtain ⟨before, ⟨slot, operand⟩, after, split, earlier, first⟩ :=
          (Except.loop_eq_error_iff rfl (checkRanges_cons statement.line)).mp ranges
        rw [split, List.forall_mem_append, List.forall_mem_cons] at pairs
        rw [checkRanges_single] at first
        rw [checkRanges_eq_ok_iff pairs.1] at earlier
        obtain ⟨fault, offset, exceeded, rfl⟩ := exceeded_of_checkSlot pairs.2.1 first
        refine ⟨fault, offset, .number listed named registers shaped (Shape.accepts_iff.mp accepts)
          split ?_ exceeded, rfl⟩
        exact fun pair member => Slot.holds_iff.mpr ⟨pairs.1 pair member, earlier pair member⟩
      · cases impossible

theorem check_of_objection {statement : Statement} {fault : Fault} {offset : Nat}
    (objection : statement.Objection fault offset)
    (writable : ∀ operand ∈ statement.operands, ∀ number ∈ operand.value.numbers,
      Numeral.Writable number) :
    statement.check = .error (.problem (statement.line.problem fault offset)) := by
  cases objection with
  | unknown unlisted => exact check_of_unlisted (Instruction.find?_eq_none_iff.mpr unlisted)
  | @register instruction before after operand index listed named split earlier register large =>
    rw [check_of_find? (Instruction.find?_eq_some_iff.mpr ⟨listed, named⟩), checkAs]
    have told : Numeral.Writable index := by
      refine writable operand (by simp [split]) index ?_
      rw [Operand.register?_eq] at register
      cases value : operand.value <;> rw [value] at register <;> cases register <;>
        simp [Operand.Value.numbers]
    have failed : checkRegisters statement.line statement.operands = .error (.problem
        (statement.line.problem (.registerRange ("r" ++ Numeral.decimalNat index)) operand.start)) :=
      (Except.loop_eq_error_iff rfl (checkRegisters_cons statement.line)).mpr
        ⟨before, operand, after, split, checkRegisters_eq_ok_iff_exist.mpr earlier,
          checkRegister_eq_problem_iff.mpr ⟨index, register, large, told, rfl⟩⟩
    rw [failed]
    rfl
  | shape listed named registers unshaped real =>
    rw [check_of_find? (Instruction.find?_eq_some_iff.mpr ⟨listed, named⟩), checkAs,
      checkRegisters_eq_ok_iff_exist.mpr registers, find?_shape_eq_none_iff.mpr unshaped,
      shapeProblem_of_real real]
    rfl
  | pseudoShape listed named registers unshaped stands =>
    rw [check_of_find? (Instruction.find?_eq_some_iff.mpr ⟨listed, named⟩), checkAs,
      checkRegisters_eq_ok_iff_exist.mpr registers, find?_shape_eq_none_iff.mpr unshaped,
      shapeProblem_of_pseudo stands]
    rfl
  | @number instruction shape before after slot operand _ _ listed named registers shaped kinds split
      earlier exceeded =>
    have accepts := Shape.accepts_iff.mpr kinds
    have member : (slot, operand) ∈ shape.zip statement.operands := by simp [split]
    have failed : checkRanges statement.line (shape.zip statement.operands) =
        .error (.problem (statement.line.problem fault offset)) := by
      refine (Except.loop_eq_error_iff rfl (checkRanges_cons statement.line)).mpr
        ⟨before, (slot, operand), after, split, ?_, ?_⟩
      · refine (checkRanges_eq_ok_iff fun pair early => (Slot.holds_iff.mp (earlier pair early)).1).mpr
          fun pair early => (Slot.holds_iff.mp (earlier pair early)).2
      · rw [checkRanges_single]
        exact checkSlot_of_exceeded exceeded (writable operand (List.of_mem_zip member).2)
    rw [check_of_find? (Instruction.find?_eq_some_iff.mpr ⟨listed, named⟩), checkAs,
      checkRegisters_eq_ok_iff_exist.mpr registers,
      (find?_shape_eq_some_iff listed).mpr ⟨shaped, accepts⟩]
    simp only [bind, Except.bind, failed]

theorem Objection.severity {statement : Statement} {fault : Fault} {offset : Nat}
    (objection : statement.Objection fault offset) :
    (fault.severity = .error ∧ ∃ shapes, fault = .pseudoShape statement.mnemonic shapes) ∨
      fault.severity = .fatal ∧ fault.category ∈
        [.unknownInstruction, .registerRange, .operandShape, .immediateRange] := by
  cases objection with
  | unknown unlisted => exact .inr ⟨rfl, by simp [Fault.category]⟩
  | register listed named split earlier register large => exact .inr ⟨rfl, by simp [Fault.category]⟩
  | shape listed named registers unshaped real => exact .inr ⟨rfl, by simp [Fault.category]⟩
  | pseudoShape listed named registers unshaped stands => exact .inl ⟨rfl, _, rfl⟩
  | number listed named registers shaped kinds split earlier exceeded =>
    right
    cases exceeded <;> exact ⟨rfl, by simp [Fault.category]⟩

end Statement

/-! ### Catalogs that list shapes in another order -/

/-- The same instructions, each with its shapes in any order. -/
def Instruction.Reordered : List Instruction → List Instruction → Prop :=
  List.Forall₂ fun first second =>
    ∃ shapes, shapes.Perm first.shapes ∧ second = { first with shapes }

theorem Instruction.Reordered.find? {catalog other : List Instruction}
    (reordered : Instruction.Reordered catalog other) (mnemonic : Text) :
    (catalog.find? (·.mnemonic == mnemonic) = none ∧ other.find? (·.mnemonic == mnemonic) = none) ∨
      ∃ instruction shapes, shapes.Perm instruction.shapes ∧
        catalog.find? (·.mnemonic == mnemonic) = some instruction ∧
        other.find? (·.mnemonic == mnemonic) = some { instruction with shapes } := by
  induction reordered with
  | nil => exact .inl ⟨rfl, rfl⟩
  | @cons first second catalog other same rest ih =>
    obtain ⟨shapes, permuted, rfl⟩ := same
    simp only [List.find?_cons]
    split
    · exact .inr ⟨first, shapes, permuted, rfl, rfl⟩
    · exact ih

namespace Statement

/-- In another order of the shapes the same one is found, and at most the order in which they are
listed to the reader changes. -/
theorem checkAs_reordered {instruction : Instruction} {shapes : List Shape} (statement : Statement)
    (listed : instruction ∈ Instruction.catalog) (permuted : shapes.Perm instruction.shapes) :
    statement.checkAs { instruction with shapes } = statement.checkAs instruction ∨
      statement.checkAs instruction = .error (.problem (statement.shapeProblem instruction)) ∧
      statement.checkAs { instruction with shapes } =
        .error (.problem (statement.shapeProblem { instruction with shapes })) := by
  have same : shapes.find? (·.accepts statement.operands) =
      instruction.shapes.find? (·.accepts statement.operands) :=
    (find?_perm_of_unique permuted.symm fun _ one _ two => Shape.eq_of_accepts listed one two).symm
  unfold checkAs
  dsimp only
  rw [same]
  cases checkRegisters statement.line statement.operands with
  | error failure => exact .inl rfl
  | ok passed =>
    cases instruction.shapes.find? (·.accepts statement.operands) with
    | none => exact .inr ⟨rfl, rfl⟩
    | some shape => exact .inl rfl

theorem checkIn_reordered {other : List Instruction} (statement : Statement)
    (reordered : Instruction.Reordered Instruction.catalog other) :
    statement.checkIn other = statement.check ∨
      ∃ instruction shapes, shapes.Perm instruction.shapes ∧
        statement.check = .error (.problem (statement.shapeProblem instruction)) ∧
        statement.checkIn other =
          .error (.problem (statement.shapeProblem { instruction with shapes })) := by
  rw [check_eq_checkIn]
  rcases reordered.find? statement.mnemonic with ⟨unknown, too⟩ | ⟨instruction, shapes, permuted, known, too⟩
  · left
    simp only [checkIn, unknown, too]
  · have listed : instruction ∈ Instruction.catalog := List.mem_of_find?_eq_some known
    simp only [checkIn, known, too]
    rcases statement.checkAs_reordered listed permuted with equal | different
    · exact .inl equal
    · exact .inr ⟨instruction, shapes, permuted, different⟩

/-! ### Statements that have been read -/

theorem numbers_writable_of_read {line : Line} {statement : Statement}
    (read : Statement.read line = .ok statement)
    (short : ∀ operand ∈ statement.operands, ∀ number, operand.value.literal? = some number →
      Numeral.Writable number) :
    ∀ operand ∈ statement.operands, ∀ number ∈ operand.value.numbers, Numeral.Writable number := by
  intro operand member number told
  obtain ⟨tokens, tiled, derived⟩ := derived_of_read read
  obtain ⟨own, owned, ofOwn⟩ := derived operand member
  have register {token : Token} {index : Nat} (taken : token ∈ own)
      (lexeme : token.lexeme = .register index) : Numeral.Writable index := by
    have spelled := (tiled.spelled token (owned taken)).1
    rw [lexeme] at spelled
    generalize token.text = text at spelled
    cases spelled with
    | register nonempty allDigits brief =>
      exact (Numeral.ofDigitChars_lt allDigits).trans_le (Nat.pow_le_pow_right (by decide) brief)
  cases ofOwn with
  | register lexeme =>
    cases List.mem_singleton.mp told
    exact register List.mem_cons_self lexeme
  | immediate lexeme =>
    cases List.mem_singleton.mp told
    exact short _ member _ rfl
  | label lexeme => cases told
  | memory _ atBase _ _ _ _ =>
    simp only [Operand.Value.numbers, List.mem_cons, List.not_mem_nil, or_false] at told
    rcases told with rfl | rfl
    · exact register (by simp) atBase
    · exact short _ member _ rfl

theorem checkAs_eq_ok_iff {statement : Statement} {instruction : Instruction} {shape : Shape}
    (listed : instruction ∈ Instruction.catalog) : statement.checkAs instruction = .ok shape ↔
      (∀ operand ∈ statement.operands, operand.RegisterExists) ∧ shape ∈ instruction.shapes ∧
        List.Forall₂ (fun slot operand => slot.Holds operand.value) shape statement.operands := by
  rw [checkAs, Except.bind_eq_ok_iff, Shape.forall₂_holds_iff]
  constructor
  · rintro ⟨⟨⟩, registers, rest⟩
    split at rest
    · cases rest
    · next found told =>
      obtain ⟨⟨⟩, ranges, result⟩ := Except.bind_eq_ok_iff.mp rest
      cases result
      obtain ⟨shaped, accepts⟩ := (find?_shape_eq_some_iff listed).mp told
      rw [checkRanges_eq_ok_iff (Shape.accepts_of_mem_zip accepts)] at ranges
      exact ⟨checkRegisters_eq_ok_iff_exist.mp registers, shaped, accepts, ranges⟩
  · rintro ⟨registers, shaped, accepts, fits⟩
    refine ⟨(), checkRegisters_eq_ok_iff_exist.mpr registers, ?_⟩
    rw [(find?_shape_eq_some_iff listed).mpr ⟨shaped, accepts⟩]
    exact Except.bind_eq_ok_iff.mpr
      ⟨(), (checkRanges_eq_ok_iff (Shape.accepts_of_mem_zip accepts)).mpr fits, rfl⟩

theorem check_eq_ok_iff_holds {statement : Statement} {shape : Shape} : statement.check = .ok shape ↔
    ∃ instruction ∈ Instruction.catalog, instruction.mnemonic = statement.mnemonic ∧
      (∀ operand ∈ statement.operands, operand.RegisterExists) ∧ shape ∈ instruction.shapes ∧
      List.Forall₂ (fun slot operand => slot.Holds operand.value) shape statement.operands := by
  constructor
  · intro passed
    obtain ⟨instruction, known, -⟩ := check_eq_ok_iff.mp passed
    obtain ⟨listed, named⟩ := Instruction.find?_eq_some known
    rw [check_of_find? known, checkAs_eq_ok_iff listed] at passed
    exact ⟨instruction, listed, named, passed⟩
  · rintro ⟨instruction, listed, named, held⟩
    rw [check_of_find? (Instruction.find?_eq_some_iff.mpr ⟨listed, named⟩)]
    exact (checkAs_eq_ok_iff listed).mpr held

/-- The verdict on a statement whose numbers can be told. It passes in a shape exactly if its
instruction has that shape and the slots hold the operands; no second shape suits operands of the same
kinds, so the order of the shapes shows at most in the list that is told when none suits. It fails
exactly with the first objection, and an objection is fatal unless it is about the shape of a
pseudo-instruction. -/
theorem check_verdict {line : Line} {statement : Statement}
    (read : Statement.read line = .ok statement)
    (short : ∀ operand ∈ statement.operands, ∀ number, operand.value.literal? = some number →
      Numeral.Writable number) :
    (∀ shape, statement.check = .ok shape ↔
      ∃ instruction ∈ Instruction.catalog, instruction.mnemonic = statement.mnemonic ∧
        (∀ operand ∈ statement.operands, operand.RegisterExists) ∧ shape ∈ instruction.shapes ∧
        List.Forall₂ (fun slot operand => slot.Holds operand.value) shape statement.operands) ∧
    (∀ instruction ∈ Instruction.catalog, ∀ first ∈ instruction.shapes,
      ∀ second ∈ instruction.shapes, ∀ operands : List Operand,
        first.map Slot.kind = operands.map Operand.kind →
        second.map Slot.kind = operands.map Operand.kind → first = second) ∧
    (∀ other, Instruction.Reordered Instruction.catalog other →
      statement.checkIn other = statement.check ∨
        ∃ instruction shapes, shapes.Perm instruction.shapes ∧
          statement.check = .error (.problem (statement.shapeProblem instruction)) ∧
          statement.checkIn other =
            .error (.problem (statement.shapeProblem { instruction with shapes }))) ∧
    (∀ failure, statement.check = .error failure ↔
      ∃ fault offset, statement.Objection fault offset ∧
        failure = .problem (statement.line.problem fault offset)) ∧
    ∀ found, statement.check = .error (.problem found) →
      (found.severity = .error ∧ ∃ shapes, found.fault = .pseudoShape statement.mnemonic shapes) ∨
        found.severity = .fatal ∧ found.fault.category ∈
          [.unknownInstruction, .registerRange, .operandShape, .immediateRange] := by
  have writable := numbers_writable_of_read read short
  refine ⟨fun shape => check_eq_ok_iff_holds, ?_, fun other => checkIn_reordered statement,
    fun failure => ⟨fun failed => ?_, ?_⟩, fun found failed => ?_⟩
  · intro instruction listed first one second two operands same also
    exact Shape.eq_of_accepts listed one two (Shape.accepts_iff.mpr same) (Shape.accepts_iff.mpr also)
  · -- a number that cannot be told is the only other way to fail
    cases check_refused failed with
    | problem fault offset =>
      obtain ⟨fault, offset, objection, same⟩ := objection_of_check failed
      exact ⟨fault, offset, objection, congrArg Failure.problem same⟩
    | numeral member told unwritten =>
      rw [Numeral.write_of_writable (writable _ member _ told)] at unwritten
      cases unwritten
  · rintro ⟨fault, offset, objection, rfl⟩
    exact check_of_objection objection writable
  · obtain ⟨fault, offset, objection, rfl⟩ := objection_of_check failed
    exact objection.severity

/-- A displacement one below its range is told where it stands, behind registers that exist. -/
theorem check_verdict_displacement :
    let line := Line.ofContent "mov r31 (r0)(-2049)" 0 "demo" 1
    let statement : Statement := ⟨"mov", [⟨.register 31, "r31", 4, 7, false⟩,
      ⟨.memory 0 (-2049) 13, "(r0)(-2049)", 8, 19, false⟩], line⟩
    Statement.read line = .ok statement ∧
    (∀ operand ∈ statement.operands, ∀ number, operand.value.literal? = some number →
      Numeral.Writable number) ∧
    statement.check = .error (.problem
      (line.problem (.immediateRange (-2049) (-2048) 2047 "memory offset") 13)) := by
  intro line statement
  let mov : Instruction := ⟨"mov", [[.register, .memory], [.register, .register],
    [.register, .signed12], [.memory, .register]], .fixed4, none⟩
  have read : Statement.read line = .ok statement := by rfl
  have short : ∀ operand ∈ statement.operands, ∀ number, operand.value.literal? = some number →
      Numeral.Writable number := by
    simp only [statement, List.forall_mem_cons, Operand.Value.literal?, Option.some.injEq,
      forall_eq', reduceCtorEq, false_implies, implies_true, List.not_mem_nil, true_and, and_true]
    change 2049 < 10 ^ Numeral.digitLimit
    decide +kernel
  have objection : statement.Objection (.immediateRange (-2049) (-2048) 2047 "memory offset") 13 := by
    have listed : mov ∈ Instruction.catalog := by decide
    refine .number listed rfl (by decide) (List.mem_cons_self : [.register, .memory] ∈ mov.shapes) rfl
      (List.append_cons [(Slot.register, _)] _ []).symm ?_ (.memory rfl (.inl (by decide)))
    exact List.forall_mem_singleton.mpr (.register 31)
  exact ⟨read, short, ((check_verdict read short).2.2.2.1 _).mpr ⟨_, _, objection, rfl⟩⟩

end Statement

end TwoPass
