import TwoPass.Proofs.Grammar
import TwoPass.Statement.Check

/-! Which statements pass the check.

Whether operands are admitted depends on what they denote and neither on how nor on where they are
written. So a statement stays admitted when it is moved to another line or written anew. -/

set_option autoImplicit false

namespace TwoPass

namespace Operand.Value

def register? : Operand.Value → Option Nat
  | .register index => some index
  | .memory base _ _ => some base
  | _ => none

def placeless : Operand.Value → Operand.Value
  | .memory base displacement _ => .memory base displacement 0
  | value => value

@[simp] theorem register?_placeless (value : Operand.Value) :
    value.placeless.register? = value.register? := by
  cases value <;> rfl

end Operand.Value

theorem Operand.register?_eq (operand : Operand) : operand.register? = operand.value.register? := by
  cases value : operand.value <;> simp [Operand.register?, Operand.Value.register?, value]

theorem Range.contains_iff {range : Range} {value : Int} :
    range.contains value = true ↔ range.low ≤ value ∧ value ≤ range.high := by
  simp [Range.contains]

namespace Slot

def Fits : Slot → Operand.Value → Prop
  | .memory, .memory _ displacement _ => signed12Range.contains displacement = true
  | slot, .immediate value => ∀ range, slot.range? = some range → range.contains value = true
  | _, _ => True

@[simp] theorem accepts_placeless (slot : Slot) (value : Operand.Value) :
    slot.accepts value.placeless = slot.accepts value := by
  cases slot <;> cases value <;> rfl

@[simp] theorem fits_placeless (slot : Slot) (value : Operand.Value) :
    slot.Fits value.placeless ↔ slot.Fits value := by
  cases slot <;> cases value <;> exact Iff.rfl

end Slot

def Shape.takes (shape : Shape) (values : List Operand.Value) : Bool :=
  shape.length == values.length && (shape.zip values).all fun (slot, value) => slot.accepts value

theorem Shape.accepts_eq_takes (shape : Shape) (operands : List Operand) :
    shape.accepts operands = shape.takes (operands.map Operand.value) := by
  rw [Shape.accepts, Shape.takes, List.length_map, List.zip_map_right, List.all_map]
  rfl

theorem Shape.accepts_of_mem_zip {shape : Shape} {operands : List Operand}
    (accepts : shape.accepts operands = true) :
    ∀ pair ∈ shape.zip operands, pair.1.accepts pair.2.value = true := by
  rw [Shape.accepts, Bool.and_eq_true, List.all_eq_true] at accepts
  exact accepts.2

/-- An instruction takes values in a shape: it is the first that has slots for them, all registers
exist, and all numbers fit. -/
structure Instruction.Admits (instruction : Instruction) (shape : Shape)
    (values : List Operand.Value) : Prop where
  shaped : instruction.shapes.find? (·.takes values) = some shape
  registers : ∀ value ∈ values, ∀ index, value.register? = some index → index < Machine.registerCount
  fits : ∀ pair ∈ shape.zip values, pair.1.Fits pair.2

namespace Statement

theorem checkRegisters_eq_ok_iff {line : Line} {operands : List Operand} :
    checkRegisters line operands = .ok () ↔
      ∀ operand ∈ operands, ∀ index, operand.register? = some index →
        index < Machine.registerCount := by
  induction operands with
  | nil => simp [checkRegisters]
  | cons operand rest ih =>
    unfold checkRegisters
    rw [List.forall_mem_cons]
    split
    · next index named =>
      split
      · next small =>
        rw [ih, named]
        simp [small]
      · next large =>
        -- whether or not the number of the register can be told
        have refused : ¬∀ other, operand.register? = some other → other < Machine.registerCount :=
          fun all => large (all index named)
        split <;> simp [refused]
    · next unnamed =>
      rw [ih, unnamed]
      simp

theorem checkRange_eq_ok_iff {line : Line} {value : Int} {range : Range} {what : Text} {offset : Nat} :
    checkRange line value range what offset = .ok () ↔ range.contains value = true := by
  unfold checkRange
  split
  · next inside => simp [inside]
  · next outside =>
    split <;> simp [outside]

theorem checkSlot_eq_ok_iff {line : Line} {slot : Slot} {operand : Operand}
    (accepts : slot.accepts operand.value = true) :
    checkSlot line slot operand = .ok () ↔ slot.Fits operand.value := by
  cases slot <;> cases value : operand.value <;>
    simp_all [checkSlot, Slot.accepts, Slot.Fits, Slot.range?, Slot.immediateName?,
      Operand.Value.number?, checkRange_eq_ok_iff]

theorem checkRanges_eq_ok_iff {line : Line} {pairs : List (Slot × Operand)}
    (accepts : ∀ pair ∈ pairs, pair.1.accepts pair.2.value = true) :
    checkRanges line pairs = .ok () ↔ ∀ pair ∈ pairs, pair.1.Fits pair.2.value := by
  induction pairs with
  | nil => simp [checkRanges]
  | cons pair rest ih =>
    obtain ⟨slot, operand⟩ := pair
    rw [List.forall_mem_cons] at accepts
    rw [checkRanges, Except.bind_eq_ok_iff, List.forall_mem_cons, ← ih accepts.2]
    constructor
    · rintro ⟨⟨⟩, first, others⟩
      exact ⟨(checkSlot_eq_ok_iff accepts.1).mp first, others⟩
    · rintro ⟨first, others⟩
      exact ⟨(), (checkSlot_eq_ok_iff accepts.1).mpr first, others⟩

/-- The check passes exactly the statements whose instruction admits the values of the operands. -/
theorem check_eq_ok_iff {statement : Statement} {shape : Shape} : statement.check = .ok shape ↔
    ∃ instruction, Instruction.find? statement.mnemonic = some instruction ∧
      instruction.Admits shape (statement.operands.map Operand.value) := by
  have sameShape : ∀ instruction : Instruction,
      instruction.shapes.find? (·.accepts statement.operands) =
        instruction.shapes.find? (·.takes (statement.operands.map Operand.value)) := by
    intro instruction
    simp only [Shape.accepts_eq_takes]
  have sameRegisters : (∀ operand ∈ statement.operands, ∀ index, operand.register? = some index →
        index < Machine.registerCount) ↔
      ∀ value ∈ statement.operands.map Operand.value, ∀ index, value.register? = some index →
        index < Machine.registerCount := by
    simp [Operand.register?_eq]
  have sameFits : (∀ pair ∈ shape.zip statement.operands, pair.1.Fits pair.2.value) ↔
      ∀ pair ∈ shape.zip (statement.operands.map Operand.value), pair.1.Fits pair.2 := by
    rw [List.zip_map_right, List.forall_mem_map]
    exact Iff.rfl
  have accepted : ∀ {instruction : Instruction},
      instruction.shapes.find? (·.accepts statement.operands) = some shape →
        ∀ pair ∈ shape.zip statement.operands, pair.1.accepts pair.2.value = true := by
    intro instruction shaped
    have accepts := List.find?_some shaped
    exact Shape.accepts_of_mem_zip accepts
  -- the check looks at operands, and `Admits` at their values
  unfold check
  cases known : Instruction.find? statement.mnemonic with
  | none => simp [instruction?, known]
  | some instruction =>
    simp only [instruction?, known, shape?, Option.bind_some, Option.some.injEq, exists_eq_left']
    constructor
    · intro passed
      obtain ⟨⟨⟩, registers, rest⟩ := Except.bind_eq_ok_iff.mp passed
      split at rest
      · cases rest
      · next found shaped =>
        obtain ⟨⟨⟩, ranges, result⟩ := Except.bind_eq_ok_iff.mp rest
        cases result
        exact ⟨sameShape instruction ▸ shaped,
          sameRegisters.mp (checkRegisters_eq_ok_iff.mp registers),
          sameFits.mp ((checkRanges_eq_ok_iff (accepted shaped)).mp ranges)⟩
    · rintro ⟨shaped, registers, fits⟩
      rw [← sameShape instruction] at shaped
      refine Except.bind_eq_ok_iff.mpr
        ⟨(), checkRegisters_eq_ok_iff.mpr (sameRegisters.mpr registers), ?_⟩
      rw [shaped]
      exact Except.bind_eq_ok_iff.mpr
        ⟨(), (checkRanges_eq_ok_iff (accepted shaped)).mpr (sameFits.mpr fits), rfl⟩

theorem read_relocated {line other : Line} {statement : Statement}
    (read : Statement.read line = .ok statement) (text : other.text = line.text)
    (content : other.body = .content) :
    Statement.read other = .ok { statement with line := other } := by
  obtain ⟨-, first, tokens, operands, name, tiled, word, listed, rfl⟩ :=
    Statement.read_eq_ok_iff.mp read
  rw [← text] at tiled listed
  refine Statement.read_eq_ok_iff.mpr
    ⟨content, first, tokens, operands, name, tiled, word, listed, ?_⟩
  rw [text]

theorem check_relocated {statement : Statement} {shape : Shape} (passed : statement.check = .ok shape)
    (line : Line) : ({ statement with line } : Statement).check = .ok shape := by
  obtain ⟨instruction, known, admits⟩ := check_eq_ok_iff.mp passed
  exact check_eq_ok_iff.mpr ⟨instruction, known, admits⟩

end Statement

theorem Shape.takes_placeless (shape : Shape) (values : List Operand.Value) :
    shape.takes (values.map Operand.Value.placeless) = shape.takes values := by
  rw [Shape.takes, Shape.takes, List.length_map, List.zip_map_right, List.all_map]
  simp [Function.comp_def]

theorem Instruction.admits_placeless_iff {instruction : Instruction} {shape : Shape}
    {values : List Operand.Value} :
    instruction.Admits shape (values.map Operand.Value.placeless) ↔
      instruction.Admits shape values := by
  have sameRegisters : (∀ value ∈ values.map Operand.Value.placeless, ∀ index,
        value.register? = some index → index < Machine.registerCount) ↔
      ∀ value ∈ values, ∀ index, value.register? = some index → index < Machine.registerCount := by
    simp
  have sameFits : (∀ pair ∈ shape.zip (values.map Operand.Value.placeless), pair.1.Fits pair.2) ↔
      ∀ pair ∈ shape.zip values, pair.1.Fits pair.2 := by
    rw [List.zip_map_right, List.forall_mem_map]
    simp
  constructor
  · rintro ⟨shaped, registers, fits⟩
    simp only [Shape.takes_placeless] at shaped
    exact ⟨shaped, sameRegisters.mp registers, sameFits.mp fits⟩
  · rintro ⟨shaped, registers, fits⟩
    simp only [← Shape.takes_placeless _ values] at shaped
    exact ⟨shaped, sameRegisters.mpr registers, sameFits.mpr fits⟩

end TwoPass
