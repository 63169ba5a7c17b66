import TwoPass.Statement
import TwoPass.Text.Similarity

/-! Which statements the machine can execute.

A statement is checked in four steps, and the first that fails decides the problem: its mnemonic is
in the catalog, its registers exist, its operands have one of the shapes of the instruction, and
its numbers fit the slots of that shape. -/

set_option autoImplicit false

namespace TwoPass

def Slot.accepts : Slot → Operand.Value → Bool
  | .register, .register _ => true
  | .unsigned12, .immediate _ => true
  | .signed12, .immediate _ => true
  | .unsigned64, .immediate _ => true
  | .memory, .memory .. => true
  | .address, .label _ => true
  | .relative, .label _ => true
  | _, _ => false

def Shape.accepts (shape : Shape) (operands : List Operand) : Bool :=
  shape.length == operands.length &&
    (shape.zip operands).all fun (slot, operand) => slot.accepts operand.value

def Operand.register? (operand : Operand) : Option Nat :=
  match operand.value with
  | .register index => some index
  | .memory base _ _ => some base
  | _ => none

namespace Instruction

/-- The instruction of a line of code, by its first word alone. An unknown word is told with the
mnemonics similar to it. -/
def ofContent (content : Text) : Except Fault Instruction :=
  let mnemonic := Text.firstWord content
  match find? mnemonic with
  | some instruction => .ok instruction
  | none =>
    let names := mnemonics.mergeSort Text.le
    .error (.unknownInstruction mnemonic (Text.Similarity.closest mnemonic names))

end Instruction

/-- The bytes of a content line in a section: none outside of sections, a fixed number for a data
item, and in code what its first word says. -/
def contentSize (inside : Option Section) (content : Text) : Except Fault Nat :=
  match inside with
  | none => .ok 0
  | some .data => .ok Machine.dataItemSize
  | some .code => Instruction.size <$> Instruction.ofContent content

namespace Statement

def shape? (statement : Statement) : Option Shape :=
  statement.instruction?.bind fun instruction =>
    instruction.shapes.find? (·.accepts statement.operands)

def checkRegisters (line : Line) : List Operand → Except Failure Unit
  | [] => .ok ()
  | operand :: rest =>
    match operand.register? with
    | some index =>
      if index < Machine.registerCount then checkRegisters line rest
      else match Numeral.write index with
        | .ok digits =>
          .error (.problem (line.problem (.registerRange ("r" ++ digits)) operand.start))
        | .error fault => .error (.numeral fault)
    | none => checkRegisters line rest

/-- A number that has to lie in a range; a number too long to be written has no problem text. -/
def checkRange (line : Line) (value : Int) (range : Range) (what : Text) (offset : Nat) :
    Except Failure Unit :=
  if range.contains value then .ok ()
  else match Numeral.write value with
    | .ok _ =>
      .error (.problem (line.problem (.immediateRange value range.low range.high what) offset))
    | .error fault => .error (.numeral fault)

/-- Checks the number of an operand. A slot with a range wants a number with a name, and a memory
slot a displacement. -/
def checkSlot (line : Line) (slot : Slot) (operand : Operand) : Except Failure Unit :=
  match slot, operand.value with
  | .memory, .memory _ displacement start =>
    checkRange line displacement signed12Range "memory offset" start
  | .memory, _ => .error .operandUnsuited
  | slot, value =>
    match slot.range?, value.number?, slot.immediateName? with
    | none, _, _ => .ok ()
    | some _, none, _ => .error .operandUnsuited
    | some _, some _, none => .error .slotUnnamed
    | some range, some number, some what => checkRange line number range what operand.start

def checkRanges (line : Line) : List (Slot × Operand) → Except Failure Unit
  | [] => .ok ()
  | (slot, operand) :: rest => do
    checkSlot line slot operand
    checkRanges line rest

/-- The problem of operands without a shape; in a pseudo-instruction it is not fatal. -/
def shapeProblem (statement : Statement) (instruction : Instruction) : Problem :=
  let shapes := instruction.shapeTexts
  let fault := if instruction.isPseudo then Fault.pseudoShape statement.mnemonic shapes
    else .operandShape statement.mnemonic shapes
  statement.line.problem fault 0

def check (statement : Statement) : Except Failure Shape :=
  match statement.instruction? with
  | none =>
    .error (.problem (statement.line.problem (.unknownInstruction statement.mnemonic []) 0))
  | some instruction => do
    checkRegisters statement.line statement.operands
    match statement.shape? with
    | none => .error (.problem (statement.shapeProblem instruction))
    | some shape =>
      checkRanges statement.line (shape.zip statement.operands)
      pure shape

end Statement

end TwoPass
