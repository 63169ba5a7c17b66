import TwoPass.Statement.Check
import TwoPass.SymbolTable
import TwoPass.Text.WordCharacter

/-! Label references and the numbers put in their place.

In a statement the slot of the operand decides: an address slot takes the label's address, a
relative slot the distance from the statement to the label, which has to fit 12 bits. In a data
item every reference becomes the label's address. -/

set_option autoImplicit false

namespace TwoPass

def Operand.resolvedTo (operand : Operand) (value : Int) : Operand :=
  ⟨.immediate value, Numeral.decimal value, operand.start, operand.stop, true⟩

namespace Statement

def addressOf (statement : Statement) (table : SymbolTable) (operand : Operand) (name : Text) :
    Except Failure Nat :=
  match table.lookup name (some (statement.line.location operand.start))
      (some statement.line.raw) with
  | .ok symbol => .ok symbol.address
  | .error found => .error (.problem found)

/-- The operand as its slot wants it in a statement at address `place`. -/
def resolveOperand (statement : Statement) (table : SymbolTable) (place : Int) (slot : Slot)
    (operand : Operand) : Except Failure Operand :=
  match slot, operand.value with
  | .address, .label name => do
    let address ← statement.addressOf table operand name
    pure (operand.resolvedTo address)
  | .relative, .label name => do
    let address ← statement.addressOf table operand name
    let distance := address - place
    if signed12Range.contains distance then pure (operand.resolvedTo distance)
    else .error (.problem (statement.line.problem (.branchRange name distance) operand.start))
  | .address, _ | .relative, _ => .error .operandUnsuited
  | _, _ => .ok operand

def resolveOperands (statement : Statement) (table : SymbolTable) (place : Int) :
    List (Slot × Operand) → Except Failure (List Operand)
  | [] => .ok []
  | (slot, operand) :: rest => do
    let operand ← statement.resolveOperand table place slot operand
    let rest ← statement.resolveOperands table place rest
    pure (operand :: rest)

/-- The statement with its label operands resolved. Without a label slot it stays as it is. -/
def resolve (statement : Statement) (table : SymbolTable) (shape : Shape) (place : Int) :
    Except Failure Statement :=
  if shape.any Slot.isLabel then do
    let operands ← statement.resolveOperands table place (shape.zip statement.operands)
    pure { statement with operands }
  else .ok statement

end Statement

namespace Operand

def splice (text : Text) (operand : Operand) : Text :=
  if operand.resolved then text.take operand.start ++ operand.text ++ text.drop operand.stop
  else text

def insertByStart (operand : Operand) : List Operand → List Operand
  | [] => [operand]
  | first :: rest =>
    if first.start ≤ operand.start then operand :: first :: rest
    else first :: insertByStart operand rest

def lastFirst (operands : List Operand) : List Operand := operands.foldr insertByStart []

theorem mem_insertByStart {operand made : Operand} {operands : List Operand}
    (member : operand ∈ made.insertByStart operands) : operand = made ∨ operand ∈ operands := by
  induction operands with
  | nil => exact .inl (List.mem_singleton.mp member)
  | cons first rest ih =>
    rw [insertByStart] at member
    split at member
    · exact List.mem_cons.mp member
    · rcases List.mem_cons.mp member with rfl | later
      · exact .inr List.mem_cons_self
      · exact (ih later).imp_right (List.mem_cons_of_mem first)

theorem mem_of_mem_lastFirst {operand : Operand} {operands : List Operand}
    (member : operand ∈ lastFirst operands) : operand ∈ operands := by
  induction operands with
  | nil => exact member
  | cons first rest ih =>
    rcases mem_insertByStart member with rfl | later
    · exact List.mem_cons_self
    · exact List.mem_cons_of_mem first (ih later)

end Operand

/-- The line of the statement with its resolved operands written in, the last one first so that
the offsets of the others stay right. -/
def Statement.render (statement : Statement) : Text :=
  (Operand.lastFirst statement.operands).foldl Operand.splice statement.text

/-- A stretch of a data item: a character that stands for itself, or a reference with the offset of
its colon. -/
inductive DataPiece where
  | plain (character : Char)
  | reference (offset : Nat) (name : Text)
  deriving DecidableEq, Repr

namespace DataPiece

/-- A colon right after a word character or another colon begins no reference. -/
def blocksReference : Option Char → Bool
  | none => false
  | some c => c == ':' || Text.isWordCharacter c

/-- Cuts the part of a text that begins at `offset` into pieces. `before` is the character in front
of it, and the first `skipped` characters belong to a reference that has been cut off already. -/
def split (before : Option Char) (skipped offset : Nat) : Text → List DataPiece
  | [] => []
  | c :: rest =>
    match skipped with
    | skipped + 1 => split (some c) skipped (offset + 1) rest
    | 0 =>
      if c == ':' && !blocksReference before && Text.startsName rest then
        let name := rest.takeWhile Text.isNameChar
        .reference offset name :: split (some c) name.length (offset + 1) rest
      else .plain c :: split (some c) 0 (offset + 1) rest

def ofText (text : Text) : List DataPiece := split none 0 0 text

def isReference : DataPiece → Bool
  | .plain _ => false
  | .reference .. => true

end DataPiece

def hasReferences (text : Text) : Bool := (DataPiece.ofText text).any DataPiece.isReference

namespace Line

def resolvePiece (line : Line) (table : SymbolTable) : DataPiece → Except Problem Text
  | .plain c => .ok [c]
  | .reference offset name => do
    let symbol ← table.lookup name (some (line.location offset)) (some line.raw)
    pure (Numeral.decimalNat symbol.address)

def resolvePieces (line : Line) (table : SymbolTable) : List DataPiece → Except Problem Text
  | [] => .ok []
  | piece :: rest => do
    let written ← line.resolvePiece table piece
    let more ← line.resolvePieces table rest
    pure (written ++ more)

def resolveData (line : Line) (table : SymbolTable) : Except Problem Text :=
  line.resolvePieces table (DataPiece.ofText line.text)

end Line

end TwoPass
