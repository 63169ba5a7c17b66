import Mathlib.Logic.Function.Basic
import TwoPass.Proofs.Expansion

/-! Executing written instructions on the registers.

A line is executed by what it is read as. Only instructions that concern nothing but registers are
executed here: the bitwise exclusive or, the addition of a number and the shift to the left by one,
all on words of 64 bits. -/

set_option autoImplicit false

namespace TwoPass

abbrev Registers := Fin Machine.registerCount → BitVec 64

namespace Registers

def read? (registers : Registers) (index : Nat) : Option (BitVec 64) :=
  if small : index < Machine.registerCount then some (registers ⟨index, small⟩) else none

def write? (registers : Registers) (index : Nat) (value : BitVec 64) : Option Registers :=
  if small : index < Machine.registerCount then
    some (Function.update registers ⟨index, small⟩ value)
  else none

def execute? (registers : Registers) (mnemonic : Text) : List Operand.Value → Option Registers
  | [.register target, .register left, .register right] =>
    if mnemonic = "xor" then do
      let first ← registers.read? left
      let second ← registers.read? right
      registers.write? target (first ^^^ second)
    else none
  | [.register target, .immediate number] =>
    if mnemonic = "addi" then do
      let before ← registers.read? target
      registers.write? target (before + BitVec.ofInt 64 number)
    else if mnemonic = "shftli" then do
      let before ← registers.read? target
      registers.write? target (before <<< number.toNat)
    else none
  | _ => none

variable (registers : Registers) (target : Fin Machine.registerCount)

@[simp] theorem read?_val : registers.read? target = some (registers target) :=
  dif_pos target.isLt

@[simp] theorem write?_val (value : BitVec 64) :
    registers.write? target value = some (Function.update registers target value) :=
  dif_pos target.isLt

theorem execute?_xor_self :
    registers.execute? "xor" [.register target, .register target, .register target] =
      some (Function.update registers target 0) := by
  simp [execute?]

theorem execute?_addi (number : Nat) :
    registers.execute? "addi" [.register target, .immediate number] =
      some (Function.update registers target (registers target + BitVec.ofNat 64 number)) := by
  simp [execute?]

theorem execute?_shftli (number : Nat) :
    registers.execute? "shftli" [.register target, .immediate number] =
      some (Function.update registers target (registers target <<< number)) := by
  simp [execute?]

end Registers

namespace Statement

def ofRaw? (file : Text) (number : Int) (raw : Text) : Option Statement :=
  match Line.read raw file number with
  | .error _ => none
  | .ok line => (Statement.read line).toOption

theorem ofRaw?_of_read {file raw : Text} {number : Int} {line : Line} {statement : Statement}
    (lineRead : Line.read raw file number = .ok line) (read : Statement.read line = .ok statement) :
    ofRaw? file number raw = some statement := by
  simp only [ofRaw?, lineRead, read, Except.toOption]

theorem ofRaw?_written {mnemonic : Text} {instruction : Instruction}
    {parts : List (Operand.Value × Text)} (found : Instruction.find? mnemonic = some instruction)
    (some_part : parts ≠ []) (spelled : ∀ part ∈ parts, part.1.Spelled part.2) (file : Text)
    (number : Int) :
    ∃ statement, ofRaw? file number (writtenText mnemonic (parts.map Prod.snd)) = some statement ∧
      statement.mnemonic = mnemonic ∧
      statement.operands.map (·.value.placeless) = parts.map Prod.fst := by
  have word := Instruction.mnemonic_spelled found
  have content : Line.IsContent (writtenText mnemonic (parts.map Prod.snd)) := by
    cases word with
    | word valid other =>
      refine isContent_written valid (by simpa using some_part) ?_
      exact List.forall_mem_map.mpr fun part member => (spelled part member).visible
  generalize text : writtenText mnemonic (parts.map Prod.snd) = written at content ⊢
  have line := Line.read_content content file number
  obtain ⟨operands, read, denote⟩ := @read_written mnemonic parts
    ⟨file, number, written, 0, written, .content⟩ word some_part spelled rfl text.symm
  exact ⟨_, ofRaw?_of_read line read, rfl, denote⟩

end Statement

/-- Reads lines and executes them in order. There is no result if one of them cannot be read or is
no instruction on registers. -/
def Registers.runLines? (file : Text) (number : Int) (registers : Registers) :
    List Text → Option Registers
  | [] => some registers
  | raw :: rest => do
    let statement ← Statement.ofRaw? file number raw
    let next ← registers.execute? statement.mnemonic (statement.operands.map (·.value.placeless))
    next.runLines? file number rest

namespace Registers

variable {file : Text} {number : Int} {registers : Registers}

theorem runLines?_written {mnemonic : Text} {instruction : Instruction}
    {parts : List (Operand.Value × Text)} {rest : List Text} {next : Registers}
    (found : Instruction.find? mnemonic = some instruction) (some_part : parts ≠ [])
    (spelled : ∀ part ∈ parts, part.1.Spelled part.2)
    (step : registers.execute? mnemonic (parts.map Prod.fst) = some next) :
    registers.runLines? file number
        (InstructionText.render ⟨mnemonic, parts.map Prod.snd⟩ :: rest) =
      next.runLines? file number rest := by
  obtain ⟨statement, read, rfl, denote⟩ :=
    Statement.ofRaw?_written found some_part spelled file number
  have own : InstructionText.render ⟨statement.mnemonic, parts.map Prod.snd⟩ =
      Statement.writtenText statement.mnemonic (parts.map Prod.snd) := rfl
  rw [runLines?, own, read, Option.bind_eq_bind, Option.bind_some, denote, step]
  rfl

end Registers

end TwoPass
