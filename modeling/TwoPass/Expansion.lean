import TwoPass.Statement

/-! Pseudo-instructions and the instructions they stand for.

A push makes room below the stack pointer and then stores; a pop loads and then gives the room back.
A load builds its 64-bit value from windows of bits, the most significant first: the register is
cleared, and each window is added and shifted to make room for the next. -/

set_option autoImplicit false

namespace TwoPass

structure InstructionText where
  mnemonic : Text
  operands : List Text
  deriving DecidableEq, Repr

def InstructionText.render (written : InstructionText) : Text :=
  written.mnemonic ++ " " ++ Text.join ", " written.operands

namespace Expansion

structure Window where
  width : Nat
  shift : Nat
  deriving DecidableEq, Repr

/-- The windows of a load, most significant first. Their widths add up to 64. -/
def loadWindows : List Window := [⟨12, 12⟩, ⟨12, 12⟩, ⟨12, 12⟩, ⟨12, 12⟩, ⟨12, 4⟩, ⟨4, 0⟩]

/-- The bits of `value` seen through windows laid from bit `remaining` downwards. -/
def chunksFrom (value : Int) : (remaining : Nat) → List Window → List (Nat × Window)
  | _, [] => []
  | remaining, window :: rest =>
    let below := remaining - window.width
    let chunk := (value / 2 ^ below % 2 ^ window.width).toNat
    (chunk, window) :: chunksFrom value below rest

def loadChunks (value : Int) : List (Nat × Window) := chunksFrom value 64 loadWindows

def stackPointer : Text := "r" ++ Numeral.decimalNat Machine.stackPointer

def noRegister : Text := "r0"

def stackTop : Text := "(" ++ stackPointer ++ ")(0)"

def privileged (first second : Text) (function : Nat) : InstructionText :=
  ⟨"priv", [first, second, noRegister, Numeral.decimalNat function]⟩

def clearing (register : Text) : InstructionText := ⟨"xor", [register, register, register]⟩

def loadStep (register : Text) (entry : Nat × Window) : List InstructionText :=
  let addition : InstructionText := ⟨"addi", [register, Numeral.decimalNat entry.1]⟩
  if entry.2.shift == 0 then [addition]
  else [addition, ⟨"shftli", [register, Numeral.decimalNat entry.2.shift]⟩]

def load (register : Text) (value : Int) : List InstructionText :=
  clearing register :: (loadChunks value).flatMap (loadStep register)

end Expansion

def Operand.Value.text : Operand.Value → Except Numeral.Fault Text
  | .register index => Numeral.write index
  | .immediate value => Numeral.write value
  | .memory base _ _ => Numeral.write base
  | .label name => .ok name

namespace Expansion

def registerAt (operands : List Operand) (position : Nat) : Except Failure Text :=
  match operands[position]? with
  | none => .error .operandMissing
  | some operand =>
    match operand.value.text with
    | .ok text => .ok ("r" ++ text)
    | .error fault => .error (.numeral fault)

def numberAt (operands : List Operand) (position : Nat) : Except Failure Int :=
  match operands[position]? with
  | none => .error .operandMissing
  | some operand =>
    match operand.value.number? with
    | some value => .ok value
    | none => .error .labelUnresolved

def ofPseudo (operands : List Operand) : Pseudo → Except Failure (List InstructionText)
  | .input => do
    let target ← registerAt operands 0
    let device ← registerAt operands 1
    pure [privileged target device 3]
  | .output => do
    let device ← registerAt operands 0
    let source ← registerAt operands 1
    pure [privileged device source 4]
  | .clear => do
    let target ← registerAt operands 0
    pure [clearing target]
  | .halt => .ok [privileged noRegister noRegister 0]
  | .push => do
    let source ← registerAt operands 0
    pure [⟨"subi", [stackPointer, "8"]⟩, ⟨"mov", [stackTop, source]⟩]
  | .pop => do
    let target ← registerAt operands 0
    pure [⟨"mov", [target, stackTop]⟩, ⟨"addi", [stackPointer, "8"]⟩]
  | .load => do
    let target ← registerAt operands 0
    let value ← numberAt operands 1
    pure (load target value)

end Expansion

def Statement.expand (statement : Statement) : Except Failure (List Text) :=
  match Instruction.pseudo? statement.mnemonic with
  | none => .error (.notPseudo statement.mnemonic)
  | some pseudo => do
    let instructions ← Expansion.ofPseudo statement.operands pseudo
    pure (instructions.map InstructionText.render)

end TwoPass
