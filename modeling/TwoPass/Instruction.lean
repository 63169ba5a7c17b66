import TwoPass.Text.Basic

/-! The instruction set: every mnemonic, the operand shapes it accepts and the bytes it occupies.

Tinker has 32 general registers, instructions of 4 bytes and data items of 8. Register 31 is the
stack pointer. A pseudo-instruction is written like an instruction and stands for one or more. -/

set_option autoImplicit false

namespace TwoPass

namespace Machine

def registerCount : Nat := 32

def stackPointer : Nat := 31

def instructionSize : Nat := 4

def dataItemSize : Nat := 8

def defaultBase : Nat := 0x1000

def maxAddress : Nat := 0xFFFFFFFF

end Machine

inductive Slot where
  | register
  | unsigned12
  | signed12
  | unsigned64
  | memory
  | address
  | relative
  deriving DecidableEq, Repr

abbrev Shape := List Slot

structure Range where
  low : Int
  high : Int
  deriving DecidableEq, Repr

def Range.contains (range : Range) (value : Int) : Bool := range.low ≤ value && value ≤ range.high

def unsigned12Range : Range := ⟨0, 4095⟩

def signed12Range : Range := ⟨-2048, 2047⟩

def unsigned64Range : Range := ⟨0, 0xFFFFFFFFFFFFFFFF⟩

namespace Slot

def range? : Slot → Option Range
  | .unsigned12 => some unsigned12Range
  | .signed12 => some signed12Range
  | .unsigned64 => some unsigned64Range
  | _ => none

def text : Slot → Text
  | .register => "rN"
  | .unsigned12 => "u12"
  | .signed12 => "s12"
  | .unsigned64 => "u64"
  | .memory => "(rN)(s12)"
  | .address => ":label"
  | .relative => ":label"

def immediateName? : Slot → Option Text
  | .unsigned12 => some "unsigned 12-bit immediate"
  | .signed12 => some "signed 12-bit immediate"
  | .unsigned64 => some "64-bit immediate"
  | _ => none

def isLabel : Slot → Bool
  | .address | .relative => true
  | _ => false

end Slot

def Shape.describe (mnemonic : Text) (shape : Shape) : Text :=
  if shape.isEmpty then mnemonic else mnemonic ++ " " ++ Text.join ", " (shape.map Slot.text)

inductive SizeClass where
  | fixed4
  | fixed8
  | fixed48
  | dataItem8
  deriving DecidableEq, Repr

def SizeClass.size : SizeClass → Nat
  | .fixed4 => 4
  | .fixed8 => 8
  | .fixed48 => 48
  | .dataItem8 => 8

def SizeClass.instructionCount (sizeClass : SizeClass) : Nat :=
  sizeClass.size / Machine.instructionSize

inductive Pseudo where
  | input
  | output
  | clear
  | halt
  | push
  | pop
  | load
  deriving DecidableEq, Repr

/-- An entry of the catalog. Shapes are tried in order; `pseudo` is present where the mnemonic
stands for other instructions. -/
structure Instruction where
  mnemonic : Text
  shapes : List Shape
  sizeClass : SizeClass := .fixed4
  pseudo : Option Pseudo := none
  deriving DecidableEq, Repr

namespace Instruction

def size (instruction : Instruction) : Nat := instruction.sizeClass.size

def isPseudo (instruction : Instruction) : Bool := instruction.pseudo.isSome

def isRelative (instruction : Instruction) : Bool :=
  instruction.shapes.any (·.contains .relative)

def shapeTexts (instruction : Instruction) : List Text :=
  instruction.shapes.map (Shape.describe instruction.mnemonic)

def describe (instruction : Instruction) : Text :=
  let kind : Text := if instruction.isPseudo then "macro" else "instruction"
  "InstructionInfo('" ++ instruction.mnemonic ++ "', " ++ kind ++ ", size=" ++
    Nat.toDigits 10 instruction.size ++ ")"

def threeRegisters (mnemonic : Text) : Instruction :=
  ⟨mnemonic, [[.register, .register, .register]], .fixed4, none⟩

def twoRegisters (mnemonic : Text) : Instruction :=
  ⟨mnemonic, [[.register, .register]], .fixed4, none⟩

def registerAndUnsigned (mnemonic : Text) : Instruction :=
  ⟨mnemonic, [[.register, .unsigned12]], .fixed4, none⟩

def jump (mnemonic : Text) : Instruction :=
  ⟨mnemonic, [[.register], [.address]], .fixed4, none⟩

def catalog : List Instruction :=
  [threeRegisters "add", threeRegisters "sub", threeRegisters "mul", threeRegisters "div",
   registerAndUnsigned "addi", registerAndUnsigned "subi",
   threeRegisters "and", threeRegisters "or", threeRegisters "xor", twoRegisters "not",
   threeRegisters "shftr", threeRegisters "shftl",
   registerAndUnsigned "shftri", registerAndUnsigned "shftli",
   jump "br", jump "call",
   ⟨"brr", [[.register], [.signed12], [.relative]], .fixed4, none⟩,
   twoRegisters "brnz", threeRegisters "brgt",
   ⟨"return", [[]], .fixed4, none⟩,
   threeRegisters "addf", threeRegisters "subf", threeRegisters "mulf", threeRegisters "divf",
   ⟨"mov", [[.register, .memory], [.register, .register], [.register, .signed12],
     [.memory, .register]], .fixed4, none⟩,
   ⟨"priv", [[.register, .register, .register, .unsigned12]], .fixed4, none⟩,
   ⟨"in", [[.register, .register]], .fixed4, some .input⟩,
   ⟨"out", [[.register, .register]], .fixed4, some .output⟩,
   ⟨"clr", [[.register]], .fixed4, some .clear⟩,
   ⟨"halt", [[]], .fixed4, some .halt⟩,
   ⟨"push", [[.register]], .fixed8, some .push⟩,
   ⟨"pop", [[.register]], .fixed8, some .pop⟩,
   ⟨"ld", [[.register, .unsigned64], [.register, .address]], .fixed48, some .load⟩]

def find? (mnemonic : Text) : Option Instruction :=
  catalog.find? (·.mnemonic == mnemonic)

def pseudo? (mnemonic : Text) : Option Pseudo := (find? mnemonic).bind Instruction.pseudo

def mnemonics : List Text := catalog.map Instruction.mnemonic

end Instruction

end TwoPass
