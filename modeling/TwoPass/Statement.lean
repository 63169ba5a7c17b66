import TwoPass.Failure
import TwoPass.Instruction
import TwoPass.Token

/-! Statements: a mnemonic and its operands, as they are read off a content line.

Operands stand one after another, with a comma or nothing between two of them. Reading does not ask
whether the operands suit the mnemonic. -/

set_option autoImplicit false

namespace TwoPass

/-- What an operand denotes. A memory operand also knows the offset of its displacement in the line. -/
inductive Operand.Value where
  | register (index : Nat)
  | immediate (value : Int)
  | memory (base : Nat) (displacement : Int) (displacementStart : Nat)
  | label (name : Text)
  deriving DecidableEq, Repr

def Operand.Value.number? : Operand.Value → Option Int
  | .register index => some index
  | .immediate value => some value
  | .memory base _ _ => some base
  | .label _ => none

/-- An operand with its characters and their offsets in the line. A `resolved` operand stands for a
label: its text is to be written in place of the characters between its offsets. -/
structure Operand where
  value : Operand.Value
  text : Text
  start : Nat
  stop : Nat
  resolved : Bool := false
  deriving DecidableEq, Repr

structure Statement where
  mnemonic : Text
  operands : List Operand
  line : Line
  deriving DecidableEq, Repr

structure Misreading where
  cause : Malformation
  offset : Nat
  deriving DecidableEq, Repr

namespace Operand

/-- Takes the next token if `accept` does. Past the last token stands the end of the line. -/
def expect {α : Type} (ending : Token) (accept : Lexeme → Option α) (expected : Text) :
    List Token → Except Misreading (α × Token × List Token)
  | [] => .error ⟨.unexpectedToken expected "end of line", ending.start⟩
  | token :: rest =>
    match accept token.lexeme with
    | some value => .ok (value, token, rest)
    | none => .error ⟨.unexpectedToken expected token.text, token.start⟩

def registerIndex? : Lexeme → Option Nat
  | .register index => some index
  | _ => none

def numberValue? : Lexeme → Option Int
  | .number value => some value
  | _ => none

def exactly (lexeme : Lexeme) (found : Lexeme) : Option Unit :=
  if found = lexeme then some () else none

def readMemory (text : Text) (ending opening : Token) (tokens : List Token) :
    Except Misreading (Operand × List Token) := do
  let (base, _, tokens) ← expect ending registerIndex? "base register" tokens
  let (_, _, tokens) ← expect ending (exactly .closeParen) "')'" tokens
  let (_, _, tokens) ← expect ending (exactly .openParen) "'(' before memory offset" tokens
  let (displacement, place, tokens) ← expect ending numberValue? "memory offset" tokens
  let (_, closing, tokens) ← expect ending (exactly .closeParen) "')'" tokens
  let written := text.slice opening.start closing.stop
  pure (⟨.memory base displacement place.start, written, opening.start, closing.stop, false⟩, tokens)

def read (text : Text) (ending token : Token) (rest : List Token) :
    Except Misreading (Operand × List Token) :=
  let single (value : Operand.Value) : Except Misreading (Operand × List Token) :=
    .ok (⟨value, token.text, token.start, token.stop, false⟩, rest)
  match token.lexeme with
  | .register index => single (.register index)
  | .number value => single (.immediate value)
  | .label name => single (.label name)
  | .openParen => readMemory text ending token rest
  | _ => .error ⟨.notAnOperand token.text, token.start⟩

/-- Skips the comma that may stand before any operand but the first. -/
def skipComma (ending : Token) (isFirst : Bool) : List Token → Except Misreading (List Token)
  | token :: rest =>
    if !isFirst && token.lexeme = .comma then
      if rest.isEmpty then .error ⟨.operandMissingAfterComma, ending.start⟩ else .ok rest
    else .ok (token :: rest)
  | [] => .ok []

/-- Reads operands up to the end of the line. Each takes at least one token, so `room` for as many
operands as there are tokens suffices. -/
def readList (text : Text) (ending : Token) : (room : Nat) → (isFirst : Bool) → List Token →
    Except Misreading (List Operand)
  | 0, _, _ => .ok []
  | room + 1, isFirst, tokens => do
    match ← skipComma ending isFirst tokens with
    | [] => pure []
    | token :: rest =>
      let (operand, rest) ← read text ending token rest
      let more ← readList text ending room false rest
      pure (operand :: more)

end Operand

namespace Statement

def text (statement : Statement) : Text := statement.line.text

def instruction? (statement : Statement) : Option Instruction :=
  Instruction.find? statement.mnemonic

def location (statement : Statement) : Location := statement.line.location 0

def readTokens (text : Text) (ending : Token) : List Token → Except Misreading (List Operand)
  | [] => .error ⟨.notAnInstruction ending.text, ending.start⟩
  | token :: rest =>
    match token.lexeme with
    | .word _ => Operand.readList text ending rest.length true rest
    | _ => .error ⟨.notAnInstruction token.text, token.start⟩

/-- The problem of a line whose characters are no statement. On the line of a pseudo-instruction it
concerns the operands of that pseudo-instruction. -/
def misread (line : Line) (misreading : Misreading) : Problem :=
  let mnemonic := Text.firstWord line.text
  let fault := if (Instruction.pseudo? mnemonic).isSome then
    Fault.pseudoMalformed mnemonic misreading.cause
  else .malformed misreading.cause
  line.problem fault misreading.offset

def read (line : Line) : Except Failure Statement :=
  if line.body ≠ .content then .error (.notContent line.body)
  else
    let scan := Scan.ofText line.text
    match scan.ending with
    | .error (.numeral fault, _) => .error (.numeral fault)
    | .error (.malformed cause, offset) => .error (.problem (misread line ⟨cause, offset⟩))
    | .ok ending =>
      match readTokens line.text ending scan.tokens with
      | .error misreading => .error (.problem (misread line misreading))
      | .ok operands => .ok ⟨Text.firstWord line.text, operands, line⟩

end Statement

end TwoPass
