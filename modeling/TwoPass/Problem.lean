import TwoPass.Numeral

/-! What can be wrong with a source program, where it was found, and how it is told.

A fault is a cause: the data of what went wrong, without wording. A problem is a fault together
with its place and the source line there. Wording, hint and severity are functions of the fault,
and `Problem.text` is the one place where they are put together. -/

set_option autoImplicit false

namespace TwoPass

/-- A place in a source. Lines and columns count from 1; a column that is not positive is unknown. -/
structure Location where
  file : Text
  line : Int
  column : Int
  deriving DecidableEq, Repr

def Location.text (location : Location) : Text :=
  location.file ++ ":" ++ Numeral.decimal location.line ++ ":" ++ Numeral.decimal location.column

/-- How a diagnostic affects a run: a fatal problem fails it, an error is reported and its line
skipped or passed through, a warning changes nothing. -/
inductive Severity where
  | fatal
  | error
  | warning
  deriving DecidableEq, Repr

def Severity.name : Severity → Text
  | .fatal => "fatal"
  | .error => "error"
  | .warning => "warning"

def Severity.word : Severity → Text
  | .warning => "warning"
  | _ => "error"

inductive Malformation where
  | unexpectedCharacter (character : Char)
  | hexDigitsMissing
  | invalidNumber (text : Text)
  | labelNameMissing
  | invalidLabelLine (text : Text)
  | notAnInstruction (found : Text)
  | operandMissingAfterComma
  | notAnOperand (found : Text)
  | unexpectedToken (expected found : Text)
  deriving DecidableEq, Repr

def Malformation.message : Malformation → Text
  | .unexpectedCharacter c => "unexpected character '" ++ [c] ++ "'"
  | .hexDigitsMissing => "hexadecimal literal has no digits"
  | .invalidNumber text => "invalid number '" ++ text ++ "'"
  | .labelNameMissing => "expected label name after ':'"
  | .invalidLabelLine text => "invalid label definition '" ++ text ++ "'"
  | .notAnInstruction found => "expected instruction, found '" ++ found ++ "'"
  | .operandMissingAfterComma => "expected operand after ','"
  | .notAnOperand found => "expected operand, found '" ++ found ++ "'"
  | .unexpectedToken expected found => "expected " ++ expected ++ ", found '" ++ found ++ "'"

def Malformation.hint : Malformation → Option Text
  | .labelNameMissing => some "label references are written ':NAME' with no space"
  | .invalidLabelLine _ => some "a label line is ':' followed by a single name, e.g. ':LOOP'"
  | _ => none

inductive Category where
  | general
  | malformedLine
  | directive
  | unknownInstruction
  | registerRange
  | immediateRange
  | operandShape
  | branchRange
  | addressOverflow
  | undefinedLabel
  | pseudoInstruction
  | tooManyErrors
  deriving DecidableEq, Repr

inductive Fault where
  | malformed (cause : Malformation)
  | unknownDirective (word : Text)
  | unknownInstruction (mnemonic : Text) (similar : List Text)
  | registerRange (register : Text)
  | immediateRange (value low high : Int) (what : Text)
  | operandShape (mnemonic : Text) (shapes : List Text)
  | branchRange (target : Text) (offset : Int)
  | addressOverflow (label : Text) (address : Int)
  /-- `hint`, where it is given and not empty, replaces the one made from the similar names. -/
  | undefinedLabel (name : Text) (hint : Option Text) (similar : List Text) (severity : Severity)
  | pseudoMalformed (mnemonic : Text) (cause : Malformation)
  | pseudoShape (mnemonic : Text) (shapes : List Text)
  | tableFrozen (label : Text)
  | assemblyFailed (fatal : Nat) (report : Text)
  | tooManyErrors (limit : Int)
  /-- A fault in the reporter's own words. -/
  | described (category : Category) (message : Text) (hint : Option Text)
  deriving DecidableEq, Repr

/-- The first three of the names that may have been meant. -/
def suggestion (names : List Text) : Text :=
  "did you mean " ++ Text.join ", " ((names.take 3).map Text.apostrophized) ++ "?"

def acceptedShapes (mnemonic : Text) (shapes : List Text) : Text :=
  mnemonic ++ " accepts: " ++ Text.join " | " shapes

namespace Fault

def category : Fault → Category
  | .malformed _ => .malformedLine
  | .unknownDirective _ => .directive
  | .unknownInstruction .. => .unknownInstruction
  | .registerRange _ => .registerRange
  | .immediateRange .. => .immediateRange
  | .operandShape .. => .operandShape
  | .branchRange .. => .branchRange
  | .addressOverflow .. => .addressOverflow
  | .undefinedLabel .. => .undefinedLabel
  | .pseudoMalformed .. => .pseudoInstruction
  | .pseudoShape .. => .pseudoInstruction
  | .tableFrozen _ => .general
  | .assemblyFailed .. => .general
  | .tooManyErrors _ => .tooManyErrors
  | .described category _ _ => category

/-- Faults in the operands of a pseudo-instruction let the run continue, and an undefined label has
the severity it is given. All others are fatal. -/
def severity : Fault → Severity
  | .undefinedLabel _ _ _ severity => severity
  | fault => if fault.category = .pseudoInstruction then .error else .fatal

def message : Fault → Text
  | .malformed cause => cause.message
  | .unknownDirective word => "unknown directive '" ++ word ++ "'"
  | .unknownInstruction mnemonic _ => "unrecognized instruction '" ++ mnemonic ++ "'"
  | .registerRange register => "register '" ++ register ++ "' is out of range"
  | .immediateRange value _ _ what => what ++ " " ++ Numeral.decimal value ++ " is out of range"
  | .operandShape mnemonic _ => "invalid operands for '" ++ mnemonic ++ "'"
  | .branchRange target offset =>
    "branch target '" ++ target ++ "' is out of range (offset: " ++ Numeral.decimal offset ++ ")"
  | .addressOverflow label address =>
    "label '" ++ label ++ "' address " ++ Numeral.hex address ++ " does not fit in 32 bits"
  | .undefinedLabel name _ _ _ => "undefined label '" ++ name ++ "'"
  | .pseudoMalformed mnemonic cause =>
    "malformed operands for '" ++ mnemonic ++ "' macro: " ++ cause.message
  | .pseudoShape mnemonic _ => "malformed operands for '" ++ mnemonic ++ "' macro"
  | .tableFrozen label => "cannot define label '" ++ label ++ "' after pass 1"
  | .assemblyFailed fatal report =>
    "Assembly failed with " ++ Numeral.decimalNat fatal ++ " errors:\n\n" ++ report
  | .tooManyErrors limit => "Too many errors (" ++ Numeral.decimal limit ++ "), stopping"
  | .described _ message _ => message

def hint : Fault → Option Text
  | .malformed cause => cause.hint
  | .unknownDirective _ => some "valid directives are .code and .data"
  | .unknownInstruction _ similar => if similar.isEmpty then none else some (suggestion similar)
  | .registerRange _ => some "registers are r0 through r31"
  | .immediateRange _ low high _ =>
    some ("valid range is " ++ Numeral.decimal low ++ " to " ++ Numeral.decimal high)
  | .operandShape mnemonic shapes =>
    if shapes.isEmpty then none else some (acceptedShapes mnemonic shapes)
  | .branchRange _ offset =>
    some ("branch offset is " ++ Numeral.decimal offset ++ ", but range is -2048 to +2047; " ++
      "load the address with 'ld' and branch through a register")
  | .undefinedLabel _ hint similar _ =>
    if (hint.getD []).isEmpty && !similar.isEmpty then some (suggestion similar) else hint
  | .pseudoMalformed _ cause => cause.hint
  | .pseudoShape mnemonic shapes => some (acceptedShapes mnemonic shapes)
  | .described _ _ hint => hint
  | _ => none

end Fault

structure Problem where
  fault : Fault
  location : Option Location := none
  sourceLine : Option Text := none
  deriving DecidableEq, Repr

namespace Problem

def severity (problem : Problem) : Severity := problem.fault.severity

def isFatal (problem : Problem) : Bool := problem.severity = .fatal

/-- The source line, and under it a caret at the column, where both place and line are known. -/
def context (problem : Problem) : List Text :=
  match problem.sourceLine, problem.location with
  | some line, some location =>
    let caret : Text := List.replicate (4 + location.column.toNat - 1) ' ' ++ "^"
    ("    " ++ line) :: if 0 < location.column then [caret] else []
  | _, _ => []

def headline (problem : Problem) : Text :=
  let told := problem.severity.word ++ ": " ++ problem.fault.message
  match problem.location with
  | some location => location.text ++ ": " ++ told
  | none => told

def hintLines (problem : Problem) : List Text :=
  match problem.fault.hint with
  | some (c :: rest) => ["hint: " ++ (c :: rest)]
  | _ => []

def text (problem : Problem) : Text :=
  Text.lines (problem.headline :: (problem.context ++ problem.hintLines))

/-- An undefined label reported without failing the run; any other problem stays as it is. -/
def downgraded (problem : Problem) : Problem :=
  match problem.fault with
  | .undefinedLabel name _ similar _ =>
    { problem with fault := .undefinedLabel name problem.fault.hint similar .error }
  | _ => problem

end Problem

end TwoPass
