import TwoPass.Line
import TwoPass.Text.Quoted

/-! Every way in which the assembly of a text can end without a result.

A problem is something wrong with the source and can be reported together with others. The other
failures are refusals of an operation and end it at once. -/

set_option autoImplicit false

namespace TwoPass

inductive Failure where
  | problem (found : Problem)
  | numeral (fault : Numeral.Fault)
  /-- Only content can be read as a statement. -/
  | notContent (body : Line.Body)
  /-- Only pseudo-instructions can be expanded. -/
  | notPseudo (mnemonic : Text)
  | operandMissing
  /-- A label stands where the expansion needs its address. -/
  | labelUnresolved
  /-- An operand stands in a slot of another kind. -/
  | operandUnsuited
  /-- The numbers of a slot have no name. -/
  | slotUnnamed
  deriving DecidableEq, Repr

def Failure.message : Failure → Text
  | .problem found => found.text
  | .numeral fault => fault.message
  | .notContent body => "cannot parse a " ++ body.kind ++ " line as a statement"
  | .notPseudo mnemonic => Text.quoted mnemonic
  | .operandMissing => "operand missing"
  | .labelUnresolved => "label without an address"
  | .operandUnsuited => "operand in a slot of another kind"
  | .slotUnnamed => "slot without a name for its numbers"

end TwoPass
