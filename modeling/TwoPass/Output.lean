import TwoPass.Settings
import TwoPass.Expansion
import TwoPass.Layout
import TwoPass.Reference

/-! What is written for each line of a program once all labels are known. -/

set_option autoImplicit false

namespace TwoPass

inductive OutputLine where
  | directive (target : Section)
  | label (name : Text)
  | indented (text : Text)
  deriving DecidableEq, Repr

def OutputLine.render : OutputLine → Text
  | .directive target => "." ++ target.name
  | .label name => name ++ ":"
  | .indented text => '\t' :: text

inductive Emission where
  | nothing
  | directive (target : Section)
  | label (name : Text)
  | lines (source : Text) (texts : List Text)
  /-- A line with an undefined label, passed through as it is together with an error. -/
  | verbatim (source : Text) (found : Problem)
  deriving DecidableEq, Repr

namespace Emission

/-- Applies the policy on undefined labels to a line that could not be resolved. -/
def unresolved (settings : Settings) (source : Text) (found : Problem) : Except Failure Emission :=
  if settings.allowUndefined && found.fault.category = .undefinedLabel then
    .ok (.verbatim source found.downgraded)
  else .error (.problem found)

def ofItem (settings : Settings) (table : SymbolTable) (line : Line) : Except Failure Emission :=
  match line.resolveData table with
  | .ok text => .ok (.lines line.text [text])
  | .error found => unresolved settings line.text found

def ofCode (settings : Settings) (table : SymbolTable) (place : Nat) (statement : Statement)
    (instruction : Instruction) (shape : Shape) : Except Failure Emission :=
  match statement.resolve table shape place with
  | .error (.problem found) => unresolved settings statement.text found
  | .error failure => .error failure
  | .ok resolved =>
    if instruction.isPseudo then do
      let texts ← resolved.expand
      pure (.lines statement.text texts)
    else .ok (.lines statement.text [resolved.render])

/-- The emission of a placement. Stray lines have been reported and emit nothing, and so have
rejected lines unless their problem is fatal. -/
def ofPlacement (settings : Settings) (table : SymbolTable) (placement : Placement) :
    Except Failure Emission :=
  match placement.entry with
  | .rejected _ found => if found.isFatal then .error (.problem found) else .ok .nothing
  | .stray _ => .ok .nothing
  | .item line => ofItem settings table line
  | .code statement instruction shape =>
    ofCode settings table placement.address statement instruction shape
  | .passive line =>
    match line.body with
    | .directive target => .ok (.directive target)
    | .label name => .ok (if settings.keepLabels then .label name else .nothing)
    | _ => .ok .nothing

end Emission

end TwoPass
