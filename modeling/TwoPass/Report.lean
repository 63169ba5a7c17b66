import TwoPass.Problem

/-! The diagnostics of a run, in the order in which they were found. -/

set_option autoImplicit false

namespace TwoPass

inductive Warning where
  | outsideSection (content : Text)
  | labelRedefined (name : Text) (before : Nat) (place : Option Location) (after : Nat)
  | described (message : Text)
  deriving DecidableEq, Repr

def Warning.message : Warning → Text
  | .outsideSection content =>
    "'" ++ content ++ "' appears before any .code or .data directive and is ignored"
  | .labelRedefined name before place after =>
    "label '" ++ name ++ "' redefined; address " ++ Numeral.hex before ++ " from " ++
      (place.map Location.text).getD "an unknown place" ++ " replaced by " ++ Numeral.hex after
  | .described message => message

inductive Diagnostic where
  | problem (found : Problem)
  | warning (notice : Warning) (location : Option Location)
  deriving DecidableEq, Repr

namespace Diagnostic

def severity : Diagnostic → Severity
  | .problem found => found.severity
  | .warning .. => .warning

def location : Diagnostic → Option Location
  | .problem found => found.location
  | .warning _ location => location

def text : Diagnostic → Text
  | .problem found => found.text
  | .warning notice location =>
    let told := "warning: " ++ notice.message
    match location with
    | some location => location.text ++ ": " ++ told
    | none => told

end Diagnostic

/-- Diagnostics recorded so far, and the number of fatal problems at which to give up. Fatal problems
are kept a second time, by themselves, and it is these that are counted. What has been `delivered` to a
listener stays delivered when the report is cleared. -/
structure Report where
  limit : Int
  fatal : List Problem := []
  diagnostics : List Diagnostic := []
  delivered : List Diagnostic := []
  deriving DecidableEq, Repr

namespace Report

def record (report : Report) (diagnostic : Diagnostic) : Report :=
  { report with
    diagnostics := report.diagnostics ++ [diagnostic]
    delivered := report.delivered ++ [diagnostic] }

def withSeverity (report : Report) (severity : Severity) : List Diagnostic :=
  report.diagnostics.filter (·.severity = severity)

def recoverable (report : Report) : List Diagnostic := report.withSeverity .error

def warnings (report : Report) : List Diagnostic := report.withSeverity .warning

def hasFatal (report : Report) : Bool := !report.fatal.isEmpty

/-- Records a problem, a fatal one in both places. The second component is the problem to stop with
when a fatal one reaches the limit. -/
def add (report : Report) (problem : Problem) : Report × Option Problem :=
  let recorded := report.record (.problem problem)
  if problem.isFatal then
    let counted := { recorded with fatal := recorded.fatal ++ [problem] }
    if counted.limit ≤ counted.fatal.length then
      (counted, some { fault := .tooManyErrors counted.limit })
    else (counted, none)
  else (recorded, none)

@[simp] theorem limit_add (report : Report) (found : Problem) :
    (report.add found).1.limit = report.limit := by
  unfold add
  dsimp only
  split
  · split <;> rfl
  · rfl

def warn (report : Report) (warning : Warning) (location : Option Location) : Report :=
  report.record (.warning warning location)

def clear (report : Report) : Report := { report with fatal := [], diagnostics := [] }

def counted (count : Nat) (word : Text) : Text :=
  Numeral.decimalNat count ++ " " ++ word ++ if count == 1 then "" else "s"

def summary (report : Report) : Text :=
  counted (report.fatal.length + report.recoverable.length) "error" ++ ", " ++
    counted report.warnings.length "warning"

def text (report : Report) : Text :=
  Text.lines (report.diagnostics.flatMap (fun diagnostic => [diagnostic.text, []]) ++
    [report.summary])

def failure (report : Report) : Problem :=
  { fault := .assemblyFailed report.fatal.length report.text }

end Report

end TwoPass
