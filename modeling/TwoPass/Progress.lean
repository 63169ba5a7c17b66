import TwoPass.Report
import TwoPass.Text.LineBreak

/-! The course of a run as a sequence of events. -/

set_option autoImplicit false

namespace TwoPass

inductive Progress where
  | assembling (path : Text)
  | collecting (file : Text)
  | diagnosed (diagnostic : Diagnostic)
  | labelPlaced (name : Text) (address : Nat)
  | collected (labels finish : Nat)
  | emitting (file : Text)
  | emitted (lines : Nat)
  | assembled (file : Text) (bytes labels lines : Nat)
  | wroteOutput (path : Text)
  | wroteListing (path : Text)
  | wroteSymbols (path : Text)
  deriving DecidableEq, Repr

namespace Progress

def message : Progress → Text
  | .assembling path => "Assembling " ++ path ++ "..."
  | .collecting file => "pass 1: " ++ file
  | .diagnosed diagnostic =>
    diagnostic.severity.name ++ ": " ++ (Text.splitLines diagnostic.text).headD []
  | .labelPlaced name address => "label " ++ name ++ " = " ++ Numeral.hex address
  | .collected labels finish =>
    "pass 1 complete: " ++ Numeral.decimalNat labels ++ " labels, end address " ++
      Numeral.hex finish
  | .emitting file => "pass 2: " ++ file
  | .emitted lines => "pass 2 complete: " ++ Numeral.decimalNat lines ++ " output lines"
  | .assembled file bytes labels lines =>
    "Assembled " ++ file ++ ": " ++ Numeral.decimalNat bytes ++ " bytes, " ++
      Numeral.decimalNat labels ++ " labels, " ++ Numeral.decimalNat lines ++ " output lines"
  | .wroteOutput path => "Wrote " ++ path
  | .wroteListing path => "Wrote listing " ++ path
  | .wroteSymbols path => "Wrote symbols " ++ path

/-- Whether an event concerns a run as a whole rather than a step of it. -/
def isMilestone : Progress → Bool
  | .assembling _ | .assembled .. | .wroteOutput _ | .wroteListing _ | .wroteSymbols _ => true
  | _ => false

def logLine (event : Progress) : Text :=
  let level : Text := if event.isMilestone then "INFO: " else "DEBUG: "
  level ++ event.message

end Progress

structure Journal where
  report : Report
  events : List Progress := []
  deriving DecidableEq, Repr

namespace Journal

def note (journal : Journal) (event : Progress) : Journal :=
  { journal with events := journal.events ++ [event] }

/-- Records a problem; the second component is the one to stop with at the limit. -/
def add (journal : Journal) (found : Problem) : Journal × Option Problem :=
  let (report, stop) := journal.report.add found
  ({ report, events := journal.events ++ [.diagnosed (.problem found)] }, stop)

def warn (journal : Journal) (warning : Warning) (location : Location) : Journal :=
  { report := journal.report.warn warning (some location)
    events := journal.events ++ [.diagnosed (.warning warning (some location))] }

@[simp] theorem limit_add (journal : Journal) (found : Problem) :
    (journal.add found).1.report.limit = journal.report.limit :=
  Report.limit_add journal.report found

end Journal

end TwoPass
