import Mathlib.Data.List.DropRight
import TwoPass.Proofs.Numeral
import TwoPass.Proofs.Recording
import TwoPass.Proofs.Text.Lines

/-! A report and everything that was done to it.

A report is used on after it has asked to stop, and it may be cleared. It holds what was recorded since
it was last cleared, and its listener has received all that was ever recorded. The numbers in its last
line are those of the diagnostics that it holds. -/

set_option autoImplicit false

namespace TwoPass.Report

inductive Operation
  | add (found : Problem)
  | warn (notice : Warning) (location : Option Location)
  | clear
  deriving DecidableEq

namespace Operation

def diagnostic? : Operation → Option Diagnostic
  | .add found => some (.problem found)
  | .warn notice location => some (.warning notice location)
  | .clear => none

def fatal? : Operation → Option Problem
  | .add found => if found.severity = .fatal then some found else none
  | _ => none

def sinceClear (operations : List Operation) : List Operation :=
  operations.rtakeWhile (· ≠ .clear)

theorem sinceClear_concat (operations : List Operation) (operation : Operation) :
    sinceClear (operations ++ [operation]) =
      if operation = .clear then [] else sinceClear operations ++ [operation] := by
  by_cases clears : operation = .clear
  · simp [sinceClear, clears]
  · simp [sinceClear, clears]

theorem fatal?_eq (operation : Operation) :
    operation.fatal? = operation.diagnostic?.bind Diagnostic.fatal? := by
  cases operation with
  | add found => simp [fatal?, diagnostic?, Diagnostic.fatal?, Problem.isFatal]
  | warn | clear => rfl

end Operation

def perform (report : Report) : Operation → Report
  | .add found => (report.add found).1
  | .warn notice location => report.warn notice location
  | .clear => report.clear

def performAll (report : Report) (operations : List Operation) : Report :=
  operations.foldl perform report

def count (report : Report) (severity : Severity) : Nat :=
  report.diagnostics.countP fun diagnostic => diagnostic.severity = severity

/-- The fatal problems that are kept by themselves are those of the diagnostics, in order. -/
def Consistent (report : Report) : Prop :=
  report.fatal = report.diagnostics.filterMap Diagnostic.fatal?

/-- A report as the operations on it say. Each of its lists is told from the operations alone. -/
structure Follows (limit : Int) (operations : List Operation) (report : Report) : Prop where
  limit : report.limit = limit
  fatal : report.fatal = (Operation.sinceClear operations).filterMap Operation.fatal?
  diagnostics : report.diagnostics =
    (Operation.sinceClear operations).filterMap Operation.diagnostic?
  delivered : report.delivered = operations.filterMap Operation.diagnostic?

section
variable {limit : Int} {operations : List Operation} {report after : Report}

theorem Follows.grow (follows : Follows limit operations report) {operation : Operation}
    {diagnostic : Diagnostic} (records : operation.diagnostic? = some diagnostic)
    (grown : Grown report [diagnostic] after) : Follows limit (operations ++ [operation]) after := by
  have keeps : operation ≠ .clear := by
    rintro rfl
    cases records
  have fatal : [operation].filterMap Operation.fatal? = [diagnostic].filterMap Diagnostic.fatal? := by
    rw [List.filterMap_congr fun operation _ => operation.fatal?_eq, ← List.filterMap_filterMap]
    simp [records]
  constructor
  · exact grown.limit.trans follows.limit
  · rw [Operation.sinceClear_concat, if_neg keeps, List.filterMap_append, ← follows.fatal, fatal,
      grown.fatal]
  · rw [Operation.sinceClear_concat, if_neg keeps, List.filterMap_append, ← follows.diagnostics]
    simp [grown.diagnostics, records]
  · rw [List.filterMap_append, ← follows.delivered]
    simp [grown.delivered, records]

theorem Follows.step (follows : Follows limit operations report) (operation : Operation) :
    Follows limit (operations ++ [operation]) (report.perform operation) := by
  cases operation with
  | add found => exact follows.grow rfl (.add report found)
  | warn notice location => exact follows.grow rfl (.warn report notice location)
  | clear =>
    -- both lists are emptied, but what was delivered stays delivered
    constructor
    · exact follows.limit
    · rw [Operation.sinceClear_concat, if_pos rfl]
      rfl
    · rw [Operation.sinceClear_concat, if_pos rfl]
      rfl
    · simp [perform, clear, follows.delivered, Operation.diagnostic?]

theorem follows_performAll (limit : Int) (operations : List Operation) :
    Follows limit operations (performAll { limit } operations) := by
  induction operations using List.reverseRecOn with
  | nil => exact ⟨rfl, rfl, rfl, rfl⟩
  | append_singleton operations operation ih =>
    rw [performAll, List.foldl_append]
    exact ih.step operation

theorem Follows.consistent (follows : Follows limit operations report) : report.Consistent := by
  rw [Consistent, follows.fatal, follows.diagnostics, List.filterMap_filterMap]
  exact List.filterMap_congr fun operation _ => operation.fatal?_eq

theorem Consistent.length_fatal (consistent : report.Consistent) :
    report.fatal.length = fatalCount report.diagnostics := by
  rw [consistent, Diagnostic.length_filterMap_fatal?]

end

theorem counted_unbroken (number : Nat) {word : Text} (unbroken : Text.Unbroken word) :
    Text.Unbroken (counted number word) := by
  have digits := Numeral.unbroken_decimalNat number
  have plural : Text.Unbroken (if number == 1 then "" else "s" : String).toList := by
    split <;> exact Text.unbroken_of_all rfl
  exact ((digits.append (Text.unbroken_of_all rfl)).append unbroken).append plural

theorem summary_unbroken (report : Report) : Text.Unbroken report.summary := by
  have errors := counted_unbroken (report.fatal.length + report.recoverable.length)
    (Text.unbroken_of_all (show ("error" : Text).all (!Text.isLineBreak ·) = true from rfl))
  have warnings := counted_unbroken report.warnings.length
    (Text.unbroken_of_all (show ("warning" : Text).all (!Text.isLineBreak ·) = true from rfl))
  exact (errors.append (Text.unbroken_of_all rfl)).append warnings

theorem text_eq (report : Report) : report.text =
    report.diagnostics.flatMap (fun diagnostic => diagnostic.text ++ ("\n\n" : Text)) ++
      report.summary := by
  rw [text]
  generalize report.summary = summary
  induction report.diagnostics with
  | nil => simp [Text.lines, Text.join, List.intercalate]
  | cons diagnostic rest ih =>
    rw [List.flatMap_cons, List.append_assoc, List.cons_append, List.singleton_append,
      Text.lines_cons_cons, Text.lines_cons_of_ne_nil _ (by simp), ih]
    simp

theorem Consistent.summary_eq {report : Report} (consistent : report.Consistent) : report.summary =
    counted (report.count .fatal + report.count .error) "error" ++ ", " ++
      counted (report.count .warning) "warning" := by
  rw [summary, consistent.length_fatal, recoverable, warnings, withSeverity, withSeverity,
    ← List.countP_eq_length_filter, ← List.countP_eq_length_filter]
  rfl

theorem getLast?_splitLines_text (report : Report) :
    (Text.splitLines report.text).getLast? = some report.summary := by
  have alone : Text.splitLines report.summary = [report.summary] :=
    Text.splitLines_of_unbroken (by simp [summary]) report.summary_unbroken
  rw [text_eq]
  rcases List.eq_nil_or_concat report.diagnostics with none_held | ⟨front, last, held⟩
  · rw [none_held, List.flatMap_nil, List.nil_append, alone]
    rfl
  · -- the feed in front of the summary ends a line, whatever the diagnostics are
    have feed : report.diagnostics.flatMap (fun diagnostic => diagnostic.text ++ ("\n\n" : Text)) ++
        report.summary = (front.flatMap (fun diagnostic => diagnostic.text ++ ("\n\n" : Text)) ++
          last.text ++ ['\n']) ++ '\n' :: report.summary := by
      simp [held]
    rw [feed, Text.splitLines_append_feed, alone, List.getLast?_append]
    rfl

theorem count_add (report : Report) :
    report.count .fatal + report.count .error + report.count .warning =
      report.diagnostics.length := by
  unfold count
  induction report.diagnostics with
  | nil => rfl
  | cons diagnostic rest ih =>
    rw [List.countP_cons, List.countP_cons, List.countP_cons, List.length_cons, ← ih]
    cases diagnostic.severity <;> simp <;> omega

/-- A report holds the diagnostics recorded since it was last cleared and, in a list of their own, the
fatal problems among them in order; its listener has received all that were ever recorded. Adding a
problem records and delivers it, and asks to stop exactly if it is fatal and brings the fatal ones to
the limit or beyond. The last line of the text counts errors, fatal or not, and warnings, and leaves out
none of the diagnostics above it. -/
theorem consistent_over_history (limit : Int) (operations : List Operation) :
    let report := performAll { limit } operations
    let current := (Operation.sinceClear operations).filterMap Operation.diagnostic?
    let summary := counted (report.count .fatal + report.count .error) "error" ++ ", " ++
      counted (report.count .warning) "warning"
    report.diagnostics = current ∧
    report.fatal = (Operation.sinceClear operations).filterMap Operation.fatal? ∧
    report.fatal = report.diagnostics.filterMap Diagnostic.fatal? ∧
    report.delivered = operations.filterMap Operation.diagnostic? ∧
    (∀ found,
      (report.add found).2 = (if found.severity = .fatal ∧ limit ≤ fatalCount current + 1 then
        some { fault := .tooManyErrors limit } else none) ∧
      (report.add found).1.diagnostics = current ++ [.problem found] ∧
      (report.add found).1.delivered = report.delivered ++ [.problem found]) ∧
    report.text = current.flatMap (fun diagnostic => diagnostic.text ++ "\n\n".toList) ++ summary ∧
    (Text.splitLines report.text).getLast? = some summary ∧
    report.count .fatal + report.count .error + report.count .warning = current.length := by
  intro report current summary
  have follows : Follows limit operations report := follows_performAll limit operations
  have held : report.diagnostics = current := follows.diagnostics
  have consistent := follows.consistent
  refine ⟨held, follows.fatal, consistent, follows.delivered, ?_, ?_, ?_, ?_⟩
  · intro found
    refine ⟨?_, ?_, ?_⟩
    · rw [add_snd, follows.limit, consistent.length_fatal, held]
    · rw [(Grown.add report found).diagnostics, held]
    · exact (Grown.add report found).delivered
  · rw [text_eq, held, consistent.summary_eq]
  · rw [getLast?_splitLines_text, consistent.summary_eq]
  · rw [count_add, held]

/-- A report that stops at the second fatal problem is used on, cleared and used again. A label that
is only warned of counts as a warning. -/
theorem consistent_over_history_cleared :
    let fatal : Problem := { fault := .unknownDirective ".text" }
    let mild : Problem := { fault := .undefinedLabel "AWAY" none [] .warning }
    let report := performAll { limit := 2 }
      [.add fatal, .add fatal, .warn (.described "again") none, .clear, .add mild, .add fatal]
    report.fatal = [fatal] ∧ report.delivered.length = 5 ∧
      (report.add fatal).2 = some { fault := .tooManyErrors 2 } ∧ (report.add mild).2 = none ∧
      (Text.splitLines report.text).getLast? = some ("1 error, 1 warning" : Text) := by
  intro fatal mild report
  obtain ⟨-, problems, -, delivered, added, -, last, -⟩ := consistent_over_history 2
    [.add fatal, .add fatal, .warn (.described "again") none, .clear, .add mild, .add fatal]
  refine ⟨problems, ?_, (added fatal).1, (added mild).1, last.trans (by decide +kernel)⟩
  exact congrArg List.length delivered

end TwoPass.Report
