import TwoPass.Proofs.Completeness
import TwoPass.Proofs.Text.Lines

/-! What a failing run says.

A run that fails over its source ends with one of two problems. As long as the limit of fatal problems
has not been reached, the problem quotes the report, and with it every diagnostic. Once it has been
reached, the problem names the limit and quotes nothing. -/

set_option autoImplicit false

namespace TwoPass

theorem Problem.text_of_placeless {fault : Fault} (fatal : fault.severity = .fatal)
    (unhinted : fault.hint = none) :
    ({ fault := fault } : Problem).text = "error: " ++ fault.message := by
  have word : fault.severity.word = "error" := by rw [fatal]; rfl
  simp [text, headline, context, hintLines, severity, unhinted, word, Text.lines, Text.join,
    List.intercalate]

theorem Problem.text_tooManyErrors (limit : Nat) :
    ({ fault := .tooManyErrors limit } : Problem).text =
      "error: Too many errors (" ++ Numeral.decimalNat limit ++ "), stopping" := by
  have told := @Problem.text_of_placeless (.tooManyErrors limit) rfl rfl
  have message : (Fault.tooManyErrors limit).message =
      "Too many errors (" ++ Numeral.decimal limit ++ "), stopping" := rfl
  rw [told, message, Numeral.decimal_natCast]
  simp

namespace Report

variable {report : Report}

theorem text_failure (report : Report) : report.failure.text =
    "error: Assembly failed with " ++ Numeral.decimalNat report.fatal.length ++ " errors:\n\n" ++
      report.text := by
  have told : report.failure.text = "error: " ++ report.failure.fault.message :=
    Problem.text_of_placeless rfl rfl
  have message : report.failure.fault.message = "Assembly failed with " ++
      Numeral.decimalNat report.fatal.length ++ " errors:\n\n" ++ report.text := rfl
  rw [told, message]
  simp

theorem infix_text_failure {diagnostic : Diagnostic} (member : diagnostic ∈ report.diagnostics) :
    diagnostic.text <:+: report.failure.text := by
  have quoted : diagnostic.text <:+: report.text := by
    apply Text.infix_lines
    apply List.mem_append_left
    exact List.mem_flatMap.mpr ⟨diagnostic, member, List.mem_cons_self⟩
  rw [text_failure]
  exact quoted.trans (List.suffix_append _ _).isInfix

theorem eq_of_add {found stop : Problem} (stopped : (report.add found).2 = some stop) :
    stop = { fault := .tooManyErrors report.limit } := by
  rw [add_snd] at stopped
  split at stopped
  · cases stopped
    rfl
  · cases stopped

end Report

namespace FirstPass

variable {pass after : FirstPass} {stop : Problem}

theorem eq_of_reject {found : Problem} (stopped : pass.reject found = (after, some stop)) :
    stop = { fault := .tooManyErrors pass.journal.report.limit } :=
  Report.eq_of_add (congrArg Prod.snd stopped)

theorem eq_of_observe {placement : Placement} (stopped : pass.observe placement = (after, some stop)) :
    stop = { fault := .tooManyErrors pass.journal.report.limit } := by
  unfold observe at stopped
  split at stopped
  · exact eq_of_reject stopped
  · cases stopped
  · split at stopped
    · unfold defineLabel at stopped
      dsimp only at stopped
      split at stopped
      · next found symbols _ => exact @eq_of_reject { pass with symbols } _ _ _ stopped
      · cases stopped
    · cases stopped
  · cases stopped
  · cases stopped

theorem eq_of_observeAll {placements : List Placement}
    (stopped : pass.observeAll placements = (after, some stop)) :
    stop = { fault := .tooManyErrors pass.journal.report.limit } := by
  induction placements generalizing pass with
  | nil => cases stopped
  | cons placement rest ih =>
    unfold observeAll at stopped
    split at stopped
    · next middle reason observed =>
      cases stopped
      exact eq_of_observe observed
    · next middle observed =>
      have kept := pass.limit_observe placement
      rw [observed] at kept
      rw [← kept]
      exact ih stopped

end FirstPass

namespace SecondPass

variable {settings : Settings} {table : SymbolTable} {pass after : SecondPass} {stop : Problem}

theorem eq_of_reject {found : Problem} (stopped : pass.reject found = (after, some (.problem stop))) :
    stop = { fault := .tooManyErrors pass.journal.report.limit } := by
  obtain ⟨reason, reached, same⟩ := Option.map_eq_some_iff.mp (congrArg Prod.snd stopped)
  cases same
  exact Report.eq_of_add reached

theorem eq_of_observe {placement : Placement}
    (stopped : observe settings table pass placement = (after, some (.problem stop))) :
    stop = { fault := .tooManyErrors pass.journal.report.limit } := by
  unfold observe at stopped
  split at stopped
  · next emission emits =>
    cases emission with
    | verbatim source reason =>
      have rejected : (pass.reject reason).2 = some (.problem stop) := congrArg Prod.snd stopped
      exact eq_of_reject (Prod.ext rfl rejected)
    | directive target =>
      rw [write] at stopped
      split at stopped <;> cases stopped
    | _ => cases stopped
  · exact eq_of_reject stopped
  · next other emits =>
    -- a problem would have been recorded, so it is not what stops the pass here
    cases stopped
    exact absurd rfl (other stop)

theorem eq_of_observeAll {placements : List Placement}
    (stopped : observeAll settings table pass placements = (after, some (.problem stop))) :
    stop = { fault := .tooManyErrors pass.journal.report.limit } := by
  induction placements generalizing pass with
  | nil => cases stopped
  | cons placement rest ih =>
    unfold observeAll at stopped
    split at stopped
    · next middle reason observed =>
      cases stopped
      exact eq_of_observe observed
    · next middle observed =>
      have kept := limit_observe settings table pass placement
      rw [observed] at kept
      rw [← kept]
      exact ih stopped

end SecondPass

namespace Run

variable {settings : Settings} {file : Text} {lines : List Text} {found : Problem}

inductive Fails (settings : Settings) (report : Report) : Problem → Prop
  | stopped (reached : report.fatal.length = settings.maxErrors)
    (last : report.diagnostics.getLast?.map Diagnostic.severity = some .fatal) :
    Fails settings report { fault := .tooManyErrors settings.maxErrors }
  | reported (below : report.fatal.length < settings.maxErrors) :
    Fails settings report report.failure

section
variable {α : Type} {all : List Diagnostic} {report : Report}

theorem Fails.of_stopped {reason : α}
    (recorded : Report.Recorded (initial settings).report settings.maxErrors all report
      (some reason)) : Fails settings report { fault := .tooManyErrors settings.maxErrors } := by
  have reached := recorded.room_le
  refine .stopped ?_ ?_
  · rw [length_fatal recorded, fatalCount_upToFatal, Nat.min_eq_left reached]
  · have held : report.diagnostics = upToFatal settings.maxErrors all := recorded.diagnostics
    rw [held]
    exact getLast?_upToFatal settings.maxErrors_pos reached

theorem Fails.of_ended
    (recorded : Report.Recorded (initial settings).report settings.maxErrors all report
      (none : Option α)) : Fails settings report report.failure := by
  have few := recorded.goesOn.mp rfl
  refine .reported ?_
  rwa [length_fatal recorded, upToFatal_of_lt few]

end

theorem fails_of_outcome
    (failed : (Run.ofLines settings file lines).outcome = .error (.problem found)) :
    Fails settings (Run.ofLines settings file lines).report found := by
  have went := course settings file lines
  generalize Run.ofLines settings file lines = run at went failed
  cases went with
  | stopped collected =>
    cases failed
    rw [FirstPass.eq_of_observeAll collected]
    exact .of_stopped (FirstPass.start_recorded collected)
  | interrupted collected unplaced =>
    obtain ⟨-, -, -, -, fault, -, -, rfl⟩ := Layout.inconvertible_of_layFrom unplaced
    cases failed
  | rejected collected =>
    cases failed
    exact .of_ended (FirstPass.start_recorded collected)
  | @halted placements finish first second failure collects emitted =>
    cases failed
    have kept := FirstPass.limit_observeAll (FirstPass.start settings file) placements
    rw [collects.ended] at kept
    have limit : (first.handOver file finish).journal.report.limit = settings.maxErrors := kept
    rw [SecondPass.eq_of_observeAll emitted, limit]
    exact .of_stopped (collects.recorded emitted)
  | failed collects emitted =>
    cases failed
    exact .of_ended (collects.recorded emitted)
  | returned => cases failed

/-- What a run says that fails over its source. With fewer fatal problems than the limit it quotes the
report, and so every diagnostic that was recorded, fatal or not. Otherwise exactly as many were
recorded as the limit allows, the last of them with the last diagnostic, and the limit is all that it
names. -/
theorem failure_quotes_report (settings : Settings) (file : Text) (lines : List Text)
    (found : Problem)
    (failed : (Run.ofLines settings file lines).outcome = .error (.problem found)) :
    let report := (Run.ofLines settings file lines).report
    (report.fatal.length < settings.maxErrors →
        found.text = "error: Assembly failed with " ++ Numeral.decimalNat report.fatal.length ++
          " errors:\n\n" ++ report.text ∧
        ∀ diagnostic ∈ report.diagnostics, diagnostic.text <:+: found.text) ∧
      (settings.maxErrors ≤ report.fatal.length →
        report.fatal.length = settings.maxErrors ∧
        report.diagnostics.getLast?.map Diagnostic.severity = some .fatal ∧
        found.text = "error: Too many errors (" ++ Numeral.decimalNat settings.maxErrors ++
          "), stopping") := by
  intro report
  cases fails_of_outcome failed with
  | stopped reached last =>
    refine ⟨fun below => ?_, fun _ => ⟨reached, last, ?_⟩⟩
    · have same : report.fatal.length = settings.maxErrors := reached
      omega
    · exact Problem.text_tooManyErrors settings.maxErrors
  | reported below =>
    refine ⟨fun _ => ⟨report.text_failure, fun diagnostic => report.infix_text_failure⟩, ?_⟩
    intro reached
    have fewer : report.fatal.length < settings.maxErrors := below
    omega

/-- A warning, an error and a fatal problem are all quoted, unless the fatal one reaches the limit. -/
theorem failure_quotes_report_mixed :
    let lines : List Text := ["halt", ".code", "\tpush 5", "\tadd r1"]
    let patient := Run.ofLines { maxErrors := 2 } "demo" lines
    let hasty := Run.ofLines { maxErrors := 1 } "demo" lines
    patient.report.diagnostics.map Diagnostic.severity = [.warning, .error, .fatal] ∧
      (∃ found, patient.outcome = .error (.problem found) ∧
        ∀ diagnostic ∈ patient.report.diagnostics, diagnostic.text <:+: found.text) ∧
      ∃ found, hasty.outcome = .error (.problem found) ∧
        found.text = "error: Too many errors (" ++ Numeral.decimalNat 1 ++ "), stopping" := by
  intro lines patient hasty
  have failed : patient.outcome = .error (.problem patient.report.failure) := rfl
  have stopped : hasty.outcome = .error (.problem { fault := .tooManyErrors 1 }) := rfl
  have few : patient.report.fatal.length < 2 := by decide +kernel
  have many : 1 ≤ hasty.report.fatal.length := by decide +kernel
  refine ⟨by decide +kernel, ⟨_, failed, ?_⟩, ⟨_, stopped, ?_⟩⟩
  · exact ((failure_quotes_report _ _ lines _ failed).1 few).2
  · exact ((failure_quotes_report _ _ lines _ stopped).2 many).2.2

/-- A limit of one keeps the only diagnostic from being quoted. -/
theorem diagnostics_unquoted : ¬∀ (settings : Settings) (file : Text) (lines : List Text)
    (found : Problem), (Run.ofLines settings file lines).outcome = .error (.problem found) →
      ∀ diagnostic ∈ (Run.ofLines settings file lines).report.diagnostics,
        diagnostic.text <:+: found.text := by
  intro quoted
  have all := quoted { maxErrors := 1 } "demo" [".code", "\tadd r1"] _ rfl
  have omitted : ¬∀ diagnostic ∈ (Run.ofLines { maxErrors := 1 } "demo"
        [".code", "\tadd r1"]).report.diagnostics,
      diagnostic.text <:+: ({ fault := .tooManyErrors 1 } : Problem).text := by
    decide +kernel
  exact omitted all

end Run

end TwoPass
