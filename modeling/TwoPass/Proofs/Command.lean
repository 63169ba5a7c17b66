import TwoPass.Command
import TwoPass.Proofs.FailureText
import TwoPass.Proofs.FileTree
import TwoPass.Proofs.ListingText
import TwoPass.Proofs.SourceFile

/-! What the command does to files.

A command that is accepted assembles its input and, if the run returns, writes the files that it was
asked for, one after the other. Nothing is written before the run has returned, so that a run that
fails leaves every file as it was. -/

set_option autoImplicit false

namespace TwoPass.Command

variable {request : Request} {tree : FileTree} {run : Run} {work : Work}

/-! ### Requests -/

/-- What is asked for, if the words are accepted and are no question for help or the version. -/
def request? (words : List Text) (tree : FileTree) : Option Request :=
  match Arguments.read words with
  | .error _ => none
  | .ok arguments =>
    if arguments.options.any fun (option, _) => option = .version || option = .help then none
    else (Request.ofArguments tree arguments).toOption

theorem ofArguments_of_request {words : List Text} {arguments : Arguments}
    (accepted : request? words tree = some request) (read : Arguments.read words = .ok arguments) :
    Request.ofArguments tree arguments = .ok request := by
  simp only [request?, read] at accepted
  split at accepted
  · cases accepted
  · cases made : Request.ofArguments tree arguments with
    | error fault => simp [made, Except.toOption] at accepted
    | ok own =>
      simp only [made, Except.toOption, Option.some.injEq] at accepted
      rw [accepted]

theorem run_of_request {words : List Text} (accepted : request? words tree = some request) :
    Command.run words tree = request.carryOut tree := by
  unfold Command.run
  cases read : Arguments.read words with
  | error fault => simp [request?, read] at accepted
  | ok arguments =>
    have made := ofArguments_of_request accepted read
    simp only [request?, read] at accepted
    split at accepted
    · cases accepted
    · next unasked =>
      have none : (arguments.options.find? fun (option, _) =>
          option = .version || option = .help) = none := by
        simpa using unasked
      simp only [none, made]

namespace Request

def targets (request : Request) : List Path :=
  request.output :: (request.listing.toList ++ request.symbols.toList)

def files (request : Request) (run : Run) : List (Path × Text) :=
  (request.output, run.outputText) ::
    (request.listing.toList.map (·, run.listingText ++ "\n") ++
      request.symbols.toList.map (·, run.symbols.fileText))

def assembly (request : Request) (source : Text) : Run :=
  Run.ofLines request.settings request.input.text (Text.splitLines source)

theorem map_fst_files (request : Request) (run : Run) :
    (request.files run).map Prod.fst = request.targets := by
  simp [files, targets, Function.comp_def]

theorem mem_targets {file : Path × Text} (member : file ∈ request.files run) :
    file.1 ∈ request.targets := by
  rw [← request.map_fst_files run]
  exact List.mem_map_of_mem member

end Request

/-! ### The command at work -/

namespace Work

structure Holds (run : Run) (tree : FileTree) (work : Work) : Prop where
  run : work.session.run = run
  tree : work.tree = tree

section
variable (request) (work)

@[simp] theorem session_tell (line : Text) : (work.tell request line).session = work.session := by
  unfold tell
  split <;> rfl

@[simp] theorem tree_tell (line : Text) : (work.tell request line).tree = work.tree := by
  unfold tell
  split <;> rfl

@[simp] theorem stderr_tell (line : Text) : (work.tell request line).stderr = work.stderr := by
  unfold tell
  split <;> rfl

@[simp] theorem session_begin (tree : FileTree) :
    (begin request tree).session = Session.start request.settings := by
  unfold begin
  dsimp only
  split <;> simp

@[simp] theorem tree_begin (tree : FileTree) : (begin request tree).tree = tree := by
  unfold begin
  dsimp only
  split <;> simp

end

theorem assemble_of_fault {fault : FileFault} (unread : tree.readText request.input = .error fault) :
    ∃ outcome, (begin request tree).assemble request = .error outcome ∧
      outcome.exit = (Mishap.ofFileFault fault).exitCode ∧ outcome.tree = tree := by
  unfold assemble
  simp only [tree_begin, Session.assembleFile, unread]
  refine ⟨_, rfl, rfl, ?_⟩
  simp [fail, follow]

/-- Work on a source fails as the run over it does, and otherwise goes on with that run. -/
theorem assemble_of_source {source : Text} (holds : tree.read request.input = .ok (Utf8.encode source)) :
    match (request.assembly source).outcome with
    | .error failure => ∃ outcome, (begin request tree).assemble request = .error outcome ∧
        outcome.exit = (Mishap.ofFailure failure).exitCode ∧ outcome.tree = tree
    | .ok () => ∃ work, (begin request tree).assemble request = .ok work ∧
        work.Holds (request.assembly source) tree := by
  have assembled := (Session.start request.settings).assembleFile_eq holds
  -- only the run of the session that assembled matters from here on
  generalize after : ((Session.start request.settings).note
    (.assembling request.input.text)).assembleText request.input.text source = session at assembled
  have run : session.run = request.assembly source := by
    rw [← after, Session.run_assembleText]
    rfl
  unfold assemble
  simp only [session_begin, tree_begin, assembled, Run.result, run]
  cases returned : (request.assembly source).outcome with
  | error failure =>
    refine ⟨_, rfl, rfl, ?_⟩
    simp [fail, follow]
  | ok value =>
    -- a run that has returned has met no fatal problem, so that nothing is refused for one
    have clean : (request.assembly source).report.hasFatal = false := Run.hasFatal_of_outcome returned
    simp only [clean]
    refine ⟨_, rfl, run, ?_⟩
    simp [follow]

inductive Ends (run : Run) : FileTree × Option FileFault → Except Outcome Work → Prop where
  | onward {after : FileTree} {next : Work} : next.Holds run after → Ends run (after, none) (.ok next)
  | ended {after : FileTree} {fault : FileFault} {outcome : Outcome} : outcome.tree = after →
      Ends run (after, some fault) (.error outcome)

def Writes (run : Run) (files : List (Path × Text)) (step : Work → Except Outcome Work) : Prop :=
  ∀ (work : Work) (tree : FileTree), work.Holds run tree → Ends run (tree.writeAll files) (step work)

theorem Writes.append {files others : List (Path × Text)} {step next : Work → Except Outcome Work}
    (first : Writes run files step) (second : Writes run others next) :
    Writes run (files ++ others) fun work => step work >>= next := by
  intro work tree holds
  have ends := first work tree holds
  rw [FileTree.writeAll_append]
  dsimp only
  generalize tree.writeAll files = written, step work = result at ends
  cases ends with
  | onward holds => exact second _ _ holds
  | ended kept => exact .ended kept

theorem writes_wrote (request : Request) (path : Path) (text line : Text) (event : Progress)
    (holds : work.Holds run tree) :
    Ends run (tree.writeAll [(path, text)]) (work.wrote request line
      (do
        let tree ← work.tree.writeText path.text text
        pure (work.session.note event, tree))) := by
  rw [FileTree.writeAll, ← holds.tree]
  cases work.tree.writeText path.text text with
  | error fault => exact .ended rfl
  | ok after => exact .onward ⟨by simpa [follow, Session.note] using holds.run, by simp [follow]⟩

theorem writes_writeOutput (request : Request) (run : Run) :
    Writes run [(request.output, run.outputText)] (writeOutput request) := by
  intro work tree holds
  rw [← holds.run]
  exact writes_wrote request _ _ _ _ ⟨rfl, holds.tree⟩

theorem writes_writeListing (request : Request) (run : Run) :
    Writes run (request.listing.toList.map (·, run.listingText ++ "\n")) (writeListing request) := by
  intro work tree holds
  unfold writeListing
  cases request.listing with
  | none => exact .onward holds
  | some path =>
    rw [← holds.run]
    exact writes_wrote request _ _ _ _ ⟨rfl, holds.tree⟩

theorem writes_writeSymbols (request : Request) (run : Run) :
    Writes run (request.symbols.toList.map (·, run.symbols.fileText)) (writeSymbols request) := by
  intro work tree holds
  unfold writeSymbols
  cases request.symbols with
  | none => exact .onward holds
  | some path =>
    rw [← holds.run]
    exact writes_wrote request _ _ _ _ ⟨rfl, holds.tree⟩

theorem finish_of_holds (request : Request) (holds : work.Holds run tree) :
    (work.finish request).exit = 0 ∧ (work.finish request).tree = tree ∧
      (run.report.diagnostics ≠ [] → printed run.report.text <:+ (work.finish request).stderr) := by
  refine ⟨rfl, ?_, ?_⟩
  · simp [finish, holds.tree]
  · intro told
    simp [finish, holds.run, told]

end Work

namespace Request

theorem carryOut_of_error {outcome : Outcome}
    (failed : (Work.begin request tree).assemble request = .error outcome) :
    request.carryOut tree = outcome := by
  simp only [carryOut, failed]
  rfl

theorem carryOut_of_ok (assembled : (Work.begin request tree).assemble request = .ok work)
    (holds : work.Holds run tree) :
    (request.carryOut tree).tree = (tree.writeAll (request.files run)).1 ∧
      ((tree.writeAll (request.files run)).2 = none → (request.carryOut tree).exit = 0 ∧
        (run.report.diagnostics ≠ [] → printed run.report.text <:+ (request.carryOut tree).stderr)) := by
  -- the steps behind the assembly, as one step that writes all files
  let writing := fun work : Work => do
    let work ← work.writeOutput request
    let work ← work.writeListing request
    work.writeSymbols request
  have writes : Work.Writes run (request.files run) writing :=
    (Work.writes_writeOutput request run).append
      ((Work.writes_writeListing request run).append (Work.writes_writeSymbols request run))
  have ends := writes work tree holds
  rw [carryOut, assembled]
  generalize result : (Except.ok work >>= _ : Except Outcome Work) = last
  generalize tree.writeAll (request.files run) = written at ends ⊢
  rw [show writing work = last from result] at ends
  cases ends with
  | onward holds =>
    obtain ⟨exit, kept, told⟩ := Work.finish_of_holds request holds
    exact ⟨kept, fun _ => ⟨exit, told⟩⟩
  | ended kept => exact ⟨kept, fun written => by cases written⟩

theorem carryOut_of_foreign {bytes : List UInt8} (readable : tree.read request.input = .ok bytes)
    (foreign : ∀ source, bytes ≠ Utf8.encode source) :
    (request.carryOut tree).exit = 3 ∧ (request.carryOut tree).tree = tree := by
  obtain ⟨fault, unread⟩ := FileTree.readText_of_foreign readable foreign
  obtain ⟨last, stopped, exit, kept⟩ := Work.assemble_of_fault unread
  rw [carryOut_of_error stopped]
  exact ⟨exit, kept⟩

theorem carryOut_of_failure {source : Text} {failure : Failure}
    (held : tree.read request.input = .ok (Utf8.encode source))
    (failed : (request.assembly source).outcome = .error failure) :
    (request.carryOut tree).exit = (Mishap.ofFailure failure).exitCode ∧
      (request.carryOut tree).tree = tree := by
  have went := Work.assemble_of_source held
  rw [failed] at went
  obtain ⟨last, stopped, exit, kept⟩ := went
  rw [carryOut_of_error stopped]
  exact ⟨exit, kept⟩

end Request

/-! ### Effects -/

/-- What a command that succeeds has done: every file that was asked for is there, and no other place
has changed. What the run has found without failing is told. -/
structure Delivered (request : Request) (assembly : Run) (tree : FileTree) (outcome : Outcome) : Prop where
  exit : outcome.exit = 0
  output : outcome.tree.read request.output =
    .ok (Utf8.encode (assembly.outputLines.flatMap (· ++ ['\n'])))
  listing : ∀ path, request.listing = some path →
    outcome.tree.read path = .ok (Utf8.encode (assembly.listingText ++ "\n"))
  lists : Lists assembly.listing assembly.symbols (assembly.listingText ++ "\n")
  symbols : ∀ path, request.symbols = some path →
    outcome.tree.read path = .ok (Utf8.encode assembly.symbols.fileText)
  elsewhere : ∀ place, (∀ path ∈ request.targets, tree.target path.text ≠ .ok place) →
    outcome.tree.bytes? place = tree.bytes? place
  directories : FileTree.SameDirectories tree outcome.tree
  report : assembly.report.diagnostics ≠ [] → printed assembly.report.text <:+ outcome.stderr
  diagnostics : ∀ diagnostic ∈ assembly.report.diagnostics,
    Text.withoutSequences diagnostic.text <:+: outcome.stderr

theorem infix_printed_report {report : Report} {diagnostic : Diagnostic}
    (member : diagnostic ∈ report.diagnostics) :
    Text.withoutSequences diagnostic.text <:+: printed report.text := by
  have quoted : Text.withoutSequences diagnostic.text <:+: Text.withoutSequences report.text := by
    rw [Report.text, Text.withoutSequences_lines]
    apply Text.infix_lines
    apply List.mem_map_of_mem
    apply List.mem_append_left
    exact List.mem_flatMap.mpr ⟨diagnostic, member, List.mem_cons_self⟩
  exact quoted.trans (List.prefix_append _ _).isInfix

theorem Request.delivered_of_outcome {source : Text}
    (held : tree.read request.input = .ok (Utf8.encode source))
    (writable : ∀ path ∈ request.targets, ∃ place, tree.target path.text = .ok place)
    (distinct : request.targets.Pairwise fun path other => tree.target path.text ≠ tree.target other.text)
    (returned : (request.assembly source).outcome = .ok ()) :
    Delivered request (request.assembly source) tree (request.carryOut tree) := by
  generalize assembly : request.assembly source = run
  have went := Work.assemble_of_source held
  rw [returned, assembly] at went
  obtain ⟨work, assembled, holds⟩ := went
  obtain ⟨after, told⟩ := Request.carryOut_of_ok assembled holds
  have each : ∀ file ∈ request.files run, ∃ place, tree.target file.1.text = .ok place :=
    fun file member => writable file.1 (Request.mem_targets member)
  have apart : (request.files run).Pairwise fun file other =>
      tree.target file.1.text ≠ tree.target other.1.text := by
    rw [← request.map_fst_files run, List.pairwise_map] at distinct
    exact distinct
  obtain ⟨exit, report⟩ := told (FileTree.writeAll_of_writable each)
  have holds {path : Path} {text : Text} (member : (path, text) ∈ request.files run) :
      (request.carryOut tree).tree.read path = .ok (Utf8.encode text) := by
    rw [after]
    exact FileTree.read_writeAll each apart member
  refine ⟨exit, ?_, ?_, ?_, ?_, ?_, ?_, report, ?_⟩
  · exact holds (by simp [Request.files, Run.outputText])
  · intro path asked
    exact holds (by simp [Request.files, asked])
  · rw [← assembly]
    exact Run.lists_of_outcome returned
  · intro path asked
    exact holds (by simp [Request.files, asked])
  · intro place untouched
    rw [after]
    exact FileTree.bytes?_writeAll fun file member => untouched file.1 (Request.mem_targets member)
  · rw [after]
    exact FileTree.sameDirectories_writeAll tree _
  · intro diagnostic member
    exact (infix_printed_report member).trans (report (List.ne_nil_of_mem member)).isInfix

theorem Request.carryOut_matches (request : Request) (tree : FileTree) (bytes : List UInt8)
    (readable : tree.read request.input = .ok bytes)
    (writable : ∀ path ∈ request.targets, ∃ place, tree.target path.text = .ok place)
    (distinct : request.targets.Pairwise fun path other =>
      tree.target path.text ≠ tree.target other.text) :
    let outcome := request.carryOut tree
    ((∀ source, bytes ≠ Utf8.encode source) → outcome.exit = 3 ∧ outcome.tree = tree) ∧
      ∀ source, bytes = Utf8.encode source →
        let assembly := request.assembly source
        (∃ fault, assembly.outcome = .error (.numeral fault) ∧ outcome.exit = 3 ∧ outcome.tree = tree) ∨
          (∃ found, assembly.outcome = .error (.problem found) ∧ outcome.exit = 1 ∧
            outcome.tree = tree) ∨
          (assembly.outcome = .ok () ∧ Delivered request assembly tree outcome) := by
  intro outcome
  refine ⟨carryOut_of_foreign readable, ?_⟩
  rintro source rfl assembly
  cases ended : assembly.outcome with
  | ok value => exact .inr (.inr ⟨rfl, delivered_of_outcome readable writable distinct ended⟩)
  | error failure =>
    obtain ⟨exit, kept⟩ := carryOut_of_failure readable ended
    rcases Run.inconvertible_of_outcome ended with ⟨found, rfl⟩ | ⟨-, -, -, -, fault, -, -, rfl⟩
    · exact .inr (.inl ⟨found, rfl, exit, kept⟩)
    · exact .inl ⟨fault, rfl, exit, kept⟩

/-- The exit code and the files after a command match the run over its input. Where the input is no
text or has a numeral that cannot be converted, the code is 3. Where the run ends with a problem, it
is 1. In these cases no file has changed. In all others the command delivers. -/
theorem effects_match_outcome (words : List Text) (tree : FileTree) (request : Request)
    (bytes : List UInt8) (accepted : request? words tree = some request)
    (readable : tree.read request.input = .ok bytes)
    (writable : ∀ path ∈ request.targets, ∃ place, tree.target path.text = .ok place)
    (distinct : request.targets.Pairwise fun path other =>
      tree.target path.text ≠ tree.target other.text) :
    let outcome := Command.run words tree
    ((∀ source, bytes ≠ Utf8.encode source) → outcome.exit = 3 ∧ outcome.tree = tree) ∧
      ∀ source, bytes = Utf8.encode source →
        let assembly := request.assembly source
        (∃ fault, assembly.outcome = .error (.numeral fault) ∧ outcome.exit = 3 ∧ outcome.tree = tree) ∨
          (∃ found, assembly.outcome = .error (.problem found) ∧ outcome.exit = 1 ∧
            outcome.tree = tree) ∨
          (assembly.outcome = .ok () ∧ Delivered request assembly tree outcome) := by
  rw [run_of_request accepted]
  exact request.carryOut_matches tree bytes readable writable distinct

/-- A line that is ignored and a label that is not bound are told, and an old listing is replaced. -/
theorem effects_match_outcome_allowed :
    let words : List Text := ["src/demo.s", "-l", "demo.lst", "--symbols=./demo.sym", "--allow-undefined"]
    let source : Text := "clr r1\n.code\n:B\n:A\npush r1\nbrr :C\n"
    let tree : FileTree :=
      { files := [(["src", "demo.s"], Utf8.encode source), (["demo.lst"], [255]), (["notes"], [42])] }
    let request : Request :=
      { input := Path.ofText "src/demo.s", output := Path.ofText "src/demo.tk"
        listing := some (Path.ofText "demo.lst"), symbols := some (Path.ofText "demo.sym")
        settings := { allowUndefined := true }, verbose := false }
    let assembly := request.assembly source
    let entries : List Text := ["00001000     5  push r1", "                    subi r31, 8",
      "                    mov (r31)(0), r1", "00001008     6  brr :C"]
    let labels : List Text := ["A                    = 0x00001000", "B                    = 0x00001000"]
    request? words tree = some request ∧ tree.read request.input = .ok (Utf8.encode source) ∧
      assembly.outcome = .ok () ∧
      assembly.outputLines = ([".code", "\tsubi r31, 8", "\tmov (r31)(0), r1", "\tbrr :C"] : List Text) ∧
      assembly.listingText = Text.lines (listingHeader ++ entries ++ labelHeader ++ labels) ∧
      assembly.report.diagnostics.length = 2 ∧
      Delivered request assembly tree (Command.run words tree) := by
  intro words source tree request assembly entries labels
  have accepted : request? words tree = some request := by rfl
  have readable : tree.read request.input = .ok (Utf8.encode source) := by rfl
  have writable : ∀ path ∈ request.targets, ∃ place, tree.target path.text = .ok place := by
    intro path member
    have listed : path = Path.ofText "src/demo.tk" ∨ path = Path.ofText "demo.lst" ∨
        path = Path.ofText "demo.sym" := by
      simpa [Request.targets, request] using member
    rcases listed with rfl | rfl | rfl
    · exact ⟨["src", "demo.tk"], by rfl⟩
    · exact ⟨["demo.lst"], by rfl⟩
    · exact ⟨["demo.sym"], by rfl⟩
  have distinct : request.targets.Pairwise fun path other =>
      tree.target path.text ≠ tree.target other.text := by decide +kernel
  have returned : assembly.outcome = .ok () := by decide +kernel
  have listed : assembly.listingText =
      Text.lines (listingHeader ++ entries ++ labelHeader ++ labels) := by
    let first : Symbol := ⟨"B", 4096, some ⟨"src/demo.s", 3, 1⟩⟩
    let second : Symbol := ⟨"A", 4096, some ⟨"src/demo.s", 4, 1⟩⟩
    have table : assembly.symbols.symbols = [first, second] := by decide +kernel
    have later : first.name.le second.name = false := by decide
    have sorted : assembly.symbols.byName = [second, first] := by
      rw [SymbolTable.byName, table]
      simp [List.mergeSort, List.MergeSort.Internal.splitInTwo, later]
    rw [Run.listingText, listingText, sorted]
    decide +kernel
  have effects := (effects_match_outcome words tree request _ accepted readable writable distinct).2 source rfl
  rcases effects with ⟨fault, failed, -⟩ | ⟨found, failed, -⟩ | ⟨-, delivered⟩
  · cases returned.symm.trans failed
  · cases returned.symm.trans failed
  · exact ⟨accepted, readable, returned, by decide +kernel, listed, by decide +kernel, delivered⟩

end TwoPass.Command
