import TwoPass.Session

/-! Runs of one session, one after another.

A run begins with what clearing leaves of the run before. That is what a new session begins with,
whichever way the run before has ended, since no run changes the limit that clearing keeps. So the
answer to a call does not depend on the calls before it. -/

set_option autoImplicit false

namespace TwoPass

namespace Run

theorem cleared_eq_initial {settings : Settings} {earlier : Run}
    (limited : earlier.journal.report.limit = settings.maxErrors) :
    earlier.cleared settings = initial settings := by
  simp only [cleared, initial, SymbolTable.clear, Report.clear, limited]

theorem next_eq_ofLines {settings : Settings} {earlier : Run}
    (limited : earlier.journal.report.limit = settings.maxErrors) (file : Text)
    (lines : List Text) : next settings earlier file lines = ofLines settings file lines := by
  rw [ofLines, next, next, cleared_eq_initial limited, cleared_eq_initial rfl]

def told (settings : Settings) (file : Text) (run : Run) : List Progress :=
  run.journal.events ++
    match run.outcome with
    | .error _ => []
    | .ok _ => [.assembled file (run.codeSize settings) run.symbols.size run.output.length]

end Run

namespace Session

theorem run_assembleLines (session : Session) (file : Text) (lines : List Text) :
    (session.assembleLines file lines).run = Run.ofLines session.settings file lines := by
  rw [← Run.next_eq_ofLines session.limited]
  unfold assembleLines
  dsimp only
  split <;> rfl

theorem settings_assembleLines (session : Session) (file : Text) (lines : List Text) :
    (session.assembleLines file lines).settings = session.settings := by
  unfold assembleLines
  dsimp only
  split <;> rfl

theorem events_assembleLines (session : Session) (file : Text) (lines : List Text) :
    (session.assembleLines file lines).events =
      session.events ++ (Run.ofLines session.settings file lines).told session.settings file := by
  rw [← Run.next_eq_ofLines session.limited, Run.told, ← List.append_assoc]
  unfold assembleLines
  cases outcome : (Run.next session.settings session.run file lines).outcome with
  | error failure => simp only [outcome, List.append_nil]
  | ok value =>
    simp only [outcome]
    rfl

theorem run_assembleText (session : Session) (file source : Text) :
    (session.assembleText file source).run =
      Run.ofLines session.settings file (Text.splitLines source) :=
  session.run_assembleLines file (Text.splitLines source)

theorem settings_assembleText (session : Session) (file source : Text) :
    (session.assembleText file source).settings = session.settings :=
  session.settings_assembleLines file (Text.splitLines source)

inductive Call where
  | lines (name : Text) (listed : List Text)
  | text (name source : Text)
  | file (tree : FileTree) (path : Path)

def Call.program : Call → Except FileFault (Text × List Text)
  | .lines name listed => .ok (name, listed)
  | .text name source => .ok (name, Text.splitLines source)
  | .file tree path => (tree.readText path).map fun source => (path.text, Text.splitLines source)

def serve (session : Session) : Call → Session × Except Trouble (List Text)
  | .lines file lines =>
    let after := session.assembleLines file lines
    (after, after.run.result.mapError .assembly)
  | .text file source =>
    let after := session.assembleText file source
    (after, after.run.result.mapError .assembly)
  | .file tree path => session.assembleFile tree path

def serveAll (session : Session) : List Call → Session
  | [] => session
  | call :: rest => (session.serve call).1.serveAll rest

theorem serve_of_program (session : Session) {call : Call} {file : Text} {lines : List Text}
    (program : call.program = .ok (file, lines)) :
    (session.serve call).1.run = Run.ofLines session.settings file lines ∧
      (session.serve call).2 =
        (Run.ofLines session.settings file lines).result.mapError .assembly := by
  cases call with
  | lines =>
    cases program
    simp only [serve, run_assembleLines, and_self]
  | text =>
    cases program
    simp only [serve, run_assembleText, and_self]
  | file tree path =>
    rw [Call.program] at program
    cases contents : tree.readText path with
    | error fault =>
      rw [contents] at program
      cases program
    | ok source =>
      rw [contents] at program
      cases program
      simp only [serve, assembleFile, contents, run_assembleText]
      exact ⟨rfl, rfl⟩

theorem serve_of_fault (session : Session) {call : Call} {fault : FileFault}
    (unread : call.program = .error fault) :
    (session.serve call).1.run = session.run ∧ (session.serve call).2 = .error (.file fault) := by
  cases call with
  | lines | text => cases unread
  | file tree path =>
    rw [Call.program] at unread
    cases contents : tree.readText path with
    | ok source =>
      rw [contents] at unread
      cases unread
    | error reason =>
      rw [contents] at unread
      cases unread
      simp only [serve, assembleFile, contents]
      exact ⟨rfl, trivial⟩

theorem settings_serve (session : Session) (call : Call) :
    (session.serve call).1.settings = session.settings := by
  cases call with
  | lines file lines => exact session.settings_assembleLines file lines
  | text file source => exact session.settings_assembleText file source
  | file tree path =>
    rw [serve, assembleFile]
    dsimp only
    split
    · rfl
    · exact settings_assembleText _ _ _

theorem settings_serveAll (session : Session) (calls : List Call) :
    (session.serveAll calls).settings = session.settings := by
  induction calls generalizing session with
  | nil => rfl
  | cons call rest ih => rw [serveAll, ih, settings_serve]

/-- Which events a call adds depends on the settings alone. -/
theorem events_serve (settings : Settings) (call : Call) : ∃ added, ∀ session : Session,
    session.settings = settings → (session.serve call).1.events = session.events ++ added := by
  cases call with
  | lines file lines =>
    refine ⟨(Run.ofLines settings file lines).told settings file, fun session same => ?_⟩
    rw [serve, events_assembleLines, same]
  | text file source =>
    refine ⟨(Run.ofLines settings file (Text.splitLines source)).told settings file,
      fun session same => ?_⟩
    rw [serve, assembleText, events_assembleLines, same]
  | file tree path =>
    simp only [serve, assembleFile]
    cases tree.readText path with
    | error fault => exact ⟨[.assembling path.text], fun session _ => rfl⟩
    | ok source =>
      refine ⟨.assembling path.text ::
        (Run.ofLines settings path.text (Text.splitLines source)).told settings path.text,
        fun session same => ?_⟩
      simp only [assembleText, events_assembleLines, note, same, List.append_assoc,
        List.singleton_append]

/-- The calls before have no influence on a call: its answer, the run that it leaves and the events
that it adds are those of a new session. A call that comes to no run leaves the run before. -/
theorem runs_independent (settings : Settings) (earlier : List Call) (call : Call) :
    let session := (start settings).serveAll earlier
    let after := session.serve call
    let new := (start settings).serve call
    after.2 = new.2 ∧ after.1.settings = settings ∧
      after.1.events = session.events ++ new.1.events ∧
      match call.program with
      | .ok _ => after.1.run = new.1.run ∧ after.2 = after.1.run.result.mapError .assembly
      | .error fault => after.1.run = session.run ∧ after.2 = .error (.file fault) := by
  intro session after new
  have same : session.settings = settings := settings_serveAll (start settings) earlier
  have kept : after.1.settings = settings := (settings_serve session call).trans same
  have events : after.1.events = session.events ++ new.1.events := by
    obtain ⟨added, adds⟩ := events_serve settings call
    have fromNew : new.1.events = added := adds (start settings) rfl
    rw [fromNew]
    exact adds session same
  cases program : call.program with
  | error fault =>
    obtain ⟨run, answer⟩ := serve_of_fault session program
    obtain ⟨-, newAnswer⟩ := serve_of_fault (start settings) program
    exact ⟨answer.trans newAnswer.symm, kept, events, run, answer⟩
  | ok pair =>
    obtain ⟨run, answer⟩ := serve_of_program session program
    obtain ⟨newRun, newAnswer⟩ := serve_of_program (start settings) program
    rw [same] at run answer
    refine ⟨answer.trans newAnswer.symm, kept, events, run.trans newRun.symm, ?_⟩
    rw [run]
    exact answer

end Session

end TwoPass
