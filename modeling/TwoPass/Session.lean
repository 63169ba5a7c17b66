import TwoPass.FileTree
import TwoPass.Run

/-! One configuration, used for any number of runs. A session answers questions about its last run,
and a new run takes the place of it. Clearing a run keeps its limit of fatal problems, which is that
of the settings. -/

set_option autoImplicit false

namespace TwoPass

structure Session where
  settings : Settings
  run : Run
  events : List Progress := []
  limited : run.journal.report.limit = settings.maxErrors

inductive Trouble where
  | assembly (failure : Failure)
  | file (fault : FileFault)
  deriving DecidableEq, Repr

namespace Session

def start (settings : Settings) : Session :=
  { settings, run := Run.initial settings, limited := rfl }

def note (session : Session) (event : Progress) : Session :=
  { session with events := session.events ++ [event] }

def codeSize (session : Session) : Nat := session.run.codeSize session.settings

def assembleLines (session : Session) (file : Text) (lines : List Text) : Session :=
  let run := Run.next session.settings session.run file lines
  let after := { session with
    run
    events := session.events ++ run.journal.events
    limited := (Run.limit_next ..).trans session.limited }
  match run.outcome with
  | .error _ => after
  | .ok _ => after.note (.assembled file after.codeSize run.symbols.size run.output.length)

def assembleText (session : Session) (file : Text) (source : Text) : Session :=
  session.assembleLines file (Text.splitLines source)

/-- Assembles the file at a path. Where it cannot be read there is no run, and the session still
answers for the one before. -/
def assembleFile (session : Session) (tree : FileTree) (path : Path) :
    Session × Except Trouble (List Text) :=
  let session := session.note (.assembling path.text)
  match tree.readText path with
  | .error fault => (session, .error (.file fault))
  | .ok source =>
    let session := session.assembleText path.text source
    (session, session.run.result.mapError .assembly)

def writeOutput (session : Session) (tree : FileTree) (path : Path) :
    Except FileFault (Session × FileTree) := do
  let tree ← tree.writeText path.text session.run.outputText
  pure (session.note (.wroteOutput path.text), tree)

def writeListing (session : Session) (tree : FileTree) (path : Text) :
    Except FileFault (Session × FileTree) := do
  let tree ← tree.writeText path (session.run.listingText ++ "\n")
  pure (session.note (.wroteListing path), tree)

def writeSymbols (session : Session) (tree : FileTree) (path : Text) :
    Except FileFault (Session × FileTree) := do
  let tree ← tree.writeText path session.run.symbols.fileText
  pure (session.note (.wroteSymbols path), tree)

end Session

end TwoPass
