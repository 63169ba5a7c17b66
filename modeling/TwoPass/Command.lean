import TwoPass.Command.Help
import TwoPass.Command.Integer
import TwoPass.Session

/-! The command: from its arguments and the files around it to its exit code, its messages and the
files after it. -/

set_option autoImplicit false

namespace TwoPass.Command

structure Request where
  input : Path
  output : Path
  listing : Option Path
  symbols : Option Path
  settings : Settings
  verbose : Bool

structure Outcome where
  exit : Nat
  stdout : Text
  stderr : Text
  tree : FileTree
  deriving DecidableEq, Repr

inductive Mishap where
  | assembly (text : Text)
  | argument (text : Text)
  | fileAccess (text : Text)
  | internal (text : Text)
  deriving DecidableEq, Repr

def printed (line : Text) : Text := Text.withoutSequences line ++ "\n"

namespace Mishap

def exitCode : Mishap → Nat
  | .assembly _ => 1
  | .argument _ | .fileAccess _ => 2
  | .internal _ => 3

/-- A mishap in words. Assembly problems are introduced by the `activity` that met them, if one is
named. -/
def message (mishap : Mishap) (activity : Text) : Text :=
  match mishap with
  | .assembly text =>
    let opening : Text := if activity.isEmpty then "Error: " else activity ++ " error: "
    opening ++ text
  | .argument text | .fileAccess text => "Error: " ++ text
  | .internal text => "Internal error: " ++ text

/-- What is told about a mishap; an internal error is followed by a trace where much is to be
told. -/
def text (mishap : Mishap) (verbose : Bool) (activity : Text) : Text :=
  let trace : Text := match mishap with
    | .internal _ => if verbose then "<traceback>\n" else ""
    | _ => ""
  printed (mishap.message activity) ++ trace

def ofFailure (failure : Failure) : Mishap :=
  match failure with
  | .problem found => .assembly found.text
  | _ => .internal failure.message

def ofFileFault (fault : FileFault) : Mishap :=
  match fault with
  | .missing _ => .fileAccess fault.message
  | _ => .internal fault.message

def ofTrouble : Trouble → Mishap
  | .assembly failure => ofFailure failure
  | .file fault => ofFileFault fault

end Mishap

def inputTitle : Text := "'INPUT_FILE'"

def checkInput (tree : FileTree) (path : Text) : Except UsageFault Path :=
  match tree.kindOf path with
  | .file => .ok (Path.ofText path)
  | .directory =>
    .error (.invalidValue inputTitle ("File " ++ Text.quoted path ++ " is a directory."))
  | .nothing =>
    .error (.invalidValue inputTitle ("File " ++ Text.quoted path ++ " does not exist."))

def checkTarget (tree : FileTree) (option : OptionName) (path : Text) : Except UsageFault Unit :=
  match tree.kindOf path with
  | .directory =>
    .error (.invalidValue option.title ("File " ++ Text.quoted path ++ " is a directory."))
  | _ => .ok ()

def checkBase (value : Option Text) : Except UsageFault { base : Nat // base ≤ Machine.maxAddress } :=
  let refuse (reason : Text) := Except.error (.invalidValue OptionName.baseAddress.title reason)
  match value with
  | none => .ok ⟨Machine.defaultBase, by decide⟩
  | some text =>
    match Integer.read text with
    | none => refuse (Text.apostrophized text ++ " is not a number")
    | some address =>
      if fits : 0 ≤ address ∧ address ≤ Machine.maxAddress then .ok ⟨address.toNat, by omega⟩
      else refuse (Numeral.hex address ++ " does not fit in 32 bits")

def checkOption (tree : FileTree) (arguments : Arguments) (option : OptionName) :
    Except UsageFault Unit :=
  match option, arguments.value? option with
  | .output, some path | .listing, some path | .symbols, some path => checkTarget tree option path
  | .baseAddress, value => discard (checkBase value)
  | _, _ => .ok ()

/-- Checks the values of options in the order in which the options were given, and then the other
arguments. -/
def Request.ofArguments (tree : FileTree) (arguments : Arguments) : Except UsageFault Request := do
  arguments.options.forM fun given => checkOption tree arguments given.1
  let path? (option : OptionName) := (arguments.value? option).map Path.ofText
  let base ← checkBase (arguments.value? .baseAddress)
  match arguments.others with
  | [] => .error .inputMissing
  | input :: extra =>
    let input ← checkInput tree input
    if extra.isEmpty then
      pure
        { input
          output := (path? .output).getD (input.withSuffix ".tk")
          listing := path? .listing
          symbols := path? .symbols
          settings :=
            { base := base.val
              keepLabels := arguments.has .keepLabels
              allowUndefined := arguments.has .allowUndefined
              base_le := base.property }
          verbose := arguments.has .verbose }
    else .error (.extraArguments extra)

structure Work where
  session : Session
  tree : FileTree
  stdout : Text := []
  stderr : Text := []

namespace Work

def tell (request : Request) (line : Text) (work : Work) : Work :=
  if request.verbose then { work with stdout := work.stdout ++ printed line } else work

/-- Takes over a session, with its new events on the error stream of a verbose command. -/
def follow (request : Request) (session : Session) (work : Work) : Work :=
  let news := session.events.drop work.session.events.length
  let log := if request.verbose then news.flatMap (·.logLine ++ ['\n']) else []
  { work with session, stderr := work.stderr ++ log }

def fail (request : Request) (mishap : Mishap) (work : Work) : Outcome :=
  ⟨mishap.exitCode, work.stdout, work.stderr ++ mishap.text request.verbose "Assembly", work.tree⟩

def wrote (request : Request) (line : Text) (result : Except FileFault (Session × FileTree))
    (work : Work) : Except Outcome Work :=
  match result with
  | .error fault => .error (work.fail request (Mishap.ofFileFault fault))
  | .ok (session, tree) => .ok (({ work with tree }.follow request session).tell request line)

def assemble (request : Request) (work : Work) : Except Outcome Work :=
  let (session, result) := work.session.assembleFile work.tree request.input
  let work := work.follow request session
  match result with
  | .error trouble => .error (work.fail request (Mishap.ofTrouble trouble))
  | .ok _ =>
    let report := session.run.report
    if report.hasFatal then
      .error ⟨1, work.stdout, work.stderr ++ printed report.text, work.tree⟩
    else .ok work

def writeOutput (request : Request) (work : Work) : Except Outcome Work :=
  let count := Numeral.decimalNat work.session.run.output.length
  work.wrote request ("Wrote " ++ count ++ " lines to " ++ request.output.text)
    (work.session.writeOutput work.tree request.output)

def writeListing (request : Request) (work : Work) : Except Outcome Work :=
  match request.listing with
  | none => .ok work
  | some path =>
    work.wrote request ("Wrote listing to " ++ path.text)
      (work.session.writeListing work.tree path.text)

def writeSymbols (request : Request) (work : Work) : Except Outcome Work :=
  match request.symbols with
  | none => .ok work
  | some path =>
    work.wrote request ("Wrote symbols to " ++ path.text)
      (work.session.writeSymbols work.tree path.text)

def finish (request : Request) (work : Work) : Outcome :=
  let run := work.session.run
  let report : Text := if run.report.diagnostics.isEmpty then "" else printed run.report.text
  let size := work.session.codeSize
  let work := { work with stderr := work.stderr ++ report }
  let work := work.tell request
    ("Assembly complete: " ++ Numeral.decimalNat size ++ " bytes at " ++
      Numeral.hex request.settings.base ++ "-" ++ Numeral.hex (request.settings.base + size))
  let work := work.tell request
    ("Defined " ++ Numeral.decimalNat run.symbols.size ++ " labels")
  ⟨0, work.stdout, work.stderr, work.tree⟩

def begin (request : Request) (tree : FileTree) : Work :=
  let work : Work := { session := Session.start request.settings, tree }
  let work := work.tell request ("Base address: " ++ Numeral.hex request.settings.base)
  let work := if request.settings.allowUndefined then
      work.tell request "Undefined labels: reported, lines passed through"
    else work
  work.tell request ("Assembling " ++ request.input.text ++ "...")

end Work

def Request.carryOut (request : Request) (tree : FileTree) : Outcome :=
  let steps : Except Outcome Work := do
    let work ← (Work.begin request tree).assemble request
    let work ← work.writeOutput request
    let work ← work.writeListing request
    work.writeSymbols request
  match steps with
  | .error outcome => outcome
  | .ok work => work.finish request

/-- Runs the command. A request for help or for the version is answered, whichever comes first, as
long as the options can be told apart. -/
def run (words : List Text) (tree : FileTree) : Outcome :=
  let refuse (fault : UsageFault) : Outcome := ⟨2, [], fault.text, tree⟩
  match Arguments.read words with
  | .error fault => refuse fault
  | .ok arguments =>
    let asked := arguments.options.find? fun (option, _) => option = .version || option = .help
    match asked with
    | some (.version, _) => ⟨0, versionText, [], tree⟩
    | some _ => ⟨0, helpText, [], tree⟩
    | none =>
      match Request.ofArguments tree arguments with
      | .error fault => refuse fault
      | .ok request => request.carryOut tree

end TwoPass.Command
