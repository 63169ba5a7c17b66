import TwoPass.Command

/-! The command on real files. It looks at the paths that the arguments name, runs on what it found
there, and then carries the changes over. -/

set_option autoImplicit false

namespace TwoPass.Command

def pathsOf (words : List Text) : List Path :=
  match Arguments.read words with
  | .error _ => []
  | .ok arguments =>
    let inputs := arguments.others.map Path.ofText
    let targets := [OptionName.output, .listing, .symbols].filterMap arguments.value?
    inputs ++ inputs.map (·.withSuffix ".tk") ++ targets.map Path.ofText

def look (path : Path) : IO (FileTree.Kind × List UInt8) := do
  try
    let bytes ← IO.FS.readBinFile (String.ofList path.text)
    pure (.file, bytes.toList)
  catch
    | .inappropriateType .. => pure (.directory, [])
    | _ => pure (.nothing, [])

/-- Notes what is found along a path, as far as its components are directories. -/
def survey (root : Text) (tree : FileTree) (walked : List Text) : List Text → IO FileTree
  | [] => pure tree
  | name :: rest => do
    let path : Path := ⟨root, walked ++ [name]⟩
    match tree.locate path.text with
    | .error _ => pure tree
    | .ok place =>
      match ← look path with
      | (.file, bytes) => pure { tree with files := FileTree.put place bytes tree.files }
      | (.directory, _) =>
        survey root { tree with directories := place :: tree.directories } path.components rest
      | (.nothing, _) => pure tree

def surveyAll (paths : List Path) : IO FileTree :=
  paths.foldlM (fun tree path => survey path.root tree [] path.components) {}

def pathTo : Place → Path
  | ['/'] :: components => ⟨['/'], components⟩
  | components => ⟨[], components⟩

def carryOver (before after : FileTree) : IO Unit :=
  after.files.forM fun (place, bytes) => do
    if before.bytes? place != some bytes then
      IO.FS.writeBinFile (String.ofList (pathTo place).text) ⟨bytes.toArray⟩

end TwoPass.Command

def main (arguments : List String) : IO UInt32 := do
  let words := arguments.map String.toList
  let before ← TwoPass.Command.surveyAll (TwoPass.Command.pathsOf words)
  let outcome := TwoPass.Command.run words before
  TwoPass.Command.carryOver before outcome.tree
  IO.print (String.ofList outcome.stdout)
  IO.eprint (String.ofList outcome.stderr)
  pure outcome.exit.toUInt32
