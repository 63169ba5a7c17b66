import TwoPass.Text.Basic

/-! File paths in the form in which they are shown and used: without empty and `.` components, and
with the suffix of the last component apart. -/

set_option autoImplicit false

namespace TwoPass

/-- A path is relative, or starts from a root that is written with one slash or, where exactly two
are given, with two. -/
structure Path where
  root : Text
  components : List Text
  deriving DecidableEq, Repr

namespace Path

def splitSlashes : Text → List Text
  | [] => [[]]
  | c :: rest =>
    match splitSlashes rest with
    | [] => [[c]]
    | first :: more => if c == '/' then [] :: first :: more else (c :: first) :: more

def namesOf (text : Text) : List Text := (splitSlashes text).filter (· != [])

def componentsOf (text : Text) : List Text := (namesOf text).filter (· != ['.'])

def rootOf (text : Text) : Text :=
  match (text.takeWhile (· == '/')).length with
  | 0 => []
  | 2 => ['/', '/']
  | _ => ['/']

def ofText (text : Text) : Path := ⟨rootOf text, componentsOf text⟩

/-- The path as it is shown; the path without a root and components is the current directory. -/
def text (path : Path) : Text :=
  if path.root == [] && path.components == [] then ['.']
  else path.root ++ Text.join ['/'] path.components

/-- A file name without its suffix. A suffix is a dot and at least one character after it, with at
least one character in front. -/
def stem (name : Text) : Text :=
  let suffix := name.reverse.takeWhile (· != '.')
  let front := name.take (name.length - suffix.length - 1)
  if suffix.length < name.length && suffix != [] && front != [] then front else name

def withSuffix (path : Path) (suffix : Text) : Path :=
  match path.components.reverse with
  | [] => path
  | name :: front => { path with components := ((stem name ++ suffix) :: front).reverse }

end Path

end TwoPass
