import TwoPass.Path
import TwoPass.Text.LineBreak
import TwoPass.Text.Quoted
import TwoPass.Text.Utf8

/-! Files and directories around a current directory, and what the operations on them answer.

A place is the list of names that lead to it. Directories above a file exist without being listed.

There are no links and no devices, so that a file is at one place only and every write changes just
that. Where the current directory itself lies is not known: a path from the root leads to another place
than any path from the current directory. Permissions and the room on a disk are left out too. -/

set_option autoImplicit false

namespace TwoPass

abbrev Place := List Text

structure FileTree where
  files : List (Place × List UInt8) := []
  directories : List Place := []
  deriving DecidableEq, Repr

inductive FileFault where
  | missing (path : Text)
  | isDirectory (path : Text)
  | notDirectory (path : Text)
  | nameTooLong (path : Text)
  | nulCharacter
  | undecodable (fault : Utf8.Fault)
  deriving DecidableEq, Repr

def FileFault.message : FileFault → Text
  | .missing path => "[Errno 2] No such file or directory: " ++ Text.quoted path
  | .isDirectory path => "[Errno 21] Is a directory: " ++ Text.quoted path
  | .notDirectory path => "[Errno 20] Not a directory: " ++ Text.quoted path
  | .nameTooLong path => "[Errno 36] File name too long: " ++ Text.quoted path
  | .nulCharacter => "embedded null byte"
  | .undecodable fault => fault.message

namespace FileTree

inductive Kind where
  | file
  | directory
  | nothing
  deriving DecidableEq, Repr

def parent : Text := ".."

def nul : Char := '\x00'

/-- The place above; above the current directory lie its ancestors, above the root the root. -/
def above (place : Place) : Place :=
  if place.all (· == parent) then place ++ [parent]
  else if place == [['/']] then place
  else place.dropLast

def bytes? (tree : FileTree) (place : Place) : Option (List UInt8) := tree.files.lookup place

def isDirectory (tree : FileTree) (place : Place) : Bool :=
  place.all (· == parent) || place == [['/']] || tree.directories.any (place.isPrefixOf ·) ||
    tree.files.any fun (file, _) => place.isPrefixOf file && place != file

def kind (tree : FileTree) (place : Place) : Kind :=
  if tree.isDirectory place then .directory
  else if (tree.bytes? place).isSome then .file
  else .nothing

def enter (tree : FileTree) (path : Text) (place : Place) : Except FileFault Unit :=
  match tree.kind place with
  | .nothing => .error (.missing path)
  | .file => .error (.notDirectory path)
  | .directory => .ok ()

def nameLimit : Nat := 255

def pathLimit : Nat := 4095

def follow (tree : FileTree) (path : Text) (place : Place) : List Text → Except FileFault Place
  | [] => .ok place
  | name :: rest => do
    tree.enter path place
    if name == ['.'] then tree.follow path place rest
    else if name == parent then tree.follow path (above place) rest
    else if nameLimit < (Utf8.encode name).length then .error (.nameTooLong path)
    else tree.follow path (place ++ [name]) rest

def start (path : Text) : Except FileFault Place :=
  if path.contains nul then .error .nulCharacter
  else if path == [] then .error (.missing path)
  else if pathLimit < (Utf8.encode path).length then .error (.nameTooLong path)
  else .ok (if Path.rootOf path == [] then [] else [['/']])

def locate (tree : FileTree) (path : Text) : Except FileFault Place := do
  tree.follow path (← start path) (Path.namesOf path)

def endsInSlash (path : Text) : Bool := path.getLast? == some '/'

def kindOf (tree : FileTree) (path : Text) : Kind :=
  match tree.locate path with
  | .error _ => .nothing
  | .ok place =>
    match tree.kind place with
    | .file => if endsInSlash path then .nothing else .file
    | found => found

def read (tree : FileTree) (path : Path) : Except FileFault (List UInt8) := do
  let place ← tree.locate path.text
  match tree.kind place, tree.bytes? place with
  | .directory, _ => .error (.isDirectory path.text)
  | .file, some bytes => .ok bytes
  | _, _ => .error (.missing path.text)

def readText (tree : FileTree) (path : Path) : Except FileFault Text := do
  match Utf8.decode (← tree.read path) with
  | .ok text => .ok (Text.unifyLineEnds text)
  | .error fault => .error (.undecodable fault)

def put (place : Place) (bytes : List UInt8) :
    List (Place × List UInt8) → List (Place × List UInt8)
  | [] => [(place, bytes)]
  | (file, before) :: rest =>
    if file == place then (file, bytes) :: rest else (file, before) :: put place bytes rest

/-- The place at which a path lets a file be written. With a slash at its end it does so nowhere,
even if its last name leads to nothing. -/
def target (tree : FileTree) (path : Text) : Except FileFault Place := do
  if endsInSlash path then
    tree.enter path (← tree.follow path (← start path) (Path.namesOf path).dropLast)
    .error (.isDirectory path)
  else
    let place ← tree.locate path
    if tree.kind place = .directory then .error (.isDirectory path) else pure place

def writeText (tree : FileTree) (path : Text) (text : Text) : Except FileFault FileTree := do
  let place ← tree.target path
  pure { tree with files := put place (Utf8.encode text) tree.files }

end FileTree

end TwoPass
