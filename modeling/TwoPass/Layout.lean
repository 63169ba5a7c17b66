import TwoPass.Statement.Check

/-! Where each line of a program stands: the section it is in, its address and its size.

A layout is computed once, by one recursion that is the only place where an address advances. Both
the collection of labels and the emission of code read it. -/

set_option autoImplicit false

namespace TwoPass

inductive Entry where
  /-- A line with a problem; it is present if it could be told what the line is. -/
  | rejected (line : Option Line) (found : Problem)
  /-- A blank line, a comment, a directive or a label. -/
  | passive (line : Line)
  /-- Content in front of every directive. -/
  | stray (line : Line)
  /-- An item of a data section. -/
  | item (line : Line)
  /-- An instruction of a code section, with the shape of its operands. -/
  | code (statement : Statement) (instruction : Instruction) (shape : Shape)
  deriving DecidableEq, Repr

namespace Entry

def size : Entry → Nat
  | .item _ => Machine.dataItemSize
  | .code _ instruction _ => instruction.size
  | _ => 0

def line? : Entry → Option Line
  | .rejected line _ => line
  | .passive line | .stray line | .item line => some line
  | .code statement _ _ => some statement.line

def ofCode (line : Line) : Except Failure Entry :=
  match Instruction.ofContent line.text with
  | .error fault => .error (.problem (line.problem fault 0))
  | .ok instruction => do
    let statement ← Statement.read line
    let shape ← statement.check
    pure (.code statement instruction shape)

/-- The entry of a line in a section. Problems reject the line; other failures remain. -/
def ofLine (inside : Option Section) (line : Line) : Except Failure Entry :=
  match line.body, inside with
  | .content, none => .ok (.stray line)
  | .content, some .data => .ok (.item line)
  | .content, some .code =>
    match ofCode line with
    | .error (.problem found) => .ok (.rejected (some line) found)
    | result => result
  | _, _ => .ok (.passive line)

end Entry

/-- A line in its place. `inside` is the section in force after the line. -/
structure Placement where
  number : Nat
  inside : Option Section
  address : Nat
  entry : Entry
  deriving DecidableEq, Repr

def Line.sectionAfter (line : Line) (inside : Option Section) : Option Section :=
  match line.body with
  | .directive target => some target
  | _ => inside

namespace Placement

def ofRaw (file : Text) (number : Nat) (inside : Option Section) (address : Nat) (raw : Text) :
    Except Failure Placement :=
  match Line.read raw file number with
  | .error found => .ok ⟨number, inside, address, .rejected none found⟩
  | .ok line => do
    let entry ← Entry.ofLine inside line
    pure ⟨number, line.sectionAfter inside, address, entry⟩

def next (placement : Placement) : Nat := placement.address + placement.entry.size

end Placement

/-- The placements of all lines and the address past the last byte; or the placements in front of a
line at which laying out had to stop, and the failure there. -/
structure Layout where
  placements : List Placement
  finish : Except Failure Nat

namespace Layout

def cons (placement : Placement) (layout : Layout) : Layout :=
  { layout with placements := placement :: layout.placements }

def layFrom (file : Text) : (number : Nat) → (inside : Option Section) → (address : Nat) →
    List Text → Layout
  | _, _, address, [] => ⟨[], .ok address⟩
  | number, inside, address, raw :: rest =>
    match Placement.ofRaw file number inside address raw with
    | .error failure => ⟨[], .error failure⟩
    | .ok placement =>
      (layFrom file (number + 1) placement.inside placement.next rest).cons placement

def ofLines (base : Nat) (file : Text) (lines : List Text) : Layout :=
  layFrom file 1 none base lines

end Layout

end TwoPass
