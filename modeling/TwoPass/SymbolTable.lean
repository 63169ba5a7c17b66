import TwoPass.Instruction
import TwoPass.Problem
import TwoPass.Text.Similarity

/-! Labels and their addresses.

A table lists each label once, in the order of first definition. A later definition of a label
replaces the earlier one in its place. Freezing a table ends definition until it is cleared. -/

set_option autoImplicit false

namespace TwoPass

structure Symbol where
  name : Text
  address : Nat
  location : Option Location := none
  deriving DecidableEq, Repr

structure SymbolTable where
  symbols : List Symbol := []
  frozen : Bool := false
  deriving DecidableEq, Repr

namespace SymbolTable

def find? (table : SymbolTable) (name : Text) : Option Symbol :=
  table.symbols.find? (·.name == name)

def contains (table : SymbolTable) (name : Text) : Bool := (table.find? name).isSome

def names (table : SymbolTable) : List Text := table.symbols.map Symbol.name

def size (table : SymbolTable) : Nat := table.symbols.length

/-- Puts a symbol in the place of the one with its name, or at the end. -/
def insert (symbol : Symbol) : List Symbol → List Symbol
  | [] => [symbol]
  | first :: rest =>
    if first.name == symbol.name then symbol :: rest else first :: insert symbol rest

theorem find?_insert (symbol : Symbol) (symbols : List Symbol) (name : Text) :
    (insert symbol symbols).find? (·.name == name) =
      if symbol.name = name then some symbol else symbols.find? (·.name == name) := by
  induction symbols with
  | nil => by_cases same : symbol.name = name <;> simp [insert, same]
  | cons first rest ih =>
    by_cases replaced : first.name = symbol.name
    · by_cases same : symbol.name = name <;> simp [insert, replaced, same]
    · by_cases same : symbol.name = name
      · subst same
        simp [insert, replaced, ih]
      · by_cases found : first.name = name
        · subst found
          simp [insert, replaced, same]
        · simp [insert, replaced, same, found, ih]

/-- Binds a label to an address of 32 bits and returns the binding it had before, with the table as
it is then. -/
def define (table : SymbolTable) (name : Text) (address : Int) (location : Option Location) :
    Except Problem (Option Symbol) × SymbolTable :=
  if table.frozen then (.error { fault := .tableFrozen name, location }, table)
  else if 0 ≤ address ∧ address ≤ Machine.maxAddress then
    (.ok (table.find? name),
      { table with symbols := insert ⟨name, address.toNat, location⟩ table.symbols })
  else (.error { fault := .addressOverflow name address, location }, table)

def similar (table : SymbolTable) (name : Text) : List Text :=
  Text.Similarity.closest name table.names

/-- The binding of a label; where it has none, the problem is placed as the caller says. -/
def lookup (table : SymbolTable) (name : Text) (location : Option Location)
    (sourceLine : Option Text) : Except Problem Symbol :=
  match table.find? name with
  | some symbol => .ok symbol
  | none =>
    .error ⟨.undefinedLabel name none (table.similar name) .fatal, location, sourceLine⟩

def freeze (table : SymbolTable) : SymbolTable := { table with frozen := true }

def clear (_ : SymbolTable) : SymbolTable := {}

def bindings (table : SymbolTable) : List (Text × Nat) :=
  table.symbols.map fun symbol => (symbol.name, symbol.address)

end SymbolTable

end TwoPass
