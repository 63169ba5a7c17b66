import Mathlib.Data.List.Induction
import TwoPass.SymbolTable

/-! Tables that are made by one binding after the other.

The last binding of a name is the one that counts, and names stand in the order in which they were
first bound. -/

set_option autoImplicit false

namespace TwoPass.SymbolTable

def insertAll (symbols : List Symbol) (made : List Symbol) : List Symbol :=
  made.foldl (fun symbols symbol => insert symbol symbols) symbols

theorem define_eq {table : SymbolTable} (unfrozen : table.frozen = false) {name : Text}
    {address : Nat} {location : Option Location} :
    table.define name address location = if address ≤ Machine.maxAddress then
        (.ok (table.find? name), ⟨insert ⟨name, address, location⟩ table.symbols, false⟩)
      else (.error { fault := .addressOverflow name address, location }, table) := by
  obtain ⟨symbols, frozen⟩ := table
  subst unfrozen
  unfold define
  by_cases small : address ≤ Machine.maxAddress
  · -- the bounds are those of integers, as addresses are given from outside too
    have both : 0 ≤ (address : Int) ∧ (address : Int) ≤ Machine.maxAddress := by omega
    simp [small, both]
  · simp [small]

theorem find?_insertAll (symbols made : List Symbol) (name : Text) :
    (insertAll symbols made).find? (·.name == name) =
      (made.reverse.find? (·.name == name)).or (symbols.find? (·.name == name)) := by
  induction made generalizing symbols with
  | nil => simp [insertAll]
  | cons symbol rest ih =>
    have step : insertAll symbols (symbol :: rest) = insertAll (insert symbol symbols) rest := rfl
    rw [step, ih, find?_insert, List.reverse_cons, List.find?_append, Option.or_assoc]
    congr 1
    by_cases same : symbol.name = name <;> simp [same]

theorem find?_insertAll_of_last {before after : List Symbol} {symbol : Symbol}
    (last : ∀ later ∈ after, later.name ≠ symbol.name) :
    (insertAll [] (before ++ symbol :: after)).find? (·.name == symbol.name) = some symbol := by
  have absent : after.reverse.find? (·.name == symbol.name) = none := by
    simpa using last
  rw [find?_insertAll]
  simp [absent]

theorem address_of_last {made : List Symbol} {before after : List (Text × Nat)} {name : Text}
    {address : Nat}
    (split : made.map (fun symbol => (symbol.name, symbol.address)) = before ++ (name, address) :: after)
    (last : name ∉ after.map Prod.fst) :
    ((insertAll [] made).find? (·.name == name)).map Symbol.address = some address := by
  obtain ⟨earlier, rest, rfl, -, tail⟩ := List.map_eq_append_iff.mp split
  obtain ⟨symbol, later, rfl, same, rfl⟩ := List.map_eq_cons_iff.mp tail
  obtain ⟨rfl, rfl⟩ := Prod.mk.inj same
  rw [find?_insertAll_of_last]
  · rfl
  · intro other member named
    apply last
    rw [List.map_map]
    exact List.mem_map.mpr ⟨other, member, named⟩

theorem eq_or_mem_of_mem_insert {symbol made : Symbol} {symbols : List Symbol}
    (member : symbol ∈ insert made symbols) : symbol = made ∨ symbol ∈ symbols := by
  induction symbols with
  | nil => exact .inl (List.mem_singleton.mp member)
  | cons first rest ih =>
    rw [insert] at member
    split at member
    · exact (List.mem_cons.mp member).imp_right (List.mem_cons_of_mem first)
    · rcases List.mem_cons.mp member with rfl | later
      · exact .inr List.mem_cons_self
      · exact (ih later).imp_right (List.mem_cons_of_mem first)

theorem map_name_insert (symbol : Symbol) (symbols : List Symbol) :
    (insert symbol symbols).map Symbol.name = if symbol.name ∈ symbols.map Symbol.name
      then symbols.map Symbol.name else symbols.map Symbol.name ++ [symbol.name] := by
  induction symbols with
  | nil => rfl
  | cons first rest ih =>
    by_cases same : first.name = symbol.name
    · simp [insert, same]
    · have other : symbol.name ≠ first.name := fun equal => same equal.symm
      simp only [insert, beq_iff_eq, same, if_false, List.map_cons, ih, List.mem_cons, other,
        false_or]
      split <;> rfl

theorem eraseDups_concat (names : List Text) (name : Text) : (names ++ [name]).eraseDups =
    if name ∈ names.eraseDups then names.eraseDups else names.eraseDups ++ [name] := by
  rw [List.eraseDups_append]
  simp only [List.mem_eraseDups]
  by_cases bound : name ∈ names
  · simp [List.removeAll, bound]
  · simp [List.removeAll, bound, List.eraseDups_cons]

theorem map_name_insertAll (made : List Symbol) :
    (insertAll [] made).map Symbol.name = (made.map Symbol.name).eraseDups := by
  -- a new name goes to the end, so the induction is from the last binding backwards
  induction made using List.reverseRecOn with
  | nil => rfl
  | append_singleton made symbol ih =>
    have step : insertAll [] (made ++ [symbol]) = insert symbol (insertAll [] made) :=
      List.foldl_append
    rw [step, map_name_insert, ih, List.map_append, List.map_singleton, eraseDups_concat]

section
variable {change : Symbol → Symbol} {rename : Text → Text}

theorem insert_renamed (named : ∀ symbol, (change symbol).name = rename symbol.name)
    (injective : Function.Injective rename) (symbol : Symbol) (symbols : List Symbol) :
    insert (change symbol) (symbols.map change) = (insert symbol symbols).map change := by
  induction symbols with
  | nil => rfl
  | cons first rest ih =>
    have same : (rename first.name == rename symbol.name) = (first.name == symbol.name) := by
      rw [Bool.eq_iff_iff, beq_iff_eq, beq_iff_eq, injective.eq_iff]
    rw [List.map_cons, insert, insert, ih, named, named, same]
    split <;> rfl

/-- Symbols whose names are changed, and not mixed up, are bound in the same places. -/
theorem insertAll_renamed (named : ∀ symbol, (change symbol).name = rename symbol.name)
    (injective : Function.Injective rename) (symbols made : List Symbol) :
    insertAll (symbols.map change) (made.map change) = (insertAll symbols made).map change := by
  induction made generalizing symbols with
  | nil => rfl
  | cons symbol rest ih =>
    have step (first : Symbol) (before later : List Symbol) :
        insertAll before (first :: later) = insertAll (insert first before) later := rfl
    rw [List.map_cons, step, step, insert_renamed named injective, ih]

theorem insertAll_map (named : ∀ symbol, (change symbol).name = symbol.name)
    (symbols made : List Symbol) :
    insertAll (symbols.map change) (made.map change) = (insertAll symbols made).map change :=
  @insertAll_renamed change id named Function.injective_id symbols made

end

theorem map_fst_bindings (table : SymbolTable) : table.bindings.map Prod.fst = table.names := by
  rw [bindings, List.map_map]
  rfl

def address? (table : SymbolTable) (name : Text) : Option Nat :=
  (table.find? name).map Symbol.address

theorem address?_of_find? {table : SymbolTable} {name : Text} {symbol : Symbol}
    (bound : table.find? name = some symbol) : table.address? name = some symbol.address := by
  rw [address?, bound]
  rfl

/-- Tables that come from an empty one by definitions, freezing and clearing. -/
inductive Built : SymbolTable → Prop
  | empty : Built {}
  | define {table : SymbolTable} (built : Built table) (name : Text) (address : Int)
    (location : Option Location) : Built (table.define name address location).2
  | freeze {table : SymbolTable} (built : Built table) : Built table.freeze
  | clear {table : SymbolTable} (built : Built table) : Built table.clear

theorem Built.address_le {table : SymbolTable} (built : Built table) {name : Text} {symbol : Symbol}
    (bound : table.find? name = some symbol) : symbol.address ≤ Machine.maxAddress := by
  induction built with
  | empty | clear => cases bound
  | freeze built ih => exact ih bound
  | define built label address location ih =>
    unfold SymbolTable.define at bound
    split at bound
    · exact ih bound
    · split at bound
      · next fits =>
        rw [find?, find?_insert] at bound
        split at bound
        · cases bound
          dsimp only
          omega
        · exact ih bound
      · exact ih bound

end TwoPass.SymbolTable
