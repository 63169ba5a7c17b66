import Mathlib.Data.List.DropRight
import Mathlib.Data.List.Nodup
import TwoPass.Proofs.SymbolTable

/-! A table and everything that was done to it.

What a table holds and answers is settled by the operations behind the last clearing: it is frozen if
one of them freezes it, and it binds what they have defined. -/

set_option autoImplicit false

namespace TwoPass.SymbolTable

inductive Operation
  | define (name : Text) (address : Int) (location : Option Location)
  | lookup (name : Text) (location : Option Location) (sourceLine : Option Text)
  | freeze
  | clear
  deriving DecidableEq

def perform (table : SymbolTable) : Operation → Except Problem (Option Symbol) × SymbolTable
  | .define name address location => table.define name address location
  | .lookup name location sourceLine => ((table.lookup name location sourceLine).map some, table)
  | .freeze => (.ok none, table.freeze)
  | .clear => (.ok none, table.clear)

structure Event where
  operation : Operation
  answer : Except Problem (Option Symbol)

def performAll (table : SymbolTable) : List Operation → List Event × SymbolTable
  | [] => ([], table)
  | operation :: rest =>
    let (events, last) := performAll (table.perform operation).2 rest
    (⟨operation, (table.perform operation).1⟩ :: events, last)

theorem perform_of_error {table : SymbolTable} {operation : Operation} {found : Problem}
    (failed : (table.perform operation).1 = .error found) :
    (table.perform operation).2 = table := by
  cases operation with
  | lookup => rfl
  | freeze | clear => cases failed
  | define name address location =>
    rw [perform, define] at failed ⊢
    split at failed
    · next frozen => rw [if_pos frozen]
    · next unfrozen =>
      split at failed
      · cases failed
      · next overflows => rw [if_neg unfrozen, if_neg overflows]

namespace Event

/-- The binding that a definition has made, if it has not failed. An address that was accepted is not
negative. -/
def made? (event : Event) : Option Symbol :=
  match event.operation, event.answer with
  | .define name address location, .ok _ => some ⟨name, address.toNat, location⟩
  | _, _ => none

def sinceClear (events : List Event) : List Event :=
  events.rtakeWhile fun event => event.operation ≠ .clear

def made (events : List Event) : List Symbol := (sinceClear events).filterMap made?

def frozen (events : List Event) : Bool :=
  (sinceClear events).any fun event => event.operation = .freeze

def last? (events : List Event) (name : Text) : Option Symbol :=
  ((made events).filter (·.name == name)).getLast?

def names (events : List Event) : List Text := ((made events).map Symbol.name).eraseDups

theorem sinceClear_concat (events : List Event) (event : Event) :
    sinceClear (events ++ [event]) =
      if event.operation = .clear then [] else sinceClear events ++ [event] := by
  by_cases clears : event.operation = .clear
  · simp [sinceClear, clears]
  · simp [sinceClear, clears]

theorem made_concat (events : List Event) (event : Event) :
    made (events ++ [event]) =
      if event.operation = .clear then [] else made events ++ event.made?.toList := by
  unfold made
  rw [sinceClear_concat]
  split
  · rfl
  · rw [List.filterMap_append]
    cases made : event.made? <;> simp [made]

theorem frozen_concat (events : List Event) (event : Event) :
    frozen (events ++ [event]) = (decide (event.operation ≠ .clear) &&
      (frozen events || decide (event.operation = .freeze))) := by
  unfold frozen
  rw [sinceClear_concat]
  split <;> simp [*]

end Event

theorem nodup_insertAll (made : List Symbol) : ((insertAll [] made).map Symbol.name).Nodup := by
  induction made using List.reverseRecOn with
  | nil => exact List.nodup_nil
  | append_singleton made symbol ih =>
    have step : insertAll [] (made ++ [symbol]) = insert symbol (insertAll [] made) :=
      List.foldl_append
    rw [step, map_name_insert]
    split
    · exact ih
    · next unbound => exact List.nodup_append.mpr ⟨ih, List.nodup_singleton _, by grind⟩

theorem find?_name_of_mem {symbols : List Symbol} (distinct : (symbols.map Symbol.name).Nodup)
    {symbol : Symbol} (member : symbol ∈ symbols) :
    symbols.find? (·.name == symbol.name) = some symbol := by
  have bound : (symbols.find? (·.name == symbol.name)).isSome = true :=
    List.find?_isSome.mpr ⟨symbol, member, beq_self_eq_true symbol.name⟩
  obtain ⟨other, found⟩ := Option.isSome_iff_exists.mp bound
  -- what is found has the name of the symbol, and no other symbol has it
  have same : other.name = symbol.name := by simpa using List.find?_some found
  rw [found, List.inj_on_of_nodup_map distinct (List.mem_of_find?_eq_some found) member same]

theorem filterMap_find?_name {symbols : List Symbol} (distinct : (symbols.map Symbol.name).Nodup) :
    (symbols.map Symbol.name).filterMap (fun name => symbols.find? (·.name == name)) = symbols := by
  rw [List.filterMap_map]
  exact (List.filterMap_congr fun symbol => find?_name_of_mem distinct).trans List.filterMap_some

theorem mem_bindings_iff {table : SymbolTable} (distinct : table.names.Nodup) {name : Text}
    {address : Nat} : (name, address) ∈ table.bindings ↔ table.address? name = some address := by
  constructor
  · intro member
    obtain ⟨symbol, own, same⟩ := List.mem_map.mp member
    obtain ⟨rfl, rfl⟩ := Prod.mk.inj same
    exact address?_of_find? (find?_name_of_mem distinct own)
  · intro bound
    obtain ⟨symbol, found, rfl⟩ := Option.map_eq_some_iff.mp bound
    have same : symbol.name = name := by simpa using List.find?_some found
    exact List.mem_map.mpr ⟨symbol, List.mem_of_find?_eq_some found, by rw [same]⟩

section
variable {table : SymbolTable} {holds : Symbol → Prop}

/-- What holds of the symbols of a table and of the one that an operation may bind holds afterwards. -/
theorem forall_symbols_perform {operation : Operation} (before : ∀ symbol ∈ table.symbols, holds symbol)
    (accepted : ∀ name address location, operation = .define name address location → 0 ≤ address →
      address ≤ Machine.maxAddress → holds ⟨name, address.toNat, location⟩) :
    ∀ symbol ∈ (table.perform operation).2.symbols, holds symbol := by
  cases operation with
  | lookup | freeze => exact before
  | clear => exact fun symbol member => absurd member List.not_mem_nil
  | define name address location =>
    rw [perform, define]
    split
    · exact before
    · split
      · next fits =>
        intro symbol member
        rcases eq_or_mem_of_mem_insert member with rfl | earlier
        · exact accepted name address location rfl fits.1 fits.2
        · exact before symbol earlier
      · exact before

theorem forall_symbols_performAll {operations : List Operation}
    (before : ∀ symbol ∈ table.symbols, holds symbol)
    (accepted : ∀ name (address : Int) location, .define name address location ∈ operations →
      0 ≤ address → address ≤ Machine.maxAddress → holds ⟨name, address.toNat, location⟩) :
    ∀ symbol ∈ (table.performAll operations).2.symbols, holds symbol := by
  induction operations generalizing table with
  | nil => exact before
  | cons operation rest ih =>
    refine ih (forall_symbols_perform before ?_) ?_
    · rintro name address location rfl
      exact accepted name address location List.mem_cons_self
    · exact fun name address location later =>
        accepted name address location (List.mem_cons_of_mem operation later)

end

structure Follows (events : List Event) (table : SymbolTable) : Prop where
  symbols : table.symbols = insertAll [] (Event.made events)
  frozen : table.frozen = Event.frozen events

theorem Follows.of_clear {events : List Event} {event : Event} (clears : event.operation = .clear) :
    Follows (events ++ [event]) {} := by
  constructor
  · rw [Event.made_concat, if_pos clears]
    rfl
  · simp [Event.frozen_concat, clears]

section
variable {events : List Event} {table : SymbolTable}

theorem Follows.idle (follows : Follows events table) {event : Event}
    (keeps : event.operation ≠ .clear) (unbound : event.made? = none)
    (stays : event.operation ≠ .freeze) : Follows (events ++ [event]) table := by
  constructor
  · rw [Event.made_concat, if_neg keeps, unbound, follows.symbols]
    simp
  · simp [Event.frozen_concat, keeps, stays, follows.frozen]

theorem Follows.step (follows : Follows events table) (operation : Operation) :
    Follows (events ++ [⟨operation, (table.perform operation).1⟩]) (table.perform operation).2 := by
  cases operation with
  | clear => exact .of_clear rfl
  | lookup name location sourceLine => exact follows.idle (by simp) rfl (by simp)
  | freeze =>
    constructor
    · simp [Event.made_concat, perform, freeze, follows.symbols, Event.made?]
    · simp [Event.frozen_concat, perform, freeze]
  | define name address location =>
    rw [perform, define]
    -- only an accepted definition changes the table
    split
    · exact follows.idle (by simp) rfl (by simp)
    · split
      · constructor
        · simp [Event.made_concat, Event.made?, insertAll, follows.symbols]
        · simp [Event.frozen_concat, follows.frozen]
      · exact follows.idle (by simp) rfl (by simp)

theorem Follows.run (follows : Follows events table) (operations : List Operation) :
    Follows (events ++ (table.performAll operations).1) (table.performAll operations).2 := by
  induction operations generalizing events table with
  | nil => simpa [performAll] using follows
  | cons operation rest ih => simpa [performAll] using ih (follows.step operation)

theorem follows_performAll (operations : List Operation) :
    Follows (performAll {} operations).1 (performAll {} operations).2 := by
  have new : Follows [] {} := ⟨rfl, rfl⟩
  exact new.run operations

theorem operations_performAll (table : SymbolTable) (operations : List Operation) :
    (table.performAll operations).1.map Event.operation = operations := by
  induction operations generalizing table with
  | nil => rfl
  | cons operation rest ih => simp [performAll, ih]

theorem Follows.find?_eq (follows : Follows events table) (name : Text) :
    table.find? name = Event.last? events name := by
  rw [find?, follows.symbols, find?_insertAll, Event.last?, List.getLast?_filter]
  simp

theorem Follows.names_eq (follows : Follows events table) :
    table.names = Event.names events := by
  rw [names, follows.symbols, map_name_insertAll, Event.names]

theorem Follows.nodup (follows : Follows events table) : table.names.Nodup := by
  rw [names, follows.symbols]
  exact nodup_insertAll _

theorem Follows.symbols_eq (follows : Follows events table) :
    table.symbols = (Event.names events).filterMap (Event.last? events) := by
  have found : Event.last? events = table.find? := funext fun name => (follows.find?_eq name).symm
  rw [found, ← follows.names_eq]
  exact (filterMap_find?_name follows.nodup).symm

end

/-- A table is settled by what was done to it since the last clearing. It accepts a definition exactly
if it has not been frozen and the address has 32 bits, and returns the binding that a lookup would have
found. A lookup finds the last binding that was accepted, each name is listed once, in the order of
first bindings, and an operation that fails changes nothing. -/
theorem settled_by_history (operations : List Operation) :
    let table := (performAll {} operations).2
    let events := (performAll {} operations).1
    events.map Event.operation = operations ∧
    (∀ name address location place sourceLine,
      (table.perform (.define name address location)).1 =
        if Event.frozen events then .error { fault := .tableFrozen name, location }
        else if 0 ≤ address ∧ address ≤ 0xFFFFFFFF then
          .ok (table.lookup name place sourceLine).toOption
        else .error { fault := .addressOverflow name address, location }) ∧
    (∀ name location sourceLine, table.perform (.lookup name location sourceLine) =
      ((Event.last? events name).elim
        (.error ⟨.undefinedLabel name none (table.similar name) .fatal, location, sourceLine⟩)
        (fun symbol => .ok (some symbol)), table)) ∧
    (∀ operation found, (table.perform operation).1 = .error found →
      (table.perform operation).2 = table) ∧
    table.names.Nodup ∧ table.names = Event.names events ∧
    table.symbols = (Event.names events).filterMap (Event.last? events) ∧
    table.bindings = ((Event.names events).filterMap (Event.last? events)).map
      (fun symbol => (symbol.name, symbol.address)) ∧
    table.size = (Event.names events).length := by
  intro table events
  have follows : Follows events table := follows_performAll operations
  refine ⟨operations_performAll {} operations, ?_, ?_, fun operation found => perform_of_error,
    follows.nodup, follows.names_eq, follows.symbols_eq, ?_, ?_⟩
  · intro name address location place sourceLine
    have looked : (table.lookup name place sourceLine).toOption = table.find? name := by
      unfold lookup
      cases table.find? name <;> rfl
    have limit : (Machine.maxAddress : Int) = 0xFFFFFFFF := rfl
    rw [perform, define, follows.frozen, looked, limit]
    by_cases ended : Event.frozen events = true
    · simp [ended]
    · by_cases fits : 0 ≤ address ∧ address ≤ 0xFFFFFFFF
      · simp [ended, fits]
      · simp [ended, fits]
  · intro name location sourceLine
    rw [perform, lookup, follows.find?_eq]
    cases Event.last? events name <;> rfl
  · rw [← follows.symbols_eq]
    rfl
  · rw [← follows.names_eq, names, List.length_map]
    rfl

/-- Behind a clearing a label is bound again, and again in its place; freezing then keeps what is bound. -/
theorem settled_by_history_cleared :
    let operations : List Operation := [.define "OLD" 8 none, .freeze, .define "LATE" 16 none, .clear,
      .define "B" 4096 none, .define "A" 4104 none, .define "B" (-1) none,
      .define "B" 4294967295 (some ⟨"demo", 3, 1⟩), .freeze]
    let table := (performAll {} operations).2
    table.frozen = true ∧ (table.perform (.define "C" (-1) none)).1 =
        .error { fault := .tableFrozen "C" } ∧
      table.bindings = ([("B", 4294967295), ("A", 4104)] : List (Text × Nat)) ∧
      table.perform (.lookup "B" none none) =
        (.ok (some ⟨"B", 4294967295, some ⟨"demo", 3, 1⟩⟩), table) := by
  intro operations table
  obtain ⟨-, defined, looked, -, -, -, -, bindings, -⟩ := settled_by_history operations
  refine ⟨by decide +kernel, ?_, ?_, looked "B" none none⟩
  · exact (defined "C" (-1) none none none).trans (if_pos (by decide +kernel))
  · exact bindings

end TwoPass.SymbolTable
