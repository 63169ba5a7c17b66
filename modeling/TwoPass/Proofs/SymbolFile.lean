import TwoPass.Proofs.FileTree
import TwoPass.Proofs.Numeral
import TwoPass.Proofs.TableHistory
import TwoPass.Session

/-! The symbol file and the table it was written from.

A symbol file has a line for each binding of a table, in the order of addresses and, at one address, of
names. A line holds the name and the address in two notations, from either of which the table can be
told. The file does not depend on how the table has come about: tables that bind the same names to the
same addresses have the same file, and no others have. -/

set_option autoImplicit false

namespace TwoPass

theorem Text.lex_of_le {first second : Text} (ordered : le first second = true)
    (different : first ≠ second) :
    List.Lex (fun c d : Char => c.toNat < d.toNat) first second := by
  induction first generalizing second with
  | nil =>
    cases second with
    | nil => exact absurd rfl different
    | cons d second => exact .nil
  | cons c first ih =>
    cases second with
    | nil => cases ordered
    | cons d second =>
      simp only [le, Bool.or_eq_true, decide_eq_true_eq, Bool.and_eq_true, beq_iff_eq] at ordered
      rcases ordered with lower | ⟨rfl, ordered⟩
      · exact .rel lower
      · exact .cons (ih ordered fun same => different (congrArg (c :: ·) same))

def Symbol.binding (symbol : Symbol) : Text × Nat := (symbol.name, symbol.address)

namespace SymbolTable

/-- By address, and at one address by the code points of the names. -/
def Precedes (first second : Text × Nat) : Prop :=
  first.2 < second.2 ∨
    first.2 = second.2 ∧ List.Lex (fun c d : Char => c.toNat < d.toNat) first.1 second.1

def atMost (first second : Text × Nat) : Bool :=
  first.2 < second.2 || (first.2 == second.2 && first.1.le second.1)

theorem atMost_iff {first second : Text × Nat} : atMost first second = true ↔
    first.2 < second.2 ∨ first.2 = second.2 ∧ first.1.le second.1 = true := by
  rw [atMost, Bool.or_eq_true, decide_eq_true_eq, Bool.and_eq_true, beq_iff_eq]

theorem atMost_trans (first second third : Text × Nat) (forth : atMost first second = true)
    (further : atMost second third = true) : atMost first third = true := by
  rw [atMost_iff] at *
  rcases forth with lower | ⟨same, named⟩
  · rcases further with later | ⟨equal, -⟩
    · exact .inl (by omega)
    · exact .inl (by omega)
  · rcases further with later | ⟨equal, next⟩
    · exact .inl (by omega)
    · exact .inr ⟨same.trans equal, Text.le_trans named next⟩

theorem atMost_total (first second : Text × Nat) :
    (atMost first second || atMost second first) = true := by
  rw [Bool.or_eq_true, atMost_iff, atMost_iff]
  rcases Nat.lt_trichotomy first.2 second.2 with lower | same | higher
  · exact .inl (.inl lower)
  · have named := Text.le_total first.1 second.1
    rw [Bool.or_eq_true] at named
    exact named.imp (fun ordered => .inr ⟨same, ordered⟩) fun ordered => .inr ⟨same.symm, ordered⟩
  · exact .inr (.inl higher)

theorem atMost_antisymm {first second : Text × Nat} (forth : atMost first second = true)
    (back : atMost second first = true) : first = second := by
  rw [atMost_iff] at forth back
  rcases forth with lower | ⟨same, forth⟩
  · omega
  · rcases back with lower | ⟨-, back⟩
    · omega
    · exact Prod.ext (Text.le_antisymm forth back) same

theorem precedes_of_atMost {first second : Text × Nat} (ordered : atMost first second = true)
    (different : first.1 ≠ second.1) : Precedes first second :=
  (atMost_iff.mp ordered).imp_right fun ⟨same, named⟩ => ⟨same, Text.lex_of_le named different⟩

def listed (table : SymbolTable) : List (Text × Nat) := table.byAddress.map Symbol.binding

section
variable {table : SymbolTable}

theorem listed_perm (table : SymbolTable) : table.listed.Perm table.bindings :=
  (List.mergeSort_perm table.symbols _).map Symbol.binding

theorem listed_ordered (table : SymbolTable) :
    table.listed.Pairwise fun first second => atMost first second = true :=
  List.pairwise_map.mpr (List.pairwise_mergeSort
    (fun first second third => atMost_trans first.binding second.binding third.binding)
    (fun first second => atMost_total first.binding second.binding) table.symbols)

/-- There is one order only in which bindings can be listed. -/
theorem listed_eq {list : List (Text × Nat)} (same : list.Perm table.bindings)
    (ordered : list.Pairwise fun first second => atMost first second = true) : table.listed = list :=
  List.Perm.eq_of_pairwise (fun _ _ _ _ => atMost_antisymm) table.listed_ordered ordered
    (table.listed_perm.trans same.symm)

theorem pairwise_ne_of_perm {list : List (Text × Nat)} (same : list.Perm table.bindings)
    (distinct : table.names.Nodup) : list.Pairwise fun first second => first.1 ≠ second.1 := by
  rw [← map_fst_bindings, ← (same.map Prod.fst).nodup_iff] at distinct
  exact List.pairwise_map.mp distinct

theorem listed_precedes (distinct : table.names.Nodup) : table.listed.Pairwise Precedes :=
  (table.listed_ordered.and (pairwise_ne_of_perm table.listed_perm distinct)).imp fun both =>
    precedes_of_atMost both.1 both.2

end

/-- A line that shows a binding: the name, eight upper-case hexadecimal digits and the decimal ones. -/
def Shows (binding : Text × Nat) (line : Text) : Prop :=
  ∃ digits : Text, digits.length = 8 ∧ (∀ c ∈ digits, c ∈ ("0123456789ABCDEF" : Text)) ∧
    Numeral.positional 16 digits = binding.2 ∧
    line = binding.1 ++ " = 0x" ++ digits ++ " (" ++ Nat.repr binding.2 ++ ")"

def fileHeader : List Text := ["# Symbol table", "# Generated by tkasm"]

def fileLine (binding : Text × Nat) : Text :=
  binding.1 ++ " = 0x" ++ Numeral.hexNat 8 binding.2 ++ " (" ++ Numeral.decimalNat binding.2 ++ ")"

structure FileEntry where
  name : Text
  hexadecimal : Nat
  decimal : Nat
  deriving DecidableEq, Repr

def FileEntry.ofBinding (binding : Text × Nat) : FileEntry := ⟨binding.1, binding.2, binding.2⟩

def numberBehind? (beginning text : Text) : Option (Nat × Text) := do
  let digits ← beginning.isPrefixOf? text
  let number ← (Scan.unsigned digits).toOption
  some (number.1, number.2.2)

/-- Reads a line as a name, a number behind an equals sign and another one in parentheses. -/
def FileEntry.read? (line : Text) : Option FileEntry := do
  let hexadecimal ← numberBehind? " = " (line.dropWhile Text.isNameChar)
  let decimal ← numberBehind? " (" hexadecimal.2
  if decimal.2 = [')'] then some ⟨line.takeWhile Text.isNameChar, hexadecimal.1, decimal.1⟩ else none

def Writable (binding : Text × Nat) : Prop :=
  Text.isName binding.1 = true ∧ binding.2 ≤ Machine.maxAddress

section
variable {binding : Text × Nat}

theorem fileText_eq (table : SymbolTable) :
    table.fileText = (fileHeader ++ table.listed.map fileLine).flatMap (· ++ ['\n']) := by
  have line (symbol : Symbol) : fileLine symbol.binding ++ ['\n'] =
      symbol.name ++ " = 0x" ++ Numeral.hexNat 8 symbol.address ++ " (" ++
        Numeral.decimalNat symbol.address ++ ")\n" :=
    List.append_assoc _ _ _
  rw [List.flatMap_append, listed, List.map_map, List.flatMap_map]
  simp only [Function.comp, line]
  rfl

theorem shows_fileLine (writable : Writable binding) : Shows binding (fileLine binding) := by
  refine ⟨Numeral.hexNat 8 binding.2, Numeral.length_hexNat (by decide) ?_,
    fun c => Numeral.mem_hexNat, Numeral.positional_hexNat 8 binding.2, ?_⟩
  · -- eight digits are enough for 32 bits
    have small := writable.2
    rw [Machine.maxAddress] at small
    omega
  · rw [Nat.toList_repr]
    rfl

theorem unbroken_fileLine (writable : Writable binding) : Text.Unbroken (fileLine binding) := by
  have name := Text.unbroken_of_isNameChar (Scan.isNameChar_of_mem_name writable.1)
  have hexadecimal := Numeral.unbroken_hexNat 8 binding.2
  have decimal := Numeral.unbroken_decimalNat binding.2
  have equals : Text.Unbroken " = 0x" := Text.unbroken_of_all rfl
  have opening : Text.Unbroken " (" := Text.unbroken_of_all rfl
  have closing : Text.Unbroken ")" := Text.unbroken_of_all rfl
  exact ((((name.append equals).append hexadecimal).append opening).append decimal).append closing

theorem numberBehind?_append {beginning digits taken rest : Text} {value : Nat}
    (read : Scan.unsigned digits = .ok (value, taken, rest)) :
    numberBehind? beginning (beginning ++ digits) = some (value, rest) := by
  have behind : beginning.isPrefixOf? (beginning ++ digits) = some digits := by
    induction beginning with
    | nil => rfl
    | cons c more ih => rw [List.cons_append, List.isPrefixOf?, if_pos (beq_self_eq_true c), ih]
  rw [numberBehind?, behind]
  simp only [Option.bind_eq_bind, Option.bind_some, read, Except.toOption]

theorem numberBehind?_hexNat (beginning : Text) (width value : Nat) {rest : Text}
    (ends : Scan.Apart rest) :
    numberBehind? beginning (beginning ++ (['0', 'x'] ++ Numeral.hexNat width value ++ rest)) =
      some (value, rest) := by
  obtain ⟨some_digit, allDigits, same⟩ := Numeral.hexNat_digits width value
  have read := Scan.unsigned_hexadecimal (.inl rfl) allDigits some_digit ends
  rw [same] at read
  exact numberBehind?_append read

theorem numberBehind?_decimalNat (beginning : Text) {value : Nat} (small : value ≤ Machine.maxAddress)
    {rest : Text} (ends : Scan.Apart rest) :
    numberBehind? beginning (beginning ++ (Numeral.decimalNat value ++ rest)) = some (value, rest) := by
  have read := Scan.unsigned_decimal (fun c => @Numeral.isDigit_of_mem_decimalNat value c)
    (Numeral.decimalNat_ne_nil value) (Numeral.short_of_le_maxAddress small) ends
  have same : Nat.ofDigitChars 10 (Numeral.decimalNat value) 0 = value :=
    Nat.ofDigitChars_ten_toDigits
  rw [same] at read
  exact numberBehind?_append read

theorem read?_fileLine (writable : Writable binding) :
    FileEntry.read? (fileLine binding) = some (.ofBinding binding) := by
  obtain ⟨valid, small⟩ := writable
  have inside := Scan.isNameChar_of_mem_name valid
  have whole : fileLine binding = binding.1 ++ (" = " ++ (['0', 'x'] ++ Numeral.hexNat 8 binding.2 ++
      (" (" ++ (Numeral.decimalNat binding.2 ++ [')'])))) := by
    simp [fileLine]
  -- behind the name and behind either number stands a character that belongs to none of them
  have behindName (rest : Text) : Scan.Apart (" = " ++ rest) := Scan.apart_cons (by decide)
  have behindFirst (rest : Text) : Scan.Apart (" (" ++ rest) := Scan.apart_cons (by decide)
  have behindSecond : Scan.Apart [')'] := Scan.apart_cons (by decide)
  rw [FileEntry.read?, whole, Scan.takeWhile_append inside (fun _ named => named) (behindName _),
    Scan.dropWhile_append inside (fun _ named => named) (behindName _),
    numberBehind?_hexNat _ 8 binding.2 (behindFirst _)]
  simp only [Option.bind_eq_bind, Option.bind_some,
    numberBehind?_decimalNat _ small behindSecond, if_true]
  rfl

end

/-- A table in which every name is bound once, to an address of 32 bits. -/
structure Orderly (table : SymbolTable) : Prop where
  distinct : table.names.Nodup
  writable : ∀ symbol ∈ table.symbols, Writable symbol.binding

def Operation.isNamed : Operation → Bool
  | .define name _ _ => Text.isName name
  | _ => true

theorem orderly_performAll {operations : List Operation}
    (named : ∀ operation ∈ operations, operation.isNamed = true) : Orderly (performAll {} operations).2 where
  distinct := (follows_performAll operations).nodup
  writable := by
    refine forall_symbols_performAll (fun symbol member => absurd member List.not_mem_nil) ?_
    intro name address location defined low high
    have small : address.toNat ≤ Machine.maxAddress := by omega
    exact ⟨named _ defined, small⟩

namespace Orderly

variable {table other : SymbolTable}

theorem writable_of_listed (orderly : Orderly table) :
    ∀ binding ∈ table.listed, Writable binding := by
  intro binding member
  obtain ⟨symbol, own, rfl⟩ := List.mem_map.mp (table.listed_perm.mem_iff.mp member)
  exact orderly.writable symbol own

theorem splitLines_fileText (orderly : Orderly table) :
    Text.splitLines table.fileText = fileHeader ++ table.listed.map fileLine := by
  rw [fileText_eq]
  apply Text.splitLines_flatMap
  intro line member
  rcases List.mem_append.mp member with header | written
  · have whole : ∀ line ∈ fileHeader, line.all (!Text.isLineBreak ·) = true :=
      List.forall_mem_cons.mpr ⟨rfl, List.forall_mem_singleton.mpr rfl⟩
    exact Text.unbroken_of_all (whole line header)
  · obtain ⟨binding, own, rfl⟩ := List.mem_map.mp written
    exact unbroken_fileLine (orderly.writable_of_listed binding own)

theorem map_read?_fileLine (orderly : Orderly table) :
    (table.listed.map fileLine).map FileEntry.read? =
      (table.listed.map FileEntry.ofBinding).map some := by
  rw [List.map_map, List.map_map]
  exact List.map_congr_left fun binding own => read?_fileLine (orderly.writable_of_listed binding own)

theorem mem_listed_iff (orderly : Orderly table) {name : Text} {address : Nat} :
    (name, address) ∈ table.listed ↔ table.address? name = some address := by
  rw [table.listed_perm.mem_iff, mem_bindings_iff orderly.distinct]

theorem mem_entries_iff (orderly : Orderly table) {value : FileEntry → Nat}
    (told : ∀ binding, value (.ofBinding binding) = binding.2) {name : Text} {address : Nat} :
    (name, address) ∈ (table.listed.map FileEntry.ofBinding).map
        (fun entry => (entry.name, value entry)) ↔ table.address? name = some address := by
  have back : (table.listed.map FileEntry.ofBinding).map (fun entry => (entry.name, value entry)) =
      table.listed := by
    have same : (fun entry => (entry.name, value entry)) ∘ FileEntry.ofBinding = id :=
      funext fun binding => Prod.ext rfl (told binding)
    rw [List.map_map, same, List.map_id]
  rw [back, orderly.mem_listed_iff]

theorem listed_eq_of_address? (orderly : Orderly table) (others : Orderly other)
    (same : ∀ name, other.address? name = table.address? name) : other.listed = table.listed := by
  -- the bindings are the same but for their order, which the file does not keep
  have nodup {table : SymbolTable} (orderly : Orderly table) : table.bindings.Nodup := by
    have distinct := orderly.distinct
    rw [← map_fst_bindings] at distinct
    exact distinct.of_map Prod.fst
  refine (listed_eq (other.listed_perm.trans ?_) other.listed_ordered).symm
  rw [List.perm_ext_iff_of_nodup (nodup others) (nodup orderly)]
  rintro ⟨name, address⟩
  rw [mem_bindings_iff others.distinct, mem_bindings_iff orderly.distinct, same]

theorem listed_eq_of_fileText (orderly : Orderly table) (others : Orderly other)
    (same : other.fileText = table.fileText) : other.listed = table.listed := by
  have injective : Function.Injective FileEntry.ofBinding := fun first second equal =>
    Prod.ext (congrArg FileEntry.name equal) (congrArg FileEntry.decimal equal)
  have split := congrArg Text.splitLines same
  rw [orderly.splitLines_fileText, others.splitLines_fileText] at split
  -- the same lines are read as the same entries
  have read := congrArg (List.map FileEntry.read?) (List.append_cancel_left split)
  rw [orderly.map_read?_fileLine, others.map_read?_fileLine] at read
  exact injective.list_map ((Option.some_injective FileEntry).list_map read)

/-- A file tells the addresses of all names, and nothing else of the table. -/
theorem fileText_eq_iff (orderly : Orderly table) (others : Orderly other) :
    other.fileText = table.fileText ↔ ∀ name, other.address? name = table.address? name := by
  constructor
  · intro same name
    ext address
    rw [← others.mem_listed_iff, orderly.listed_eq_of_fileText others same, orderly.mem_listed_iff]
  · intro same
    rw [fileText_eq, fileText_eq, orderly.listed_eq_of_address? others same]

end Orderly

end SymbolTable

theorem Session.writeSymbols_of_target (session : Session) {tree : FileTree} {path : Path} {place : Place}
    (writable : tree.target path.text = .ok place) :
    ∃ later after, session.writeSymbols tree path.text = .ok (later, after) ∧
      after.read path = .ok (Utf8.encode session.run.symbols.fileText) := by
  have written := FileTree.writeText_of_target writable session.run.symbols.fileText
  refine ⟨session.note (.wroteSymbols path.text), _, ?_, FileTree.read_of_writeText written⟩
  rw [writeSymbols, written]
  rfl

namespace SymbolTable

/-- A symbol file is settled by the addresses of the names of a table and tells all of them. Behind its
header it has a line for each binding, strictly in order, from which the name and the address can be
read in either notation. -/
theorem file_tells_addresses (operations : List Operation)
    (named : ∀ operation ∈ operations, operation.isNamed = true) :
    let table := (performAll {} operations).2
    (∃ (listed : List (Text × Nat)) (lines : List Text) (entries : List FileEntry),
      listed.Perm table.bindings ∧ listed.Pairwise Precedes ∧
      Text.splitLines table.fileText = fileHeader ++ lines ∧
      List.Forall₂ Shows listed lines ∧ lines.map FileEntry.read? = entries.map some ∧
      ∀ name address,
        ((name, address) ∈ entries.map (fun entry => (entry.name, entry.hexadecimal)) ↔
          table.address? name = some address) ∧
        ((name, address) ∈ entries.map (fun entry => (entry.name, entry.decimal)) ↔
          table.address? name = some address)) ∧
    (∀ others : List Operation, (∀ operation ∈ others, operation.isNamed = true) →
      ((performAll {} others).2.fileText = table.fileText ↔
        ∀ name, (performAll {} others).2.address? name = table.address? name)) ∧
    (∀ (session : Session) (tree : FileTree) (path : Path) (place : Place),
      session.run.symbols = table → tree.target path.text = .ok place →
        ∃ later after, session.writeSymbols tree path.text = .ok (later, after) ∧
          after.read path = .ok (Utf8.encode table.fileText)) := by
  intro table
  have orderly : Orderly table := orderly_performAll named
  refine ⟨⟨table.listed, table.listed.map fileLine, table.listed.map FileEntry.ofBinding,
    table.listed_perm, listed_precedes orderly.distinct, orderly.splitLines_fileText, ?_,
    orderly.map_read?_fileLine, ?_⟩, ?_, ?_⟩
  · rw [List.forall₂_map_right_iff, List.forall₂_same]
    exact fun binding own => shows_fileLine (orderly.writable_of_listed binding own)
  · exact fun name address =>
      ⟨orderly.mem_entries_iff fun _ => rfl, orderly.mem_entries_iff fun _ => rfl⟩
  · exact fun others alsoNamed => orderly.fileText_eq_iff (orderly_performAll alsoNamed)
  · intro session tree path place holds writable
    rw [← holds]
    exact session.writeSymbols_of_target writable

/-- Labels that are bound twice or to the same address, in a program and in another order. -/
theorem file_tells_addresses_tied :
    let operations : List Operation := [.define "B" 4096 (some ⟨"demo", 2, 1⟩),
      .define "A" 4100 (some ⟨"demo", 4, 1⟩), .define "B" 4104 (some ⟨"demo", 6, 1⟩),
      .define "_end" 4104 (some ⟨"demo", 7, 1⟩), .freeze]
    let others : List Operation := [.define "_end" 4104 none, .define "A" 4294967295 none,
      .define "B" 4104 none, .define "A" 4294967296 none, .define "A" 4100 none]
    let table := (performAll {} operations).2
    let session := (Session.start {}).assembleText "demo" ".code\n:B\nhalt\n:A\nclr r1\n:B\n:_end\n"
    session.run.symbols = table ∧ (performAll {} others).2.fileText = table.fileText ∧
      table.fileText = ("# Symbol table\n# Generated by tkasm\nA = 0x00001004 (4100)\n" ++
        "B = 0x00001008 (4104)\n_end = 0x00001008 (4104)\n" : Text) ∧
      ∃ later after, session.writeSymbols {} "demo.sym" = .ok (later, after) ∧
        after.read (Path.ofText "demo.sym") = .ok (Utf8.encode table.fileText) := by
  intro operations others table session
  have named : ∀ operation ∈ operations, operation.isNamed = true := List.all_eq_true.mp rfl
  have alsoNamed : ∀ operation ∈ others, operation.isNamed = true := List.all_eq_true.mp rfl
  obtain ⟨-, settled, written⟩ := file_tells_addresses operations named
  have held : session.run.symbols = table := by decide +kernel
  have reordered : (performAll {} others).2.bindings.Perm table.bindings := by decide +kernel
  have listed : table.listed = ([("A", 4100), ("B", 4104), ("_end", 4104)] : List (Text × Nat)) :=
    listed_eq (by decide +kernel) (by decide +kernel)
  refine ⟨held, (settled others alsoNamed).mpr fun name => ?_, ?_,
    written session {} (Path.ofText "demo.sym") ["demo.sym"] held rfl⟩
  · ext address
    rw [← mem_bindings_iff (orderly_performAll alsoNamed).distinct, reordered.mem_iff,
      mem_bindings_iff (orderly_performAll named).distinct]
  · rw [fileText_eq, listed]
    decide +kernel

end SymbolTable

end TwoPass
