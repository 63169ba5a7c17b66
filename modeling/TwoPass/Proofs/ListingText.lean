import TwoPass.Proofs.Run
import TwoPass.Proofs.SymbolFile
import TwoPass.Proofs.Text.Lines

/-! The text of a listing.

Behind its header a listing has a line for each entry, with the address, the number and the source of
the line that the entry is about. What was written for that line follows, indented, unless it is the
source itself. Then come the labels with their addresses, in the order of their names. -/

set_option autoImplicit false

namespace TwoPass

theorem Text.lines_append_feed {parts : List Text} (some_part : parts ≠ []) :
    lines parts ++ "\n" = parts.flatMap (· ++ ['\n']) := by
  induction parts with
  | nil => exact absurd rfl some_part
  | cons first rest ih =>
    by_cases last : rest = []
    · simp [last, lines, join, List.intercalate]
    · rw [lines_cons_of_ne_nil first last, List.flatMap_cons, ← ih last]
      simp

/-- The digits of a number in upper case, eight of them where they are enough. -/
structure Numeral.Hexadecimal (value : Nat) (digits : Text) : Prop where
  upper : ∀ c ∈ digits, c ∈ ("0123456789ABCDEF" : Text)
  eight : value < 16 ^ 8 → digits.length = 8
  meaning : positional 16 digits = value

theorem Numeral.hexadecimal_hexNat (value : Nat) : Hexadecimal value (hexNat 8 value) where
  upper _ := mem_hexNat
  eight := length_hexNat (by decide)
  meaning := positional_hexNat 8 value

def ListingEntry.Shown (entry : ListingEntry) (lines : List Text) : Prop :=
  ∃ digits, Numeral.Hexadecimal entry.address digits ∧
    lines = (digits ++ "  " ++ List.replicate (4 - (Nat.repr entry.number).length) ' ' ++
        Nat.repr entry.number ++ "  " ++ entry.source) ::
      if entry.written = [entry.source] then []
      else entry.written.map (List.replicate 20 ' ' ++ ·)

theorem ListingEntry.shown_lines (entry : ListingEntry) : entry.Shown entry.lines := by
  refine ⟨_, Numeral.hexadecimal_hexNat entry.address, ?_⟩
  have number : (Nat.repr entry.number).toList = Numeral.decimalNat entry.number := Nat.toList_repr
  have width : (Nat.repr entry.number).length = (Numeral.decimalNat entry.number).length := by
    rw [← number, String.length_toList]
  rw [width, number]
  simp [lines, List.leftpad]

namespace SymbolTable

variable {table : SymbolTable}

def ShownAs (binding : Text × Nat) (line : Text) : Prop :=
  ∃ digits, Numeral.Hexadecimal binding.2 digits ∧
    line = binding.1 ++ List.replicate (20 - binding.1.length) ' ' ++ " = 0x" ++ digits

def named (table : SymbolTable) : List (Text × Nat) := table.byName.map Symbol.binding

theorem named_perm (table : SymbolTable) : table.named.Perm table.bindings :=
  (List.mergeSort_perm table.symbols _).map Symbol.binding

theorem named_ordered (distinct : table.names.Nodup) : table.named.Pairwise fun first second =>
    List.Lex (fun c d : Char => c.toNat < d.toNat) first.1 second.1 := by
  have sorted : table.named.Pairwise fun first second => first.1.le second.1 = true :=
    List.pairwise_map.mpr (List.pairwise_mergeSort
      (fun (first second third : Symbol) => @Text.le_trans first.name second.name third.name)
      (fun first second => Text.le_total first.name second.name) table.symbols)
  exact (sorted.and (pairwise_ne_of_perm table.named_perm distinct)).imp fun both =>
    Text.lex_of_le both.1 both.2

end SymbolTable

def listingHeader : List Text :=
  ["Tinker Assembler Listing", List.replicate 60 '=', "", "Addr      Line  Source / Output",
   List.replicate 60 '-']

def labelHeader : List Text := ["", "Symbol Table", List.replicate 30 '-']

def Lists (entries : List ListingEntry) (table : SymbolTable) (text : Text) : Prop :=
  ∃ (shown : List (List Text)) (labels : List (Text × Nat)) (last : List Text),
    text = (listingHeader ++ shown.flatten ++ labelHeader ++ last).flatMap (· ++ ['\n']) ∧
      List.Forall₂ ListingEntry.Shown entries shown ∧
      labels.Perm table.bindings ∧
      labels.Pairwise (fun first second =>
        List.Lex (fun c d : Char => c.toNat < d.toNat) first.1 second.1) ∧
      List.Forall₂ SymbolTable.ShownAs labels last

theorem lists_listingText (entries : List ListingEntry) {table : SymbolTable}
    (distinct : table.names.Nodup) : Lists entries table (listingText entries table ++ "\n") := by
  refine ⟨entries.map ListingEntry.lines, table.named, table.byName.map fun symbol =>
    symbol.name.rightpad 20 ' ' ++ " = 0x" ++ Numeral.hexNat 8 symbol.address, ?_, ?_,
    table.named_perm, SymbolTable.named_ordered distinct, ?_⟩
  · rw [listingText, Text.lines_append_feed (by simp), List.flatMap_def]
    rfl
  · rw [List.forall₂_map_right_iff, List.forall₂_same]
    exact fun entry _ => entry.shown_lines
  · rw [SymbolTable.named, List.forall₂_map_left_iff, List.forall₂_map_right_iff, List.forall₂_same]
    intro symbol _
    exact ⟨_, Numeral.hexadecimal_hexNat symbol.address, rfl⟩

namespace Run

variable {settings : Settings} {file : Text} {lines : List Text}

theorem lists_of_outcome (returned : (Run.ofLines settings file lines).outcome = .ok ()) :
    let run := Run.ofLines settings file lines
    Lists run.listing run.symbols (run.listingText ++ "\n") := by
  obtain ⟨placements, finish, assembled⟩ := assembled_of_outcome returned
  apply lists_listingText
  rw [assembled.symbols]
  exact SymbolTable.nodup_insertAll _

end Run

end TwoPass
