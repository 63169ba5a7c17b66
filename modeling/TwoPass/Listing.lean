import TwoPass.SymbolTable

/-! The listing of a run and the symbol file. -/

set_option autoImplicit false

namespace TwoPass

structure ListingEntry where
  address : Nat
  number : Nat
  source : Text
  written : List Text
  deriving DecidableEq, Repr

def ListingEntry.lines (entry : ListingEntry) : List Text :=
  let headline := Numeral.hexNat 8 entry.address ++ "  " ++
    (Numeral.decimalNat entry.number).leftpad 4 ' ' ++ "  " ++ entry.source
  let written := entry.written.map fun text => List.replicate 20 ' ' ++ text
  headline :: if entry.written = [entry.source] then [] else written

namespace SymbolTable

def byName (table : SymbolTable) : List Symbol :=
  table.symbols.mergeSort fun a b => a.name.le b.name

def byAddress (table : SymbolTable) : List Symbol :=
  table.symbols.mergeSort fun a b =>
    a.address < b.address || (a.address == b.address && a.name.le b.name)

/-- The symbol file: a line for each label, sorted by address and then by name. -/
def fileText (table : SymbolTable) : Text :=
  let line (symbol : Symbol) : Text :=
    symbol.name ++ " = 0x" ++ Numeral.hexNat 8 symbol.address ++ " (" ++
      Numeral.decimalNat symbol.address ++ ")\n"
  "# Symbol table\n# Generated by tkasm\n" ++ table.byAddress.flatMap line

end SymbolTable

def listingText (entries : List ListingEntry) (table : SymbolTable) : Text :=
  let header : List Text :=
    ["Tinker Assembler Listing", List.replicate 60 '=', "", "Addr      Line  Source / Output",
     List.replicate 60 '-']
  let middle : List Text := ["", "Symbol Table", List.replicate 30 '-']
  let symbols := table.byName.map fun symbol =>
    symbol.name.rightpad 20 ' ' ++ " = 0x" ++ Numeral.hexNat 8 symbol.address
  Text.lines (header ++ entries.flatMap ListingEntry.lines ++ middle ++ symbols)

end TwoPass
