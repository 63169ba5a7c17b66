/-! Text is the list of its characters. Offsets, columns, indents and widths all count characters,
and a string literal stands for its characters wherever text is expected. -/

set_option autoImplicit false

namespace TwoPass

abbrev Text := List Char

instance : Coe String Text := ⟨String.toList⟩

namespace Text

def join (separator : Text) (parts : List Text) : Text := separator.intercalate parts

def lines (parts : List Text) : Text := join "\n" parts

def apostrophized (text : Text) : Text := "'" ++ text ++ "'"

def slice (text : Text) (start stop : Nat) : Text := (text.take stop).drop start

def upTo (mark : Char) (text : Text) : Text := text.takeWhile (· != mark)

def startsWith (text beginning : Text) : Bool := beginning.isPrefixOf text

def trimEnd (drop : Char → Bool) (text : Text) : Text := (text.reverse.dropWhile drop).reverse

end Text

end TwoPass
