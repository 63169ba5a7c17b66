import TwoPass.Numeral
import TwoPass.Text.Blank
import TwoPass.Text.Digit

/-! Integers as they are given on the command line: decimal, or in base 16, 8 or 2 behind a mark, with
single underscores between digits. -/

set_option autoImplicit false

namespace TwoPass.Command.Integer

/-- Blanks that may surround the number; the information separators are none of them. -/
def isMargin (c : Char) : Bool := Text.isBlank c && !(0x1C ≤ c.toNat && c.toNat ≤ 0x1F)

def trimMargin (text : Text) : Text := Text.trimEnd isMargin (text.dropWhile isMargin)

def digitValue? (c : Char) : Option Nat :=
  match Text.decimalValue? c with
  | some value => some value
  | none => if Numeral.isHexDigit c then some (Numeral.hexDigitValue c) else none

/-- The digits of a numeral, between which single underscores may stand. -/
def digits? (base : Nat) : Text → Option (List Nat)
  | [] => none
  | [c] => (digitValue? c).bind fun value => if value < base then some [value] else none
  | c :: '_' :: rest => (digitValue? c).bind fun value =>
    if value < base then (value :: ·) <$> digits? base rest else none
  | c :: rest => (digitValue? c).bind fun value =>
    if value < base then (value :: ·) <$> digits? base rest else none

def valueOf (base : Nat) (digits : List Nat) : Nat :=
  digits.foldl (fun value digit => base * value + digit) 0

/-- A numeral behind the mark of its base; one underscore may follow the mark. -/
def readMarked (base : Nat) (rest : Text) : Option Nat :=
  let body := match rest with
    | '_' :: rest => rest
    | rest => rest
  (digits? base body).map (valueOf base)

/-- A decimal numeral of bounded length. One that begins with a zero has only zeros. -/
def readPlain (text : Text) : Option Nat := do
  let digits ← digits? 10 text
  if Numeral.digitLimit < digits.length then none
  else if digits.head? == some 0 && valueOf 10 digits != 0 then none
  else pure (valueOf 10 digits)

def markedBase? (letter : Char) : Option Nat :=
  if letter == 'x' || letter == 'X' then some 16
  else if letter == 'o' || letter == 'O' then some 8
  else if letter == 'b' || letter == 'B' then some 2
  else none

def readUnsigned (text : Text) : Option Nat :=
  match text with
  | first :: letter :: rest =>
    match Text.decimalValue? first, markedBase? letter with
    | some 0, some base => readMarked base rest
    | _, _ => readPlain text
  | _ => readPlain text

def read (text : Text) : Option Int :=
  match trimMargin text with
  | '-' :: rest => (readUnsigned rest).map fun value => -(value : Int)
  | '+' :: rest => (readUnsigned rest).map Int.ofNat
  | rest => (readUnsigned rest).map Int.ofNat

end TwoPass.Command.Integer
