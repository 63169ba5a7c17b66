import TwoPass.Text.Basic

/-! Numbers as text. Decimal conversion in either direction is bounded: a numeral of more than 4300
digits is neither read nor written. Hexadecimal numerals are read without a bound. -/

set_option autoImplicit false

namespace TwoPass.Numeral

def digitLimit : Nat := 4300

inductive Fault where
  | noDigits
  | tooLongToRead (digits : Nat)
  | tooLongToWrite
  deriving DecidableEq, Repr

def decimalNat (value : Nat) : Text := Nat.toDigits 10 value

def decimal (value : Int) : Text :=
  if value < 0 then '-' :: decimalNat value.natAbs else decimalNat value.natAbs

def Fault.message : Fault → Text
  | .noDigits => "invalid literal for int() with base 10: ''"
  | .tooLongToRead digits =>
    "Exceeds the limit (4300 digits) for integer string conversion: value has " ++
      decimalNat digits ++ " digits; use sys.set_int_max_str_digits() to increase the limit"
  | .tooLongToWrite =>
    "Exceeds the limit (4300 digits) for integer string conversion; " ++
      "use sys.set_int_max_str_digits() to increase the limit"

def write (value : Int) : Except Fault Text :=
  if (decimalNat value.natAbs).length ≤ digitLimit then .ok (decimal value)
  else .error .tooLongToWrite

/-- Reads ASCII digits as a decimal numeral; leading zeros count towards its length. -/
def read (digits : Text) : Except Fault Nat :=
  if digits.isEmpty then .error .noDigits
  else if digitLimit < digits.length then .error (.tooLongToRead digits.length)
  else .ok (Nat.ofDigitChars 10 digits 0)

def isHexDigit (c : Char) : Bool :=
  c.isDigit || ('a' ≤ c && c ≤ 'f') || ('A' ≤ c && c ≤ 'F')

def hexDigitValue (c : Char) : Nat :=
  if c.isDigit then c.toNat - '0'.toNat
  else if 'a' ≤ c then c.toNat - 'a'.toNat + 10
  else c.toNat - 'A'.toNat + 10

def readHex (digits : Text) : Nat :=
  digits.foldl (fun value c => 16 * value + hexDigitValue c) 0

def hexNat (width value : Nat) : Text :=
  ((Nat.toDigits 16 value).map Char.toUpper).leftpad width '0'

/-- Upper case hexadecimal with its mark; the sign of a negative value follows the mark. -/
def hex (value : Int) : Text :=
  if value < 0 then "0x-" ++ hexNat 0 value.natAbs else "0x" ++ hexNat 0 value.natAbs

end TwoPass.Numeral
