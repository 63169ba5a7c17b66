import Mathlib.Data.List.Basic
import Mathlib.Data.Nat.Digits.Defs
import TwoPass.Proofs.Printing
import TwoPass.Proofs.Text.LineBreak

/-! Numbers and their digits.

A digit stands for its place among the sixteen, and digits in a row for a number by the places at which
they stand. That is the number that reading gives, whether by the scanner or from digits that were
written. -/

set_option autoImplicit false

namespace TwoPass

namespace Numeral

def digitRank (c : Char) : Nat := ("0123456789abcdef" : Text).idxOf c.toLower

/-- The number that digits stand for in a base; the last of them counts ones. -/
def positional (base : Nat) (digits : Text) : Nat :=
  Nat.ofDigits base (digits.reverse.map digitRank)

inductive Magnitude : Text → Nat → Prop
  | decimal {digits : Text} : digits ≠ [] → (∀ c ∈ digits, c.isDigit = true) →
    Magnitude digits (positional 10 digits)
  | hexadecimal {mark digits : Text} : Scan.IsHexMark mark → digits ≠ [] →
    (∀ c ∈ digits, isHexDigit c = true) → Magnitude (mark ++ digits) (positional 16 digits)

inductive Denotes : Text → Int → Prop
  | plain {text : Text} {value : Nat} : Magnitude text value → Denotes text value
  | plus {text : Text} {value : Nat} : Magnitude text value → Denotes ('+' :: text) value
  | minus {text : Text} {value : Nat} : Magnitude text value → Denotes ('-' :: text) (-value)

theorem foldl_eq_positional {base : Nat} {value : Char → Nat} {digits : Text}
    (ranked : ∀ c ∈ digits, value c = digitRank c) :
    digits.foldl (fun sum c => base * sum + value c) 0 = positional base digits := by
  -- digits are read from the left, and their places are counted from the right
  rw [positional, Nat.ofDigits_eq_foldr, List.foldr_map, List.foldr_reverse]
  refine List.foldl_ext _ _ 0 fun sum c member => ?_
  rw [ranked c member, Nat.add_comm]
  rfl

theorem hexDigitValue_eq_digitRank {c : Char} (digit : isHexDigit c = true) :
    hexDigitValue c = digitRank c := by
  -- all digits are ASCII, so there are few characters to look at
  have all : ∀ code < 128, isHexDigit (Char.ofNat code) = true →
      hexDigitValue (Char.ofNat code) = digitRank (Char.ofNat code) := by decide
  have small : c.toNat < 128 := by
    rw [Text.isHexDigit_iff] at digit
    omega
  rw [← Char.ofNat_toNat c] at digit ⊢
  exact all c.toNat small digit

theorem readHex_eq_positional {digits : Text} (allDigits : ∀ c ∈ digits, isHexDigit c = true) :
    readHex digits = positional 16 digits :=
  foldl_eq_positional fun c member => hexDigitValue_eq_digitRank (allDigits c member)

theorem ofDigitChars_eq_positional {digits : Text} (allDigits : ∀ c ∈ digits, c.isDigit = true) :
    Nat.ofDigitChars 10 digits 0 = positional 10 digits := by
  rw [Nat.ofDigitChars_eq_foldl]
  refine foldl_eq_positional fun c member => ?_
  have digit := allDigits c member
  have same : hexDigitValue c = c.toNat - '0'.toNat := if_pos digit
  have hex : isHexDigit c = true := by rw [isHexDigit, digit, Bool.true_or, Bool.true_or]
  rw [← same, hexDigitValue_eq_digitRank hex]

theorem Denotes.signed {sign text : Text} {value : Nat} (signs : Scan.IsSign sign)
    (digits : Magnitude text value) : Denotes (sign ++ text) (Scan.signed sign value) := by
  rcases signs with rfl | rfl | rfl
  · exact .plain digits
  · exact .plus digits
  · exact .minus digits

theorem denotes_of_spelled {text : Text} {value : Int}
    (spelled : (Lexeme.number value).Spelled text) : Denotes text value := by
  cases spelled with
  | decimal signs nonempty allDigits short =>
    rw [ofDigitChars_eq_positional allDigits]
    exact .signed signs (.decimal nonempty allDigits)
  | hexadecimal signs marks nonempty allDigits =>
    rw [readHex_eq_positional allDigits]
    exact .signed signs (.hexadecimal marks nonempty allDigits)

theorem digitChar_upper : ∀ digit < 16, digit.digitChar.toUpper.toLower = digit.digitChar ∧
    digit.digitChar.toUpper ∈ ("0123456789ABCDEF" : Text) := by
  decide

theorem map_toLower_upper (value : Nat) :
    ((Nat.toDigits 16 value).map Char.toUpper).map Char.toLower = Nat.toDigits 16 value := by
  rw [List.map_map]
  refine (List.map_congr_left fun c member => ?_).trans (List.map_id _)
  obtain ⟨digit, small, rfl⟩ := exists_digitChar_of_mem_toDigits member
  exact (digitChar_upper digit small).1

theorem mem_hexNat {width value : Nat} {c : Char} (member : c ∈ hexNat width value) :
    c ∈ ("0123456789ABCDEF" : Text) := by
  rcases mem_leftpad member with rfl | inside
  · decide
  · obtain ⟨lower, own, rfl⟩ := List.mem_map.mp inside
    obtain ⟨digit, small, rfl⟩ := exists_digitChar_of_mem_toDigits own
    exact (digitChar_upper digit small).2

theorem length_hexNat {width value : Nat} (some_width : 0 < width) (small : value < 16 ^ width) :
    (hexNat width value).length = width := by
  have fits := (Nat.length_toDigits_le_iff (by decide) some_width).mpr small
  rw [hexNat, List.length_leftpad, List.length_map, Nat.max_eq_left fits]

theorem hexNat_digits (width value : Nat) :
    hexNat width value ≠ [] ∧ (∀ c ∈ hexNat width value, isHexDigit c = true) ∧
      readHex (hexNat width value) = value :=
  hexadecimal_digits (map_toLower_upper value) width

theorem positional_hexNat (width value : Nat) : positional 16 (hexNat width value) = value := by
  obtain ⟨-, allDigits, same⟩ := hexNat_digits width value
  rw [← readHex_eq_positional allDigits, same]

theorem unbroken_hexNat (width value : Nat) : Text.Unbroken (hexNat width value) :=
  Text.unbroken_of_isNameChar fun c member =>
    Text.isNameChar_of_isHexDigit ((hexNat_digits width value).2.1 c member)

theorem unbroken_decimalNat (value : Nat) : Text.Unbroken (decimalNat value) :=
  Text.unbroken_of_isNameChar fun _ member =>
    Text.isNameChar_of_isDigit (isDigit_of_mem_decimalNat member)

end Numeral

end TwoPass
