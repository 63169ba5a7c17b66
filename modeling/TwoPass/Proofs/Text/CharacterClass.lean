import TwoPass.Numeral
import TwoPass.Text.Blank
import TwoPass.Text.Digit
import TwoPass.Text.LineBreak
import TwoPass.Text.Name
import TwoPass.Text.WordCharacter

/-! How the classes of characters lie to one another.

Each class is told by ranges of code points first; that one class is part of another, or apart from
it, is then a matter of arithmetic. -/

set_option autoImplicit false

namespace TwoPass.Text

theorem isDigit_iff {c : Char} : c.isDigit = true ↔ 48 ≤ c.toNat ∧ c.toNat ≤ 57 := by
  simp [Char.isDigit, UInt32.le_iff_toNat_le]

theorem isUpper_iff {c : Char} : c.isUpper = true ↔ 65 ≤ c.toNat ∧ c.toNat ≤ 90 := by
  change decide (c.val ≥ 65 ∧ c.val ≤ 90) = true ↔ _
  simp [UInt32.le_iff_toNat_le]

theorem isLower_iff {c : Char} : c.isLower = true ↔ 97 ≤ c.toNat ∧ c.toNat ≤ 122 := by
  change (decide (c.val ≥ 97) && decide (c.val ≤ 122)) = true ↔ _
  simp [UInt32.le_iff_toNat_le]

theorem isAlpha_iff {c : Char} : c.isAlpha = true ↔
    65 ≤ c.toNat ∧ c.toNat ≤ 90 ∨ 97 ≤ c.toNat ∧ c.toNat ≤ 122 := by
  change (c.isUpper || c.isLower) = true ↔ _
  rw [Bool.or_eq_true, isUpper_iff, isLower_iff]

theorem isNameStart_iff {c : Char} : isNameStart c = true ↔
    65 ≤ c.toNat ∧ c.toNat ≤ 90 ∨ 97 ≤ c.toNat ∧ c.toNat ≤ 122 ∨ c.toNat = 95 := by
  have underscore : c = '_' ↔ c.toNat = 95 := Char.toNat_inj.symm
  rw [isNameStart, Bool.or_eq_true, isAlpha_iff, or_assoc, beq_iff_eq, underscore]

theorem isNameChar_iff {c : Char} : isNameChar c = true ↔
    48 ≤ c.toNat ∧ c.toNat ≤ 57 ∨ 65 ≤ c.toNat ∧ c.toNat ≤ 90 ∨
      97 ≤ c.toNat ∧ c.toNat ≤ 122 ∨ c.toNat = 95 := by
  have underscore : c = '_' ↔ c.toNat = 95 := Char.toNat_inj.symm
  rw [isNameChar, Bool.or_eq_true, Char.isAlphanum, Bool.or_eq_true, isAlpha_iff, isDigit_iff,
    beq_iff_eq, underscore]
  omega

theorem isHexDigit_iff {c : Char} : Numeral.isHexDigit c = true ↔
    48 ≤ c.toNat ∧ c.toNat ≤ 57 ∨ 65 ≤ c.toNat ∧ c.toNat ≤ 70 ∨ 97 ≤ c.toNat ∧ c.toNat ≤ 102 := by
  simp [Numeral.isHexDigit, Char.isDigit, Char.le_def, UInt32.le_iff_toNat_le, or_assoc]
  omega

theorem isNameChar_of_isDigit {c : Char} (digit : c.isDigit = true) : isNameChar c = true := by
  rw [isDigit_iff] at digit
  rw [isNameChar_iff]
  omega

theorem isNameChar_of_isHexDigit {c : Char} (digit : Numeral.isHexDigit c = true) :
    isNameChar c = true := by
  rw [isHexDigit_iff] at digit
  rw [isNameChar_iff]
  omega

theorem not_isNameStart_of_isDigit {c : Char} (digit : c.isDigit = true) : isNameStart c = false := by
  rw [isDigit_iff] at digit
  rw [Bool.eq_false_iff, ne_eq, isNameStart_iff]
  omega

theorem isDigit_of_ascii {c : Char} (digit : c.isDigit = true) : isDigit c = true := by
  simp [isDigit, digit]

theorem not_isBlank_of_isNameChar {c : Char} (name : isNameChar c = true) : isBlank c = false := by
  rw [isNameChar_iff] at name
  simp [isBlank]
  omega

theorem isWordCharacter_of_isNameChar {c : Char} (name : isNameChar c = true) :
    isWordCharacter c = true := by
  have ascii : (c.isAlphanum || c == '_') = true := name
  rw [isWordCharacter, ascii, Bool.true_or]

/-- Every line break is white space, so none is left inside a trimmed text's ends. -/
theorem isBlank_of_isLineBreak {c : Char} (broken : isLineBreak c = true) : isBlank c = true := by
  simp [isLineBreak] at broken
  simp [isBlank]
  omega

end TwoPass.Text
