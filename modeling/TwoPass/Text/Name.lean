import TwoPass.Text.Basic

/-! The names of labels and mnemonics: a letter or an underscore, then letters, digits and
underscores, all of them ASCII. -/

set_option autoImplicit false

namespace TwoPass.Text

def isNameStart (c : Char) : Bool := c.isAlpha || c == '_'

def isNameChar (c : Char) : Bool := c.isAlphanum || c == '_'

def startsName : Text → Bool
  | [] => false
  | c :: _ => isNameStart c

def isName (text : Text) : Bool := startsName text && text.all isNameChar

theorem isNameChar_of_isNameStart {c : Char} (start : isNameStart c = true) : isNameChar c = true := by
  simp only [isNameStart, isNameChar, Char.isAlphanum, Bool.or_eq_true] at *
  exact start.imp_left Or.inl

end TwoPass.Text
