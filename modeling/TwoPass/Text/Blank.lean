import TwoPass.Text.Basic

/-! White space between words and around lines. -/

set_option autoImplicit false

namespace TwoPass.Text

/-- The white space characters of Unicode together with the four information separators. -/
def isBlank (c : Char) : Bool :=
  let code := c.toNat
  (0x09 ≤ code && code ≤ 0x0D) || (0x1C ≤ code && code ≤ 0x20) || code == 0x85 || code == 0xA0 ||
    code == 0x1680 || (0x2000 ≤ code && code ≤ 0x200A) || code == 0x2028 || code == 0x2029 ||
    code == 0x202F || code == 0x205F || code == 0x3000

def trimLeft (text : Text) : Text := text.dropWhile isBlank

def trimRight (text : Text) : Text := trimEnd isBlank text

def trim (text : Text) : Text := trimRight (trimLeft text)

/-- The first run of characters that are not blank; empty exactly when all characters are blank. -/
def firstWord (text : Text) : Text := (trimLeft text).takeWhile (!isBlank ·)

end TwoPass.Text
