import TwoPass.Failure
import TwoPass.Text.Digit

/-! Tokens of a content line: words, registers, numbers, label references and the punctuation of
operands. Only spaces and tabs stand between tokens. -/

set_option autoImplicit false

namespace TwoPass

inductive Lexeme where
  | word (name : Text)
  | register (index : Nat)
  | number (value : Int)
  | label (name : Text)
  | comma
  | openParen
  | closeParen
  | endOfLine
  deriving DecidableEq, Repr

def Lexeme.kind : Lexeme → Text
  | .word _ => "IDENTIFIER"
  | .register _ => "REGISTER"
  | .number _ => "NUMBER"
  | .label _ => "LABEL_REF"
  | .comma => "COMMA"
  | .openParen => "LPAREN"
  | .closeParen => "RPAREN"
  | .endOfLine => "EOF"

/-- A lexeme with the offsets of its first character and of the one past its last. -/
structure Token where
  lexeme : Lexeme
  start : Nat
  stop : Nat
  text : Text
  deriving DecidableEq, Repr

def Lexeme.valueText? : Lexeme → Except Numeral.Fault (Option Text)
  | .word name | .label name => .ok (some (Text.apostrophized name))
  | .register index => some <$> Numeral.write index
  | .number value => some <$> Numeral.write value
  | _ => .ok none

def Token.describe (token : Token) : Except Numeral.Fault Text := do
  let value := match ← token.lexeme.valueText? with
    | some text => text ++ ", "
    | none => []
  pure ("Token(" ++ token.lexeme.kind ++ ", " ++ value ++ Numeral.decimalNat token.start ++ ")")

namespace Scan

inductive Fault where
  | malformed (cause : Malformation)
  | numeral (fault : Numeral.Fault)
  deriving DecidableEq, Repr

/-- A lexeme cut off the front of a text: the characters it takes, and what is left. -/
structure Cut where
  lexeme : Lexeme
  text : Text
  rest : Text
  deriving DecidableEq, Repr

def wordLexeme : Text → Except Numeral.Fault Lexeme
  | 'r' :: d :: digits =>
    if (d :: digits).all Char.isDigit then .register <$> Numeral.read (d :: digits)
    else .ok (.word ('r' :: d :: digits))
  | name => .ok (.word name)

def word (text : Text) : Except Fault Cut :=
  match wordLexeme (text.takeWhile Text.isNameChar) with
  | .ok lexeme => .ok ⟨lexeme, text.takeWhile Text.isNameChar, text.dropWhile Text.isNameChar⟩
  | .error fault => .error (.numeral fault)

def splitSign : Text → Text × Text
  | '+' :: rest => (['+'], rest)
  | '-' :: rest => (['-'], rest)
  | text => ([], text)

def signed (sign : Text) (value : Nat) : Int := if sign == ['-'] then -value else value

def splitHexMark? : Text → Option (Text × Text)
  | '0' :: 'x' :: rest => some (['0', 'x'], rest)
  | '0' :: 'X' :: rest => some (['0', 'X'], rest)
  | _ => none

def unsigned (text : Text) : Except Fault (Nat × Text × Text) :=
  match splitHexMark? text with
  | some (mark, rest) =>
    if (rest.takeWhile Numeral.isHexDigit).isEmpty then .error (.malformed .hexDigitsMissing)
    else .ok (Numeral.readHex (rest.takeWhile Numeral.isHexDigit),
      mark ++ rest.takeWhile Numeral.isHexDigit, rest.dropWhile Numeral.isHexDigit)
  | none =>
    match Numeral.read (text.takeWhile Char.isDigit) with
    | .ok value => .ok (value, text.takeWhile Char.isDigit, text.dropWhile Char.isDigit)
    | .error fault => .error (.numeral fault)

/-- A decimal or hexadecimal number with an optional sign, after which no letter or digit may
stand. -/
def number (text : Text) : Except Fault Cut :=
  match unsigned (splitSign text).2 with
  | .error fault => .error fault
  | .ok (value, taken, rest) =>
    let excess := rest.takeWhile Text.isNameChar
    if excess.isEmpty then
      .ok ⟨.number (signed (splitSign text).1 value), (splitSign text).1 ++ taken, rest⟩
    else .error (.malformed (.invalidNumber ((splitSign text).1 ++ taken ++ excess)))

def labelReference (rest : Text) : Except Fault Cut :=
  if Text.startsName rest then
    .ok ⟨.label (rest.takeWhile Text.isNameChar), ':' :: rest.takeWhile Text.isNameChar,
      rest.dropWhile Text.isNameChar⟩
  else .error (.malformed .labelNameMissing)

/-- Whether a text begins like a number: with a digit, or with a sign and a digit. A digit of
another script is taken for the beginning of a number too. -/
def startsNumber : Text → Bool
  | [] => false
  | [c] => Text.isDigit c
  | c :: d :: _ => Text.isDigit c || ((c == '+' || c == '-') && Text.isDigit d)

def cut (c : Char) (rest : Text) : Except Fault Cut :=
  if c == ',' then .ok ⟨.comma, [c], rest⟩
  else if c == '(' then .ok ⟨.openParen, [c], rest⟩
  else if c == ')' then .ok ⟨.closeParen, [c], rest⟩
  else if Text.isNameStart c then word (c :: rest)
  else if startsNumber (c :: rest) then number (c :: rest)
  else if c == ':' then labelReference rest
  else .error (.malformed (.unexpectedCharacter c))

def isSpace (c : Char) : Bool := c == ' ' || c == '\t'

theorem append_of_word {text : Text} {found : Cut} (cut : word text = .ok found) :
    found.text ++ found.rest = text := by
  unfold word at cut
  split at cut
  · cases cut
    exact List.takeWhile_append_dropWhile
  · cases cut

theorem append_of_splitSign (text : Text) : (splitSign text).1 ++ (splitSign text).2 = text := by
  unfold splitSign
  split <;> rfl

theorem append_of_splitHexMark? {text mark rest : Text}
    (split : splitHexMark? text = some (mark, rest)) : mark ++ rest = text := by
  unfold splitHexMark? at split
  split at split <;> cases split <;> rfl

theorem append_of_unsigned {text taken rest : Text} {value : Nat}
    (read : unsigned text = .ok (value, taken, rest)) : taken ++ rest = text := by
  unfold unsigned at read
  split at read
  · next mark after split =>
    split at read
    · cases read
    · cases read
      rw [List.append_assoc, List.takeWhile_append_dropWhile]
      exact append_of_splitHexMark? split
  · split at read
    · cases read
      exact List.takeWhile_append_dropWhile
    · cases read

theorem append_of_number {text : Text} {found : Cut} (cut : number text = .ok found) :
    found.text ++ found.rest = text := by
  unfold number at cut
  split at cut
  · cases cut
  · next value taken rest read =>
    dsimp only at cut
    split at cut
    · cases cut
      rw [List.append_assoc, append_of_unsigned read]
      exact append_of_splitSign text
    · cases cut

theorem append_of_labelReference {rest : Text} {found : Cut}
    (cut : labelReference rest = .ok found) : found.text ++ found.rest = ':' :: rest := by
  unfold labelReference at cut
  split at cut
  · cases cut
    exact congrArg _ List.takeWhile_append_dropWhile
  · cases cut

theorem append_of_cut {c : Char} {rest : Text} {found : Cut} (taken : cut c rest = .ok found) :
    found.text ++ found.rest = c :: rest := by
  unfold cut at taken
  split at taken
  · cases taken; rfl
  split at taken
  · cases taken; rfl
  split at taken
  · cases taken; rfl
  split at taken
  · exact append_of_word taken
  split at taken
  · exact append_of_number taken
  split at taken
  · next colon =>
    rw [append_of_labelReference taken, eq_of_beq colon]
  · cases taken

end Scan

/-- The tokens of a text, and the token that marks its end; or the tokens before a character from
which no token can be cut, and that character's offset. -/
structure Scan where
  tokens : List Token
  ending : Except (Scan.Fault × Nat) Token

namespace Scan

def cons (token : Token) (scan : Scan) : Scan := { scan with tokens := token :: scan.tokens }

/-- Scans the part of a text that begins at offset `position`. Every step takes at least one
character, so `room` for as many steps as there are characters suffices. -/
def scanFrom : (room position : Nat) → Text → Scan
  | _, position, [] => ⟨[], .ok ⟨.endOfLine, position, position, []⟩⟩
  | 0, position, _ :: _ => ⟨[], .ok ⟨.endOfLine, position, position, []⟩⟩
  | room + 1, position, c :: rest =>
    if isSpace c then scanFrom room (position + 1) rest
    else match cut c rest with
      | .error fault => ⟨[], .error (fault, position)⟩
      | .ok found =>
        let stop := position + found.text.length
        (scanFrom room stop found.rest).cons ⟨found.lexeme, position, stop, found.text⟩

def ofText (text : Text) : Scan := scanFrom text.length 0 text

def Fault.failure (line : Line) (offset : Nat) : Fault → Failure
  | .malformed cause => .problem (line.problem (.malformed cause) offset)
  | .numeral fault => .numeral fault

end Scan

end TwoPass
