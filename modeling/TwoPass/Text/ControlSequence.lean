import TwoPass.Text.Basic

/-! Control sequences, by which a text moves the cursor of a terminal or changes its colours: an
escape character, an opening bracket, any number of digits, semicolons and question marks, and a
letter. A text that is not meant for a terminal is printed without them. -/

set_option autoImplicit false

namespace TwoPass.Text

def escapeCharacter : Char := '\x1b'

def isSequenceParameter (c : Char) : Bool := c == ';' || c == '?' || c.isDigit

def sequenceLength : Text → Nat
  | c :: '[' :: rest =>
    if c == escapeCharacter then
      match rest.dropWhile isSequenceParameter with
      | [] => 0
      | final :: _ =>
        if final.isAlpha then (rest.takeWhile isSequenceParameter).length + 3 else 0
    else 0
  | _ => 0

/-- Leaves out control sequences. The first `skipped` characters belong to a sequence that has been
met already. -/
def dropSequences (skipped : Nat) : Text → Text
  | [] => []
  | c :: rest =>
    match skipped, sequenceLength (c :: rest) with
    | skipped + 1, _ => dropSequences skipped rest
    | 0, length + 1 => dropSequences length rest
    | 0, 0 => c :: dropSequences 0 rest

/-- The text without its control sequences. What then stands together is not looked at again. -/
def withoutSequences (text : Text) : Text := dropSequences 0 text

theorem sequenceLength_of_ne {c : Char} (plain : c ≠ escapeCharacter) (rest : Text) :
    sequenceLength (c :: rest) = 0 := by
  unfold sequenceLength
  split
  · next first _ same =>
    cases same
    simp [plain]
  · rfl

end TwoPass.Text
