import TwoPass.Proofs.Conversion
import TwoPass.Proofs.Numeral
import TwoPass.Proofs.Span

/-! What the tokens of a line cover.

Tokens stand in a text one behind the other. Each of them is what the text holds between its offsets,
has the value that its characters stand for and ends where it cannot go on, and nothing but spaces and
tabs is left outside of them. A scan that comes to the end of a text has covered all of it. One that
stops has covered the text in front of the offset at which it stops, and no lexeme begins there. -/

set_option autoImplicit false

namespace TwoPass

def Lexeme.ToldBy : Lexeme → Text → Prop
  | .word name, text => text = name
  | .register index, text => ∃ digits, text = 'r' :: digits ∧ digits ≠ [] ∧
      (∀ c ∈ digits, c.isDigit = true) ∧ index = Numeral.positional 10 digits
  | .number value, text => Numeral.Denotes text value
  | .label name, text => text = ':' :: name
  | .comma, text => text = [',']
  | .openParen, text => text = ['(']
  | .closeParen, text => text = [')']
  | .endOfLine, _ => False

theorem Lexeme.Spelled.toldBy {lexeme : Lexeme} {text : Text} (spelled : lexeme.Spelled text) :
    lexeme.ToldBy text := by
  cases lexeme with
  | number value => exact Numeral.denotes_of_spelled spelled
  | register index =>
    cases spelled with
    | @register digits nonempty allDigits short =>
      exact ⟨digits, rfl, nonempty, allDigits, Numeral.ofDigitChars_eq_positional allDigits⟩
  | word | label | comma | openParen | closeParen =>
    cases spelled
    rfl
  | endOfLine => cases spelled

namespace Scan

/-- Tokens that stand in a text in order and leave nothing but spaces and tabs. -/
structure Covers (text : Text) (tokens : List Token) : Prop where
  nonempty : ∀ token ∈ tokens, token.start < token.stop
  within : ∀ token ∈ tokens, token.stop ≤ text.length
  ordered : tokens.Pairwise fun earlier later =>
    earlier.start < later.start ∧ earlier.stop ≤ later.start
  held : ∀ token ∈ tokens, token.text = text.slice token.start token.stop
  told : ∀ token ∈ tokens, token.lexeme.ToldBy token.text
  longest : ∀ token ∈ tokens, token.lexeme.isMark = true ∨ Apart (text.drop token.stop)
  spaces : ∀ (offset : Nat) (c : Char), text[offset]? = some c →
    (∀ token ∈ tokens, offset < token.start ∨ token.stop ≤ offset) → c = ' ' ∨ c = '\t'

/-- No lexeme can be read off the front of a text: none of its beginnings spells one and ends there. -/
def Illegible (text : Text) : Prop :=
  ∀ (lexeme : Lexeme) (written rest : Text), text = written ++ rest → lexeme.Spelled written →
    ¬(lexeme.isMark = true ∨ Apart rest)

theorem illegible_of_cut {c : Char} {rest : Text} {fault : Fault} (refused : cut c rest = .error fault) :
    Illegible (c :: rest) := by
  intro lexeme written after whole spelled ends
  obtain ⟨d, tail, rfl, -, taken⟩ := cut_append spelled ends
  obtain ⟨rfl, rfl⟩ := List.cons.inj whole
  cases taken.symm.trans refused

namespace Tiled

variable {position : Nat} {text : Text} {tokens : List Token}

theorem isSpace_of_outside (tiled : Tiled position text tokens) {offset : Nat} {c : Char}
    (there : text[offset]? = some c)
    (outside : ∀ token ∈ tokens, position + offset < token.start ∨ token.stop ≤ position + offset) :
    isSpace c = true := by
  induction tiled generalizing offset with
  | spaces gap => exact gap c (List.mem_of_getElem? there)
  | @token position gap text rest lexeme tokens spaces spelled ends more ih =>
    obtain ⟨own, others⟩ := List.forall_mem_cons.mp outside
    dsimp only at own
    rcases own with before | behind
    · -- in the gap in front of the first token
      rw [List.getElem?_append_left (by omega)] at there
      exact spaces c (List.mem_of_getElem? there)
    · -- behind the first token, at an offset that is counted from its end
      rw [List.getElem?_append_right (by omega), List.getElem?_append_right (by omega)] at there
      refine ih there fun token member => ?_
      have moved : position + gap.length + text.length + (offset - gap.length - text.length) =
          position + offset := by omega
      rw [moved]
      exact others token member

theorem apart_behind {whole : Text} (tiled : Tiled position text tokens)
    (there : whole.drop position = text) :
    ∀ token ∈ tokens, token.lexeme.isMark = true ∨ Apart (whole.drop token.stop) := by
  induction tiled with
  | spaces gap => simp
  | @token position gap text rest lexeme tokens spaces spelled ends more ih =>
    have behind : whole.drop (position + gap.length + text.length) = rest := by
      rw [← List.drop_drop, ← List.drop_drop, there, List.drop_left, List.drop_left]
    rw [List.forall_mem_cons]
    exact ⟨behind ▸ ends, ih behind⟩

theorem covers (tiled : Tiled 0 text tokens) : Covers text tokens where
  nonempty := List.forall_mem_map.mp tiled.spans.nonempty
  within token member := by
    have bounds := tiled.spans.within token.span (List.mem_map_of_mem member)
    rw [Nat.zero_add] at bounds
    exact bounds.2
  ordered := List.pairwise_map.mp tiled.spans.pairwise
  held token member := (tiled.slice_eq List.drop_zero token member).symm
  told token member := (tiled.spelled token member).1.toldBy
  longest := tiled.apart_behind List.drop_zero
  spaces offset c there outside := by
    have space := tiled.isSpace_of_outside there (by simpa using outside)
    rwa [isSpace, Bool.or_eq_true, beq_iff_eq, beq_iff_eq] at space

end Tiled

/-- The tokens of a text cover it up to its end, which one more token marks, or up to the offset at
which the scan stops, and then no lexeme can be read there. -/
theorem tokens_cover_text (text : Text) :
    (∀ ending, (ofText text).ending = .ok ending →
      Covers text (ofText text).tokens ∧
        ending = ⟨.endOfLine, text.length, text.length, []⟩ ∧
        ∀ token ∈ (ofText text).tokens, token.lexeme ≠ .endOfLine) ∧
    (∀ fault offset, (ofText text).ending = .error (fault, offset) →
      offset < text.length ∧ Covers (text.take offset) (ofText text).tokens ∧
        Illegible (text.drop offset)) := by
  cases scanned : ofText text with
  | mk tokens ending =>
    constructor
    · rintro ending rfl
      obtain ⟨tiled, rfl⟩ := scanAt_eq_ok_iff.mp scanned
      rw [Nat.zero_add]
      refine ⟨tiled.covers, rfl, fun token member ended => ?_⟩
      -- no characters tell the end of a line, and every token has some
      have told := tiled.covers.told token member
      rw [ended] at told
      exact told
    · rintro fault offset rfl
      obtain ⟨front, c, rest, rfl, tiled, rfl, -, refused⟩ := tiled_of_scanAt_error scanned
      rw [Nat.zero_add, List.take_left, List.drop_left]
      exact ⟨by simp, tiled.covers, illegible_of_cut refused⟩

/-- A line that is scanned to its end, and one that is not. -/
theorem tokens_cover_text_signed :
    let text : Text := "ld r07,\t-0x1F"
    let stopped : Text := "brr :L,12x"
    Covers text [⟨.word "ld", 0, 2, "ld"⟩, ⟨.register 7, 3, 6, "r07"⟩, ⟨.comma, 6, 7, ","⟩,
        ⟨.number (-31), 8, 13, "-0x1F"⟩] ∧
      Covers (stopped.take 7) [⟨.word "brr", 0, 3, "brr"⟩, ⟨.label "L", 4, 6, ":L"⟩,
        ⟨.comma, 6, 7, ","⟩] ∧
      Illegible (stopped.drop 7) := by
  intro text stopped
  have whole := (tokens_cover_text text).1 ⟨.endOfLine, 13, 13, []⟩ rfl
  have part := (tokens_cover_text stopped).2 (.malformed (.invalidNumber "12x")) 7 rfl
  exact ⟨whole.1, part.2⟩

end Scan

end TwoPass
