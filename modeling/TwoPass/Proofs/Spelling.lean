import Mathlib.Data.List.TakeWhile
import TwoPass.Proofs.Text.CharacterClass
import TwoPass.Proofs.Text.Trim
import TwoPass.Token

/-! How lexemes are written.

The spellings of a lexeme are told without a scanner. A scanner that cuts a lexeme off a text has
found a spelling of it, and takes as much as it can: what is left does not go on with a character of
a name, unless the lexeme is a punctuation mark. The converse holds as well, so that a lexeme can be
replaced in a text by another one without a change to its neighbours. -/

set_option autoImplicit false

namespace TwoPass

namespace Numeral

theorem read_eq_ok_iff {digits : Text} {value : Nat} : read digits = .ok value ↔
    digits ≠ [] ∧ digits.length ≤ digitLimit ∧ Nat.ofDigitChars 10 digits 0 = value := by
  unfold read
  cases digits with
  | nil => simp
  | cons d rest =>
    simp only [List.isEmpty_cons, Bool.false_eq_true, if_false]
    split
    · next long =>
      simp only [reduceCtorEq, false_iff, not_and]
      intro _ short
      omega
    · next short =>
      simp only [Except.ok.injEq]
      constructor
      · intro same
        exact ⟨List.cons_ne_nil d rest, by omega, same⟩
      · exact fun parts => parts.2.2

end Numeral

namespace Scan

def Apart (text : Text) : Prop := ∀ c, text.head? = some c → Text.isNameChar c = false

theorem apart_nil : Apart [] := by
  intro c first
  cases first

theorem apart_cons {c : Char} {rest : Text} (other : Text.isNameChar c = false) :
    Apart (c :: rest) := by
  intro d first
  cases first
  exact other

theorem apart_of_append {text rest : Text} (apart : Apart (text ++ rest)) : Apart text := by
  intro c first
  exact apart c (by rw [List.head?_append, first, Option.some_or])

theorem apart_gap {gap : Text} (spaces : ∀ c ∈ gap, isSpace c = true) (some_space : gap ≠ [])
    (rest : Text) : Apart (gap ++ rest) := by
  obtain ⟨c, more, rfl⟩ := List.exists_cons_of_ne_nil some_space
  refine apart_cons ?_
  have space := spaces c List.mem_cons_self
  simp only [isSpace, Bool.or_eq_true, beq_iff_eq] at space
  rcases space with rfl | rfl <;> decide

theorem apart_spaces {gap : Text} (spaces : ∀ c ∈ gap, isSpace c = true) : Apart gap := by
  cases gap with
  | nil => exact apart_nil
  | cons c more =>
    have apart := apart_gap spaces (List.cons_ne_nil c more) []
    rwa [List.append_nil] at apart

theorem apart_dropWhile (text : Text) : Apart (text.dropWhile Text.isNameChar) :=
  fun _ first => Text.head?_dropWhile_false first

section
variable {kind : Char → Bool} {body rest : Text}

theorem takeWhile_append (inside : ∀ c ∈ body, kind c = true)
    (part : ∀ c, kind c = true → Text.isNameChar c = true) (apart : Apart rest) :
    (body ++ rest).takeWhile kind = body := by
  rw [List.takeWhile_append_of_pos inside]
  cases rest with
  | nil => simp
  | cons c tail =>
    have outside : ¬kind c = true := fun within => by simpa [part c within] using apart c rfl
    rw [List.takeWhile_cons_of_neg outside, List.append_nil]

theorem dropWhile_append (inside : ∀ c ∈ body, kind c = true)
    (part : ∀ c, kind c = true → Text.isNameChar c = true) (apart : Apart rest) :
    (body ++ rest).dropWhile kind = rest := by
  rw [List.dropWhile_append_of_pos inside]
  cases rest with
  | nil => rfl
  | cons c tail =>
    have outside : ¬kind c = true := fun within => by simpa [part c within] using apart c rfl
    exact List.dropWhile_cons_of_neg outside

end

def isRegisterName : Text → Bool
  | 'r' :: d :: digits => (d :: digits).all Char.isDigit
  | _ => false

def IsSign (sign : Text) : Prop := sign = [] ∨ sign = ['+'] ∨ sign = ['-']

def IsHexMark (mark : Text) : Prop := mark = ['0', 'x'] ∨ mark = ['0', 'X']

end Scan

open Scan in
/-- The texts a lexeme can be written as. -/
inductive Lexeme.Spelled : Lexeme → Text → Prop where
  | comma : Spelled .comma [',']
  | openParen : Spelled .openParen ['(']
  | closeParen : Spelled .closeParen [')']
  | word {name : Text} : Text.isName name = true → isRegisterName name = false →
      Spelled (.word name) name
  | register {digits : Text} : digits ≠ [] → (∀ c ∈ digits, c.isDigit = true) →
      digits.length ≤ Numeral.digitLimit →
      Spelled (.register (Nat.ofDigitChars 10 digits 0)) ('r' :: digits)
  | decimal {sign digits : Text} : IsSign sign → digits ≠ [] → (∀ c ∈ digits, c.isDigit = true) →
      digits.length ≤ Numeral.digitLimit →
      Spelled (.number (signed sign (Nat.ofDigitChars 10 digits 0))) (sign ++ digits)
  | hexadecimal {sign mark digits : Text} : IsSign sign → IsHexMark mark → digits ≠ [] →
      (∀ c ∈ digits, Numeral.isHexDigit c = true) →
      Spelled (.number (signed sign (Numeral.readHex digits))) (sign ++ (mark ++ digits))
  | label {name : Text} : Text.isName name = true → Spelled (.label name) (':' :: name)

/-- Punctuation marks end by themselves; every other lexeme goes on as long as it can. -/
def Lexeme.isMark : Lexeme → Bool
  | .comma | .openParen | .closeParen => true
  | _ => false

namespace Scan

theorem isName_takeWhile {text : Text} (begins : Text.startsName text = true) :
    Text.isName (text.takeWhile Text.isNameChar) = true := by
  cases text with
  | nil => cases begins
  | cons c rest =>
    have named : Text.isNameChar c = true := Text.isNameChar_of_isNameStart begins
    rw [List.takeWhile_cons_of_pos named, Text.isName, Bool.and_eq_true]
    refine ⟨begins, ?_⟩
    rw [← List.takeWhile_cons_of_pos named]
    exact List.all_takeWhile

theorem startsName_append {name : Text} (valid : Text.isName name = true) (rest : Text) :
    Text.startsName (name ++ rest) = true := by
  rw [Text.isName, Bool.and_eq_true] at valid
  cases name with
  | nil => cases valid.1
  | cons c tail => exact valid.1

theorem isNameChar_of_mem_name {name : Text} (valid : Text.isName name = true) :
    ∀ c ∈ name, Text.isNameChar c = true := by
  rw [Text.isName, Bool.and_eq_true, List.all_eq_true] at valid
  exact valid.2

theorem wordLexeme_spelled {name : Text} {lexeme : Lexeme} (valid : Text.isName name = true)
    (told : wordLexeme name = .ok lexeme) : lexeme.Spelled name := by
  unfold wordLexeme at told
  split at told
  · next d digits =>
    split at told
    · next allDigits =>
      cases value : Numeral.read (d :: digits) with
      | error fault => simp [value, Functor.map, Except.map] at told
      | ok index =>
        simp only [value, Functor.map, Except.map, Except.ok.injEq] at told
        obtain ⟨nonempty, short, rfl⟩ := Numeral.read_eq_ok_iff.mp value
        subst told
        exact .register nonempty (List.all_eq_true.mp allDigits) short
    · next mixed =>
      cases told
      exact .word valid (by simpa [isRegisterName] using mixed)
  · next other =>
    cases told
    refine .word valid ?_
    unfold isRegisterName
    split
    · next d digits => exact absurd rfl (other d digits)
    · rfl

theorem wordLexeme_eq_word {name : Text} (other : isRegisterName name = false) :
    wordLexeme name = .ok (.word name) := by
  unfold wordLexeme
  split
  · next d digits =>
    rw [isRegisterName] at other
    simp [other]
  · rfl

theorem wordLexeme_eq_register {digits : Text} (nonempty : digits ≠ [])
    (allDigits : ∀ c ∈ digits, c.isDigit = true) (short : digits.length ≤ Numeral.digitLimit) :
    wordLexeme ('r' :: digits) = .ok (.register (Nat.ofDigitChars 10 digits 0)) := by
  obtain ⟨d, rest, rfl⟩ := List.exists_cons_of_ne_nil nonempty
  have value : Numeral.read (d :: rest) = .ok (Nat.ofDigitChars 10 (d :: rest) 0) :=
    Numeral.read_eq_ok_iff.mpr ⟨nonempty, short, rfl⟩
  simp only [wordLexeme, List.all_eq_true.mpr allDigits, if_true, value]
  rfl

theorem word_spelled {text : Text} {found : Cut} (begins : Text.startsName text = true)
    (taken : word text = .ok found) : found.lexeme.Spelled found.text ∧ Apart found.rest := by
  unfold word at taken
  split at taken
  · next lexeme told =>
    cases taken
    exact ⟨wordLexeme_spelled (isName_takeWhile begins) told, apart_dropWhile text⟩
  · cases taken

theorem word_append {name rest : Text} {lexeme : Lexeme}
    (inside : ∀ c ∈ name, Text.isNameChar c = true) (told : wordLexeme name = .ok lexeme)
    (apart : Apart rest) : word (name ++ rest) = .ok ⟨lexeme, name, rest⟩ := by
  have taken := takeWhile_append inside (fun _ named => named) apart
  have left := dropWhile_append inside (fun _ named => named) apart
  rw [word, taken, told, left]

theorem isSign_splitSign (text : Text) : IsSign (splitSign text).1 := by
  unfold splitSign
  split
  · exact .inr (.inl rfl)
  · exact .inr (.inr rfl)
  · exact .inl rfl

theorem isHexMark_of_splitHexMark? {text mark rest : Text}
    (split : splitHexMark? text = some (mark, rest)) : IsHexMark mark := by
  unfold splitHexMark? at split
  split at split
  · cases split; exact .inl rfl
  · cases split; exact .inr rfl
  · cases split

theorem unsigned_spelled {text taken rest : Text} {value : Nat} {sign : Text} (signs : IsSign sign)
    (read : unsigned text = .ok (value, taken, rest)) :
    (Lexeme.number (signed sign value)).Spelled (sign ++ taken) := by
  unfold unsigned at read
  split at read
  · next mark after split =>
    split at read
    · cases read
    · next some_digit =>
      cases read
      refine .hexadecimal signs (isHexMark_of_splitHexMark? split) ?_ ?_
      · simpa using some_digit
      · exact fun c member => List.mem_takeWhile_imp member
  · split at read
    · next value told =>
      cases read
      obtain ⟨nonempty, short, rfl⟩ := Numeral.read_eq_ok_iff.mp told
      exact .decimal signs nonempty (fun c member => List.mem_takeWhile_imp member) short
    · cases read

theorem number_spelled {text : Text} {found : Cut} (taken : number text = .ok found) :
    found.lexeme.Spelled found.text ∧ Apart found.rest := by
  unfold number at taken
  split at taken
  · cases taken
  · next value written rest read =>
    dsimp only at taken
    split at taken
    · next complete =>
      cases taken
      refine ⟨unsigned_spelled (isSign_splitSign text) read, ?_⟩
      -- a number that goes on with a character of a name is refused
      cases rest with
      | nil => exact apart_nil
      | cons c more =>
        apply apart_cons
        cases named : Text.isNameChar c with
        | false => rfl
        | true => simp [List.takeWhile_cons_of_pos named] at complete
    · cases taken

section
variable {sign digits rest : Text}

theorem splitSign_append (signs : IsSign sign) (nonempty : digits ≠ [])
    (first : ∀ c, digits.head? = some c → c.isDigit = true) :
    splitSign (sign ++ (digits ++ rest)) = (sign, digits ++ rest) := by
  obtain ⟨d, more, rfl⟩ := List.exists_cons_of_ne_nil nonempty
  rcases signs with rfl | rfl | rfl
  · have digit := first d rfl
    unfold splitSign
    split
    · next same => cases same; simp at digit
    · next same => cases same; simp at digit
    · rfl
  · rfl
  · rfl

theorem splitHexMark?_digits (allDigits : ∀ c ∈ digits, c.isDigit = true) (apart : Apart rest)
    (nonempty : digits ≠ []) : splitHexMark? (digits ++ rest) = none := by
  -- The second character is a digit too, or stands behind the digits; the mark's is a letter.
  have second : ∀ c, (digits ++ rest)[1]? = some c → c.isDigit = true ∨ Text.isNameChar c = false := by
    intro c found
    match digits, nonempty with
    | [d], _ => exact .inr (apart c (by simpa [List.head?_eq_getElem?] using found))
    | d :: e :: more, _ =>
      have same : e = c := by simpa using found
      exact .inl (same ▸ allDigits e (by simp))
  unfold splitHexMark?
  split
  · next same => exact absurd (second 'x' (by rw [same]; rfl)) (by decide)
  · next same => exact absurd (second 'X' (by rw [same]; rfl)) (by decide)
  · rfl

theorem unsigned_decimal (allDigits : ∀ c ∈ digits, c.isDigit = true) (nonempty : digits ≠ [])
    (short : digits.length ≤ Numeral.digitLimit) (apart : Apart rest) :
    unsigned (digits ++ rest) = .ok (Nat.ofDigitChars 10 digits 0, digits, rest) := by
  have taken := takeWhile_append allDigits (fun _ => Text.isNameChar_of_isDigit) apart
  have left := dropWhile_append allDigits (fun _ => Text.isNameChar_of_isDigit) apart
  have value : Numeral.read digits = .ok (Nat.ofDigitChars 10 digits 0) :=
    Numeral.read_eq_ok_iff.mpr ⟨nonempty, short, rfl⟩
  rw [unsigned, splitHexMark?_digits allDigits apart nonempty]
  simp only [taken, left, value]

theorem unsigned_hexadecimal {mark : Text} (marks : IsHexMark mark)
    (allDigits : ∀ c ∈ digits, Numeral.isHexDigit c = true) (nonempty : digits ≠ [])
    (apart : Apart rest) :
    unsigned (mark ++ digits ++ rest) = .ok (Numeral.readHex digits, mark ++ digits, rest) := by
  have taken := takeWhile_append allDigits (fun _ => Text.isNameChar_of_isHexDigit) apart
  have left := dropWhile_append allDigits (fun _ => Text.isNameChar_of_isHexDigit) apart
  have split : splitHexMark? (mark ++ digits ++ rest) = some (mark, digits ++ rest) := by
    rcases marks with rfl | rfl <;> rfl
  rw [unsigned, split]
  simp only [taken, left, List.isEmpty_iff, nonempty, if_false]

theorem number_append {value : Nat}
    (split : splitSign (sign ++ (digits ++ rest)) = (sign, digits ++ rest))
    (read : unsigned (digits ++ rest) = .ok (value, digits, rest)) (apart : Apart rest) :
    number (sign ++ digits ++ rest) =
      .ok ⟨.number (signed sign value), sign ++ digits, rest⟩ := by
  have ended : rest.takeWhile Text.isNameChar = [] := by
    cases rest with
    | nil => rfl
    | cons c more => exact List.takeWhile_cons_of_neg (by simp [apart c rfl])
  rw [List.append_assoc, number, split]
  simp [read, ended]

end

theorem labelReference_spelled {rest : Text} {found : Cut} (taken : labelReference rest = .ok found) :
    found.lexeme.Spelled found.text ∧ Apart found.rest := by
  unfold labelReference at taken
  split at taken
  · next begins =>
    cases taken
    exact ⟨.label (isName_takeWhile begins), apart_dropWhile rest⟩
  · cases taken

/-- What is cut off a text is a spelling of the lexeme, and as long a one as there is. -/
theorem cut_spelled {c : Char} {rest : Text} {found : Cut} (taken : cut c rest = .ok found) :
    found.lexeme.Spelled found.text ∧ (found.lexeme.isMark = true ∨ Apart found.rest) := by
  unfold cut at taken
  split at taken
  · next comma => cases taken; exact ⟨eq_of_beq comma ▸ .comma, .inl rfl⟩
  split at taken
  · next paren => cases taken; exact ⟨eq_of_beq paren ▸ .openParen, .inl rfl⟩
  split at taken
  · next paren => cases taken; exact ⟨eq_of_beq paren ▸ .closeParen, .inl rfl⟩
  split at taken
  · next start => exact (@word_spelled (c :: rest) _ start taken).imp_right .inr
  split at taken
  · exact (number_spelled taken).imp_right .inr
  split at taken
  · exact (labelReference_spelled taken).imp_right .inr
  · cases taken

theorem cut_nameStart {c : Char} {rest : Text} (start : Text.isNameStart c = true) :
    cut c rest = word (c :: rest) := by
  have different : ∀ mark : Char, Text.isNameStart mark = false → (c == mark) = false := by
    intro mark other
    rw [beq_eq_false_iff_ne]
    rintro rfl
    simp [start] at other
  rw [cut, different ',' (by decide), different '(' (by decide), different ')' (by decide), start]
  rfl

theorem cut_colon (rest : Text) : cut ':' rest = labelReference rest := by
  have notDigit : Text.isDigit ':' = false := by decide
  have notNumber : startsNumber (':' :: rest) = false := by
    cases rest with
    | nil => exact notDigit
    | cons d more => simp [startsNumber, notDigit]
  rw [cut, notNumber]
  rfl

theorem cut_startsNumber {c : Char} {rest : Text} (numeric : c.isDigit = true ∨ c = '+' ∨ c = '-')
    (begins : startsNumber (c :: rest) = true) : cut c rest = number (c :: rest) := by
  have plain : Text.isNameStart c = false := by
    rcases numeric with digit | rfl | rfl
    · exact Text.not_isNameStart_of_isDigit digit
    · decide
    · decide
  have different : ∀ mark : Char, mark.isDigit = false → mark ≠ '+' → mark ≠ '-' →
      (c == mark) = false := by
    intro mark other plus minus
    rw [beq_eq_false_iff_ne]
    rintro rfl
    rcases numeric with digit | rfl | rfl
    · simp [digit] at other
    · exact plus rfl
    · exact minus rfl
  rw [cut, different ',' (by decide) (by decide) (by decide),
    different '(' (by decide) (by decide) (by decide),
    different ')' (by decide) (by decide) (by decide), plain, begins]
  rfl

theorem cut_signed {sign digits : Text} (signs : IsSign sign) (nonempty : digits ≠ [])
    (first : ∀ c, digits.head? = some c → c.isDigit = true) (rest : Text) :
    ∃ c tail, sign ++ digits = c :: tail ∧ isSpace c = false ∧
      cut c (tail ++ rest) = number (sign ++ digits ++ rest) := by
  obtain ⟨d, more, rfl⟩ := List.exists_cons_of_ne_nil nonempty
  have digit := first d rfl
  have known : Text.isDigit d = true := Text.isDigit_of_ascii digit
  rcases signs with rfl | rfl | rfl
  · refine ⟨d, more, rfl, ?_, cut_startsNumber (.inl digit) ?_⟩
    · rw [Text.isDigit_iff] at digit
      rw [isSpace, Bool.or_eq_false_iff, beq_eq_false_iff_ne, beq_eq_false_iff_ne]
      constructor
      · rintro rfl; simp at digit
      · rintro rfl; simp at digit
    · cases tail : more ++ rest <;> simp [startsNumber, known]
  · exact ⟨'+', d :: more, rfl, rfl, cut_startsNumber (.inr (.inl rfl)) (by simp [startsNumber, known])⟩
  · exact ⟨'-', d :: more, rfl, rfl, cut_startsNumber (.inr (.inr rfl)) (by simp [startsNumber, known])⟩

theorem cut_name {name rest : Text} {lexeme : Lexeme} (valid : Text.isName name = true)
    (told : wordLexeme name = .ok lexeme) (apart : Apart rest) :
    ∃ c tail, name = c :: tail ∧ isSpace c = false ∧
      cut c (tail ++ rest) = .ok ⟨lexeme, name, rest⟩ := by
  have inside := isNameChar_of_mem_name valid
  rw [Text.isName, Bool.and_eq_true] at valid
  cases name with
  | nil => exact absurd valid.1 (by decide)
  | cons c tail =>
    have start : Text.isNameStart c = true := valid.1
    refine ⟨c, tail, rfl, ?_, ?_⟩
    · rw [isSpace, Bool.or_eq_false_iff, beq_eq_false_iff_ne, beq_eq_false_iff_ne]
      constructor
      · rintro rfl; exact absurd start (by decide)
      · rintro rfl; exact absurd start (by decide)
    · rw [cut_nameStart start]
      exact word_append inside told apart

/-- Every spelling of a lexeme is cut off as that lexeme where it does not go on. -/
theorem cut_append {lexeme : Lexeme} {text rest : Text} (spelled : lexeme.Spelled text)
    (ends : lexeme.isMark = true ∨ Apart rest) :
    ∃ c tail, text = c :: tail ∧ isSpace c = false ∧
      cut c (tail ++ rest) = .ok ⟨lexeme, text, rest⟩ := by
  have apart : lexeme.isMark = false → Apart rest := fun unmarked =>
    ends.resolve_left (by simp [unmarked])
  cases spelled with
  | comma => exact ⟨',', [], rfl, rfl, rfl⟩
  | openParen => exact ⟨'(', [], rfl, rfl, rfl⟩
  | closeParen => exact ⟨')', [], rfl, rfl, rfl⟩
  | word valid other => exact cut_name valid (wordLexeme_eq_word other) (apart rfl)
  | @register digits nonempty allDigits short =>
    refine cut_name ?_ (wordLexeme_eq_register nonempty allDigits short) (apart rfl)
    simp only [Text.isName, Text.startsName, List.all_cons, Bool.and_eq_true, List.all_eq_true]
    exact ⟨rfl, rfl, fun c member => Text.isNameChar_of_isDigit (allDigits c member)⟩
  | @decimal sign digits signs nonempty allDigits short =>
    have first : ∀ c, digits.head? = some c → c.isDigit = true :=
      fun c head => allDigits c (List.mem_of_mem_head? head)
    obtain ⟨c, tail, same, spaceless, cuts⟩ := cut_signed signs nonempty first rest
    refine ⟨c, tail, same, spaceless, cuts.trans (number_append ?_ ?_ (apart rfl))⟩
    · exact splitSign_append signs nonempty first
    · exact unsigned_decimal allDigits nonempty short (apart rfl)
  | @hexadecimal sign mark digits signs marks nonempty allDigits =>
    -- behind the sign the mark comes first, and it begins with a digit
    have some_mark : mark ++ digits ≠ [] := by simp [nonempty]
    have first : ∀ c, (mark ++ digits).head? = some c → c.isDigit = true := by
      intro c head
      rcases marks with rfl | rfl <;> cases head <;> decide
    obtain ⟨c, tail, same, spaceless, cuts⟩ := cut_signed signs some_mark first rest
    refine ⟨c, tail, same, spaceless, cuts.trans (number_append ?_ ?_ (apart rfl))⟩
    · exact splitSign_append signs some_mark first
    · exact unsigned_hexadecimal marks allDigits nonempty (apart rfl)
  | @label name valid =>
    have inside := isNameChar_of_mem_name valid
    refine ⟨':', name, rfl, rfl, ?_⟩
    have taken := takeWhile_append inside (fun _ named => named) (apart rfl)
    have left := dropWhile_append inside (fun _ named => named) (apart rfl)
    rw [cut_colon, labelReference, startsName_append valid rest, taken, left]
    rfl

end Scan

end TwoPass
