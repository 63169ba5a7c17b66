import TwoPass.Proofs.Span
import TwoPass.Proofs.Verdict

/-! The mnemonic of a line.

The size of a line of code, its check and its expansion go by the first word of its text, which ends
at any white space. The scan knows only spaces and tabs and ends a word where no name goes on. For the
mnemonics of the catalog the two agree: white space that is no space stops the scan, and the word that
stands behind spaces is the first token. -/

set_option autoImplicit false

namespace TwoPass

namespace Text

theorem exists_firstWord (text : Text) :
    ∃ lead rest, text = lead ++ (firstWord text ++ rest) ∧ (∀ c ∈ lead, isBlank c = true) ∧
      ∀ c, rest.head? = some c → isBlank c = true := by
  refine ⟨text.takeWhile isBlank, (trimLeft text).dropWhile (!isBlank ·), ?_, ?_, ?_⟩
  · rw [firstWord, List.takeWhile_append_dropWhile, trimLeft, List.takeWhile_append_dropWhile]
  · exact fun c member => List.mem_takeWhile_imp member
  · intro c first
    simpa using head?_dropWhile_false first

def blankCodes : List Nat :=
  [0x09, 0x0A, 0x0B, 0x0C, 0x0D, 0x1C, 0x1D, 0x1E, 0x1F, 0x20, 0x85, 0xA0, 0x1680, 0x2000, 0x2001,
   0x2002, 0x2003, 0x2004, 0x2005, 0x2006, 0x2007, 0x2008, 0x2009, 0x200A, 0x2028, 0x2029, 0x202F,
   0x205F, 0x3000]

theorem toNat_mem_blankCodes {c : Char} (blank : isBlank c = true) : c.toNat ∈ blankCodes := by
  simp only [isBlank, Bool.or_eq_true, Bool.and_eq_true, decide_eq_true_eq, beq_iff_eq] at blank
  simp only [blankCodes, List.mem_cons, List.not_mem_nil, or_false]
  omega

theorem not_isDigit_of_isBlank {c : Char} (blank : isBlank c = true) : isDigit c = false := by
  have apart : ∀ code ∈ blankCodes, ¬(48 ≤ code ∧ code ≤ 57) ∧
      decimalZeros.any (fun first => first ≤ code && code ≤ first + 9) = false ∧
      digitSigns.any (fun range => range.1 ≤ code && code ≤ range.2) = false := by decide
  obtain ⟨ascii, decimal, sign⟩ := apart c.toNat (toNat_mem_blankCodes blank)
  rw [← isDigit_iff, Bool.not_eq_true] at ascii
  have unsigned : inRanges digitSigns c = false := sign
  rw [isDigit, ascii, decimal, unsigned]
  rfl

end Text

namespace Scan

theorem cut_blank {c : Char} (blank : Text.isBlank c = true) (rest : Text) :
    cut c rest = .error (.malformed (.unexpectedCharacter c)) := by
  have other : ∀ mark ∈ [',', '(', ')', ':', '+', '-'], (c == mark) = false := by
    have visible : ∀ mark ∈ [',', '(', ')', ':', '+', '-'], Text.isBlank mark = false := by
      simp only [List.forall_mem_cons, List.not_mem_nil, false_implies, implies_true, and_true]
      decide
    intro mark member
    rw [beq_eq_false_iff_ne]
    rintro rfl
    cases blank.symm.trans (visible c member)
  have unnamed : Text.isNameStart c = false := by
    have codes := Text.toNat_mem_blankCodes blank
    have apart : ∀ code ∈ Text.blankCodes,
        ¬(65 ≤ code ∧ code ≤ 90 ∨ 97 ≤ code ∧ code ≤ 122 ∨ code = 95) := by decide
    rw [Bool.eq_false_iff, ne_eq, Text.isNameStart_iff]
    exact apart c.toNat codes
  have numberless : startsNumber (c :: rest) = false := by
    have digit := Text.not_isDigit_of_isBlank blank
    cases rest <;> simp [startsNumber, digit, other]
  simp [cut, other, unnamed, numberless]

end Scan

/-- How a scan begins if the first word of the text is a mnemonic: with that word as its first token
and all others behind it, unless white space in front of it is no space. -/
theorem Scan.ofText_mnemonic {text : Text} {instruction : Instruction}
    (known : Instruction.find? (Text.firstWord text) = some instruction) :
    ((ofText text).tokens = [] ∧ ∃ front c rest, text = front ++ c :: rest ∧
      (∀ d ∈ front, isSpace d = true) ∧ Text.isBlank c = true ∧ isSpace c = false ∧
      (ofText text).ending = .error (.malformed (.unexpectedCharacter c), front.length)) ∨
    ∃ first rest, (ofText text).tokens = first :: rest ∧
      first.lexeme = .word (Text.firstWord text) ∧ first.text = Text.firstWord text ∧
      text.slice first.start first.stop = Text.firstWord text ∧
      ∀ token ∈ rest, first.stop ≤ token.start := by
  have spelled := Instruction.mnemonic_spelled known
  obtain ⟨lead, rest, whole, blanks, ends⟩ := Text.exists_firstWord text
  generalize Text.firstWord text = mnemonic at spelled whole
  have apart : Apart rest := by
    intro c first
    cases named : Text.isNameChar c with
    | false => rfl
    | true => cases (ends c first).symm.trans (Text.not_isBlank_of_isNameChar named)
  have scan : ofText text = scanAt 0 text := rfl
  by_cases spaces : ∀ c ∈ lead, isSpace c = true
  · right
    have scanned : ofText text = (scanAt (0 + lead.length + mnemonic.length) rest).cons
        ⟨.word mnemonic, 0 + lead.length, 0 + lead.length + mnemonic.length, mnemonic⟩ := by
      rw [scan, whole, scanAt_gap spaces, scanAt_lexeme spelled (.inr apart)]
    rw [scanned]
    refine ⟨_, _, rfl, rfl, rfl, ?_, fun token member => ?_⟩
    · have there : text.drop (0 + lead.length) = mnemonic ++ rest := by
        rw [whole, Nat.zero_add, List.drop_left]
      exact Operand.slice_of_drop there
    · obtain ⟨front, back, -, tiled⟩ := exists_tiled_tokens (0 + lead.length + mnemonic.length) rest
      exact (tiled.spans.within _ (List.mem_map_of_mem member)).1
  · left
    -- the scan skips the spaces in front of the first blank of another kind
    obtain ⟨gap, c, more, rfl, skipped, other⟩ :
        ∃ gap c more, lead = gap ++ c :: more ∧ (∀ d ∈ gap, isSpace d = true) ∧ isSpace c = false := by
      cases left : lead.dropWhile isSpace with
      | nil => exact absurd (List.dropWhile_eq_nil_iff.mp left) spaces
      | cons c more =>
        refine ⟨lead.takeWhile isSpace, c, more, ?_, fun d member => List.mem_takeWhile_imp member, ?_⟩
        · rw [← left, List.takeWhile_append_dropWhile]
        · exact Text.head?_dropWhile_false (by rw [left]; rfl)
    have blank : Text.isBlank c = true := blanks c (by simp)
    have scanned : ofText text =
        ⟨[], .error (.malformed (.unexpectedCharacter c), 0 + gap.length)⟩ := by
      rw [scan, whole, List.append_assoc, List.cons_append, scanAt_gap skipped,
        scanAt_fault other (cut_blank blank _)]
    refine ⟨by rw [scanned], gap, c, more ++ (mnemonic ++ rest), ?_, skipped, blank, other, ?_⟩
    · rw [whole, List.append_assoc, List.cons_append]
    · rw [scanned, Nat.zero_add]

theorem Statement.exists_first_token {line : Line} {statement : Statement} {instruction : Instruction}
    (read : Statement.read line = .ok statement)
    (known : Instruction.find? statement.mnemonic = some instruction) :
    ∃ first rest, (Scan.ofText line.text).tokens = first :: rest ∧
      first.lexeme = .word statement.mnemonic ∧ first.text = statement.mnemonic ∧
      line.text.slice first.start first.stop = statement.mnemonic ∧
      ∀ operand ∈ statement.operands, first.stop ≤ operand.start := by
  have mnemonic := Statement.mnemonic_of_read read
  obtain ⟨content, first, tokens, operands, name, tiled, -, listed, rfl⟩ :=
    Statement.read_eq_ok_iff.mp read
  have scanned : (Scan.ofText line.text).tokens = first :: tokens :=
    congrArg Scan.tokens (Scan.scanAt_of_tiled tiled)
  rcases Scan.ofText_mnemonic known with ⟨unscanned, -⟩ | ⟨head, rest, begins, word, text, slice, -⟩
  · cases unscanned.symm.trans scanned
  · cases begins.symm.trans scanned
    refine ⟨first, tokens, scanned, word, text, slice, fun operand member => ?_⟩
    obtain ⟨-, -, later⟩ := tiled.spans
    exact ((listed.continued.spans later).within _ (List.mem_map_of_mem member)).1

/-- The mnemonic that is sized is the one that is scanned. If the first word of a text is in the catalog,
the scan fails on white space in front of it or takes it for its first token, which no other token
overlaps. And the size, the check and the expansion of a line of code all go by the entry of the
catalog that the first token names. -/
theorem mnemonic_scanned_as_sized :
    (∀ (text : Text) (instruction : Instruction), instruction ∈ Instruction.catalog →
      instruction.mnemonic = Text.firstWord text →
      ((Scan.ofText text).tokens = [] ∧ ∃ front c rest, text = front ++ c :: rest ∧
        (∀ d ∈ front, Scan.isSpace d = true) ∧ Text.isBlank c = true ∧ Scan.isSpace c = false ∧
        (Scan.ofText text).ending = .error (.malformed (.unexpectedCharacter c), front.length)) ∨
      ∃ first rest, (Scan.ofText text).tokens = first :: rest ∧
        first.lexeme = .word instruction.mnemonic ∧ first.text = instruction.mnemonic ∧
        text.slice first.start first.stop = instruction.mnemonic ∧
        ∀ token ∈ rest, first.stop ≤ token.start) ∧
    ∀ (line : Line) (statement : Statement) (size : Nat) (shape : Shape),
      contentSize (some .code) line.text = .ok size → Statement.read line = .ok statement →
      statement.check = .ok shape →
      ∃ instruction first rest, instruction ∈ Instruction.catalog ∧
        (∀ other ∈ Instruction.catalog, other.mnemonic = statement.mnemonic ↔ other = instruction) ∧
        instruction.size = size ∧ shape ∈ instruction.shapes ∧
        Instruction.pseudo? statement.mnemonic = instruction.pseudo ∧
        (Scan.ofText line.text).tokens = first :: rest ∧
        first.lexeme = .word statement.mnemonic ∧ first.text = statement.mnemonic ∧
        line.text.slice first.start first.stop = statement.mnemonic ∧
        (∀ operand ∈ statement.operands, first.stop ≤ operand.start) ∧
        Entry.ofCode line = .ok (.code statement instruction shape) := by
  constructor
  · intro text instruction listed named
    have known := Instruction.find?_eq_some_iff.mpr ⟨listed, named⟩
    rw [named]
    exact Scan.ofText_mnemonic known
  · intro line statement size shape sized read check
    obtain ⟨instruction, listed, named, -, shaped, -⟩ := Statement.check_eq_ok_iff_holds.mp check
    have known := Instruction.find?_eq_some_iff.mpr ⟨listed, named⟩
    obtain ⟨first, rest, scanned, word, text, slice, behind⟩ := Statement.exists_first_token read known
    have sizing : Instruction.ofContent line.text = .ok instruction := by
      rw [Instruction.ofContent_eq_ok_iff, ← Statement.mnemonic_of_read read]
      exact known
    refine ⟨instruction, first, rest, listed, fun other member => ⟨fun same => ?_, ?_⟩, ?_, shaped, ?_,
      scanned, word, text, slice, behind, ?_⟩
    · exact Option.some.inj
        ((Instruction.find?_eq_some_iff.mpr ⟨member, same⟩).symm.trans known)
    · rintro rfl
      exact named
    · rw [contentSize, sizing] at sized
      exact Except.ok.inj sized
    · rw [Instruction.pseudo?, known, Option.bind_some]
    · have content := (Statement.read_eq_ok_iff.mp read).1
      exact (Entry.ofCode_eq_ok_iff content).mpr
        ⟨statement, instruction, shape, rfl, content, read, known, check⟩

/-- A no-break space ends the mnemonic for the scan as well, which then stops; tabs do not stop it. -/
theorem mnemonic_scanned_as_sized_blanks :
    let text : Text := "push\u00A0r7"
    let line := Line.ofContent "\t push\tr7" 0 "demo" 1
    let push : Instruction := ⟨"push", [[.register]], .fixed8, some .push⟩
    let statement : Statement := ⟨"push", [⟨.register 7, "r7", 7, 9, false⟩], line⟩
    push ∈ Instruction.catalog ∧ push.mnemonic = Text.firstWord text ∧
    (Scan.ofText text).ending = .error (.malformed (.unexpectedCharacter '\u00A0'), 4) ∧
    (∃ first rest, (Scan.ofText text).tokens = first :: rest ∧ first.lexeme = .word "push") ∧
    contentSize (some .code) line.text = .ok 8 ∧ Statement.read line = .ok statement ∧
    statement.check = .ok [.register] ∧
    ∃ instruction first rest, instruction.size = 8 ∧
      (Scan.ofText line.text).tokens = first :: rest ∧ first.text = "push" ∧
      Entry.ofCode line = .ok (.code statement instruction [.register]) := by
  intro text line push statement
  have listed : push ∈ Instruction.catalog := by decide
  have named : push.mnemonic = Text.firstWord text := by rfl
  have sized : contentSize (some .code) line.text = .ok 8 := by rfl
  have read : Statement.read line = .ok statement := by rfl
  have check : statement.check = .ok [.register] := by rfl
  obtain ⟨scans, agrees⟩ := mnemonic_scanned_as_sized
  refine ⟨listed, named, rfl, ?_, sized, read, check, ?_⟩
  · rcases scans text push listed named with ⟨unscanned, -⟩ | ⟨first, rest, begins, word, -⟩
    · cases unscanned
    · exact ⟨first, rest, begins, word⟩
  · obtain ⟨instruction, first, rest, -, -, size, -, -, scanned, -, first_text, -, -, entry⟩ :=
      agrees line statement 8 [.register] sized read check
    exact ⟨instruction, first, rest, size, scanned, first_text, entry⟩

end TwoPass
