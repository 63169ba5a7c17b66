import TwoPass.Proofs.Meaning
import TwoPass.Proofs.Primitive

/-! Printing statements.

A number is printed in decimal or hexadecimal digits, maybe behind a sign and behind zeros, and an
operand as what it denotes. Digits are told from the number here, and not the number from the digits.
Whatever way is chosen for each operand, the printed line is read back as the statement. -/

set_option autoImplicit false

namespace TwoPass

namespace Numeral

open Scan (IsSign IsHexMark signed)

inductive Printed : Int → Text → Prop
  | decimal {sign : Text} {value width : Nat} : IsSign sign →
    ((decimalNat value).leftpad width '0').length ≤ digitLimit →
    Printed (signed sign value) (sign ++ (decimalNat value).leftpad width '0')
  | hexadecimal {sign mark digits : Text} {value width : Nat} : IsSign sign → IsHexMark mark →
    digits.map Char.toLower = Nat.toDigits 16 value →
    Printed (signed sign value) (sign ++ (mark ++ digits.leftpad width '0'))

theorem foldl_leftpad {base : Nat} {digitValue : Char → Nat} (zero : digitValue '0' = 0)
    (digits : Text) (width : Nat) :
    (digits.leftpad width '0').foldl (fun value c => base * value + digitValue c) 0 =
      digits.foldl (fun value c => base * value + digitValue c) 0 := by
  rw [List.leftpad]
  induction width - digits.length with
  | zero => rfl
  | succ zeros ih =>
    rw [List.replicate_succ, List.cons_append, List.foldl_cons, zero]
    exact ih

theorem mem_leftpad {c : Char} {digits : Text} {width : Nat} (member : c ∈ digits.leftpad width '0') :
    c = '0' ∨ c ∈ digits := by
  rw [List.leftpad, List.mem_append] at member
  exact member.imp_left List.eq_of_mem_replicate

theorem leftpad_ne_nil {digits : Text} (nonempty : digits ≠ []) (width : Nat) :
    digits.leftpad width '0' ≠ [] := by
  rw [List.leftpad]
  exact List.append_ne_nil_of_right_ne_nil _ nonempty

theorem toNat_toLower (c : Char) :
    c.toLower.toNat = if 65 ≤ c.toNat ∧ c.toNat ≤ 90 then c.toNat + 32 else c.toNat := by
  have upper : (c.val ≥ 'A'.val ∧ c.val ≤ 'Z'.val) ↔ 65 ≤ c.toNat ∧ c.toNat ≤ 90 := Iff.rfl
  by_cases isUpper : 65 ≤ c.toNat ∧ c.toNat ≤ 90
  · have lowered : c.toLower.val = c.val + ('a'.val - 'A'.val) :=
      congrArg Char.val (dif_pos (upper.mpr isUpper))
    have distance : ('a'.val - 'A'.val).toNat = 32 := rfl
    have small : c.val.toNat ≤ 90 := isUpper.2
    rw [if_pos isUpper, Char.toNat, Char.toNat, lowered, UInt32.toNat_add, distance]
    omega
  · have kept : c.toLower = c := dif_neg (mt upper.mp isUpper)
    rw [kept, if_neg isUpper]

theorem isHexDigit_of_toLower {c : Char} (digit : isHexDigit c.toLower = true) :
    isHexDigit c = true := by
  rw [Text.isHexDigit_iff, toNat_toLower] at digit
  rw [Text.isHexDigit_iff]
  split at digit <;> omega

theorem hexDigitValue_eq (c : Char) : hexDigitValue c =
    if 48 ≤ c.toNat ∧ c.toNat ≤ 57 then c.toNat - 48
    else if 97 ≤ c.toNat then c.toNat - 97 + 10 else c.toNat - 65 + 10 := by
  have lower : 'a' ≤ c ↔ 97 ≤ c.toNat := Iff.rfl
  simp only [hexDigitValue, Text.isDigit_iff, lower]
  rfl

theorem hexDigitValue_toLower (c : Char) : hexDigitValue c.toLower = hexDigitValue c := by
  rw [hexDigitValue_eq, hexDigitValue_eq, toNat_toLower]
  by_cases upper : 65 ≤ c.toNat ∧ c.toNat ≤ 90
  · rw [if_pos upper, if_neg (by omega), if_pos (by omega), if_neg (by omega), if_neg (by omega)]
    omega
  · rw [if_neg upper]

theorem readHex_map_toLower (digits : Text) : readHex (digits.map Char.toLower) = readHex digits := by
  rw [readHex, readHex, List.foldl_map]
  simp only [hexDigitValue_toLower]

theorem digitChar_hex : ∀ digit < 16, isHexDigit digit.digitChar = true ∧
    hexDigitValue digit.digitChar = digit := by
  decide

theorem readHex_toDigits (value : Nat) : readHex (Nat.toDigits 16 value) = value := by
  induction value using Nat.strong_induction_on with
  | _ value ih =>
    rw [Nat.toDigits_eq_if (by decide)]
    split
    · next single =>
      rw [readHex, List.foldl_cons, List.foldl_nil, (digitChar_hex value single).2]
      omega
    · next several =>
      have last := (digitChar_hex (value % 16) (Nat.mod_lt value (by decide))).2
      have front := ih (value / 16) (by omega)
      rw [readHex] at front ⊢
      rw [List.foldl_append, front, List.foldl_cons, List.foldl_nil, last]
      omega

theorem exists_digitChar_of_mem_toDigits {value : Nat} {c : Char} (member : c ∈ Nat.toDigits 16 value) :
    ∃ digit < 16, c = digit.digitChar := by
  induction value using Nat.strong_induction_on with
  | _ value ih =>
    rw [Nat.toDigits_eq_if (by decide)] at member
    split at member
    · next single => exact ⟨value, single, List.mem_singleton.mp member⟩
    · next several =>
      rcases List.mem_append.mp member with front | last
      · exact ih (value / 16) (by omega) front
      · exact ⟨value % 16, Nat.mod_lt value (by decide), List.mem_singleton.mp last⟩

theorem isHexDigit_of_mem_toDigits {value : Nat} {c : Char} (member : c ∈ Nat.toDigits 16 value) :
    isHexDigit c = true := by
  obtain ⟨digit, small, rfl⟩ := exists_digitChar_of_mem_toDigits member
  exact (digitChar_hex digit small).1

theorem decimal_digits (value width : Nat) :
    (decimalNat value).leftpad width '0' ≠ [] ∧
      (∀ c ∈ (decimalNat value).leftpad width '0', c.isDigit = true) ∧
      Nat.ofDigitChars 10 ((decimalNat value).leftpad width '0') 0 = value := by
  refine ⟨leftpad_ne_nil (decimalNat_ne_nil value) width, fun c member => ?_, ?_⟩
  · rcases mem_leftpad member with rfl | inside
    · rfl
    · exact isDigit_of_mem_decimalNat inside
  · rw [Nat.ofDigitChars_eq_foldl, foldl_leftpad rfl, ← Nat.ofDigitChars_eq_foldl]
    exact Nat.ofDigitChars_ten_toDigits

theorem hexadecimal_digits {digits : Text} {value : Nat}
    (lowered : digits.map Char.toLower = Nat.toDigits 16 value) (width : Nat) :
    digits.leftpad width '0' ≠ [] ∧
      (∀ c ∈ digits.leftpad width '0', isHexDigit c = true) ∧
      readHex (digits.leftpad width '0') = value := by
  refine ⟨leftpad_ne_nil ?_ width, fun c member => ?_, ?_⟩
  · rintro rfl
    exact Nat.toDigits_ne_nil lowered.symm
  · rcases mem_leftpad member with rfl | inside
    · rfl
    · apply isHexDigit_of_toLower
      apply @isHexDigit_of_mem_toDigits value
      rw [← lowered]
      exact List.mem_map_of_mem inside
  · rw [readHex, foldl_leftpad rfl, ← readHex, ← readHex_map_toLower, lowered, readHex_toDigits]

theorem Printed.spelled {value : Int} {text : Text} (printed : Printed value text) :
    (Lexeme.number value).Spelled text := by
  cases printed with
  | @decimal sign value width signs short =>
    obtain ⟨nonempty, allDigits, same⟩ := decimal_digits value width
    have spelled := Lexeme.Spelled.decimal signs nonempty allDigits short
    rwa [same] at spelled
  | @hexadecimal sign mark digits value width signs marks lowered =>
    obtain ⟨nonempty, allDigits, same⟩ := hexadecimal_digits lowered width
    have spelled := Lexeme.Spelled.hexadecimal signs marks nonempty allDigits
    rwa [same] at spelled

end Numeral

namespace Operand.Value

inductive Printed : Operand.Value → Text → Prop
  | register {index width : Nat} :
    ((Numeral.decimalNat index).leftpad width '0').length ≤ Numeral.digitLimit →
    Printed (.register index) ('r' :: (Numeral.decimalNat index).leftpad width '0')
  | immediate {value : Int} {text : Text} : Numeral.Printed value text →
    Printed (.immediate value) text
  | memory {index : Nat} {value : Int} {base displacement : Text} : Printed (.register index) base →
    Numeral.Printed value displacement →
    Printed (.memory index value 0) ("(" ++ base ++ ")(" ++ displacement ++ ")")
  | label {name : Text} : Text.isName name = true → Printed (.label name) (':' :: name)

theorem Printed.spelled_register {index : Nat} {text : Text}
    (printed : Printed (.register index) text) : (Lexeme.register index).Spelled text := by
  cases printed with
  | @register _ width short =>
    obtain ⟨nonempty, allDigits, same⟩ := Numeral.decimal_digits index width
    have spelled := Lexeme.Spelled.register nonempty allDigits short
    rwa [same] at spelled

theorem Printed.spelled {value : Operand.Value} {text : Text} (printed : Printed value text) :
    value.Spelled text := by
  cases printed with
  | register short => exact .register (Printed.register short).spelled_register
  | immediate number => exact .immediate number.spelled
  | label valid => exact .label (.label valid)
  | @memory index value base displacement register number =>
    have spelled := Spelled.memory register.spelled_register number.spelled
    simpa using spelled

end Operand.Value

namespace Instruction

theorem mnemonic_spelled_of_mem {mnemonic : Text} (member : mnemonic ∈ mnemonics) :
    (Lexeme.word mnemonic).Spelled mnemonic := by
  obtain ⟨entry, inCatalog, rfl⟩ := List.mem_map.mp member
  cases found : find? entry.mnemonic with
  | none => exact absurd (List.find?_eq_none.mp found entry inCatalog) (by simp)
  | some instruction => exact mnemonic_spelled found

end Instruction

namespace Statement

theorem read_word {line : Line} (word : (Lexeme.word line.text).Spelled line.text)
    (content : line.body = .content) : Statement.read line = .ok ⟨line.text, [], line⟩ := by
  have tiled := @Scan.tiled_lexeme 0 _ _ [] [] word (.inr Scan.apart_nil) (.spaces nofun)
  rw [List.append_nil] at tiled
  refine read_eq_ok_iff.mpr ⟨content, _, [], [], line.text, tiled, rfl, .nil, ?_⟩
  cases word with
  | word valid other =>
    have first := @firstWord_name line.text [] valid nofun
    rw [List.append_nil] at first
    rw [first]

/-- What can be read from a text: a content line, and a statement with operands that denote these. -/
def ReadsAs (text mnemonic : Text) (values : List Operand.Value) : Prop :=
  ∀ (file : Text) (number : Int), ∃ line operands, Line.read text file number = .ok line ∧
    line.body = .content ∧ Statement.read line = .ok ⟨mnemonic, operands, line⟩ ∧
    operands.map (·.value.placeless) = values

/-- It is enough to read the content without the blanks around it. -/
theorem readsAs_of_content {front text back mnemonic : Text} {values : List Operand.Value}
    (before : ∀ c ∈ front, Text.isBlank c = true) (behind : ∀ c ∈ back, Text.isBlank c = true)
    (content : Line.IsContent text)
    (reads : ∀ line : Line, line.body = .content → line.text = text →
      ∃ operands, Statement.read line = .ok ⟨mnemonic, operands, line⟩ ∧
        operands.map (·.value.placeless) = values) :
    ReadsAs (front ++ (text ++ back)) mnemonic values := by
  intro file number
  have means : Source.meaning? (front ++ (text ++ back)) = some (.content text) := by
    rw [Source.meaning?_indented before, Source.meaning?_trailed behind]
    exact Source.meaning?_of_read (Line.read_content content [] 0)
  obtain ⟨line, read, meaning⟩ := Source.exists_read means file number
  obtain ⟨body, same⟩ := Line.meaning_eq_content_iff.mp meaning
  obtain ⟨operands, told, denote⟩ := reads line body same
  exact ⟨line, operands, read, body, told, denote⟩

theorem readsAs_written {mnemonic indent : Text} {parts : List (Operand.Value × Text)}
    (word : (Lexeme.word mnemonic).Spelled mnemonic)
    (spelled : ∀ part ∈ parts, part.1.Spelled part.2)
    (blank : ∀ c ∈ indent, Text.isBlank c = true) :
    ReadsAs (indent ++ writtenText mnemonic (parts.map Prod.snd)) mnemonic
      (parts.map Prod.fst) := by
  have valid : Text.isName mnemonic = true := by
    cases word with
    | word valid other => exact valid
  cases parts with
  | nil =>
    -- the space behind the mnemonic does not belong to the content
    have content : Line.IsContent mnemonic := by
      have bare := @isContent_of_name mnemonic [] valid (by simp) List.not_mem_nil
      rwa [List.append_nil] at bare
    have trailed : writtenText mnemonic [] = mnemonic ++ [' '] := by
      simp [writtenText, Text.join, List.intercalate]
    rw [List.map_nil, trailed]
    refine readsAs_of_content blank (List.forall_mem_singleton.mpr rfl) content ?_
    rintro line body rfl
    exact ⟨[], read_word word body, rfl⟩
  | cons part rest =>
    have shown : ∀ text ∈ (part :: rest).map Prod.snd,
        text ≠ [] ∧ ∀ c ∈ text, Text.isBlank c = false ∧ c ≠ ';' := by
      rw [List.forall_mem_map]
      exact fun part member => (spelled part member).visible
    have content := isContent_written valid (List.cons_ne_nil _ _) shown
    rw [← List.append_nil (writtenText _ _)]
    refine readsAs_of_content blank (List.forall_mem_nil _) content fun line body text => ?_
    exact read_written word (List.cons_ne_nil part rest) spelled body text

/-- A catalog mnemonic and operands, printed behind any blanks, are content and are read back: the
mnemonic, and operands of the same kinds with the same values and displacements. -/
theorem read_printed {mnemonic indent : Text} {parts : List (Operand.Value × Text)}
    (known : mnemonic ∈ Instruction.mnemonics)
    (printed : ∀ part ∈ parts, part.1.Printed part.2)
    (blank : ∀ c ∈ indent, Text.isBlank c = true) (file : Text) (number : Int) :
    ∃ line operands,
      Line.read (indent ++ (mnemonic ++ " " ++ Text.join ", " (parts.map Prod.snd))) file number =
        .ok line ∧
      line.body = .content ∧ Statement.read line = .ok ⟨mnemonic, operands, line⟩ ∧
      operands.map (·.value.placeless) = parts.map Prod.fst := by
  have word := Instruction.mnemonic_spelled_of_mem known
  exact readsAs_written word (fun part member => (printed part member).spelled) blank file number

/-- Zeros in front of a register, digits in both cases, a label that looks like a register. -/
theorem read_printed_mixed :
    let parts : List (Operand.Value × Text) := [(.register 7, "r007"),
      (.memory 31 (-255) 0, "(r31)(-0xfF)"), (.label "r5", ":r5"), (.immediate 31, "0X1f")]
    "mov".toList ∈ Instruction.mnemonics ∧ (∀ part ∈ parts, part.1.Printed part.2) ∧
    ∃ line operands, Line.read "\t mov r007, (r31)(-0xfF), :r5, 0X1f" "demo" 1 = .ok line ∧
      line.body = .content ∧ Statement.read line = .ok ⟨"mov", operands, line⟩ ∧
      operands.map (·.value.placeless) =
        [.register 7, .memory 31 (-255) 0, .label "r5", .immediate 31] := by
  intro parts
  have known : "mov".toList ∈ Instruction.mnemonics := by decide
  have seven : Operand.Value.Printed (.register 7) "r007" :=
    @Operand.Value.Printed.register 7 3 (by decide)
  have base : Operand.Value.Printed (.register 31) "r31" :=
    @Operand.Value.Printed.register 31 2 (by decide)
  have displacement : Numeral.Printed (-255) "-0xfF" :=
    @Numeral.Printed.hexadecimal ['-'] ['0', 'x'] ['f', 'F'] 255 0 (.inr (.inr rfl)) (.inl rfl) rfl
  have hexadecimal : Numeral.Printed 31 "0X1f" :=
    @Numeral.Printed.hexadecimal [] ['0', 'X'] ['1', 'f'] 31 0 (.inl rfl) (.inr rfl) rfl
  have printed : ∀ part ∈ parts, part.1.Printed part.2 := by
    simp only [parts, List.forall_mem_cons]
    exact ⟨seven, .memory base displacement, .label rfl, .immediate hexadecimal, nofun⟩
  have blank : ∀ c ∈ ['\t', ' '], Text.isBlank c = true :=
    List.forall_mem_cons.mpr ⟨rfl, List.forall_mem_singleton.mpr rfl⟩
  exact ⟨known, printed, @read_printed "mov" ['\t', ' '] parts known printed blank "demo" 1⟩

end Statement

end TwoPass
