import TwoPass.Proofs.Admission
import TwoPass.Proofs.Line

/-! Statements that are written out can be read back.

A statement is written as its mnemonic, a space, and its operands with a comma and a space between
them. Whatever spelling of each operand is chosen, the line is content, and reading it gives the
mnemonic and operands that denote the same. -/

set_option autoImplicit false

namespace TwoPass

open Scan (Apart Tiled)

inductive Operand.Value.Spelled : Operand.Value → Text → Prop where
  | register {index : Nat} {text : Text} : (Lexeme.register index).Spelled text →
      Spelled (.register index) text
  | immediate {value : Int} {text : Text} : (Lexeme.number value).Spelled text →
      Spelled (.immediate value) text
  | label {name text : Text} : (Lexeme.label name).Spelled text → Spelled (.label name) text
  | memory {index : Nat} {value : Int} {base displacement : Text} :
      (Lexeme.register index).Spelled base → (Lexeme.number value).Spelled displacement →
      Spelled (.memory index value 0)
        (['('] ++ (base ++ ([')'] ++ (['('] ++ (displacement ++ [')'])))))

/-- A lexeme is written with characters of names, parentheses, signs and a colon; the comma is the only
one with a comma in it. -/
theorem Lexeme.Spelled.characters {lexeme : Lexeme} {text : Text} (spelled : lexeme.Spelled text) :
    ∀ c ∈ text, Text.isNameChar c = true ∨ c ∈ ['(', ')', '+', '-', ':'] ∨
      c = ',' ∧ lexeme = .comma := by
  have ofSign : ∀ sign : Text, Scan.IsSign sign → ∀ c ∈ sign, c ∈ ['(', ')', '+', '-', ':'] := by
    rintro sign (rfl | rfl | rfl) c member <;> simp_all
  have ofMark : ∀ mark : Text, Scan.IsHexMark mark → ∀ c ∈ mark, Text.isNameChar c = true := by
    rintro mark (rfl | rfl) <;> exact List.all_eq_true.mp rfl
  intro c member
  cases spelled with
  | comma => exact .inr (.inr ⟨List.mem_singleton.mp member, rfl⟩)
  | openParen | closeParen =>
    cases List.mem_singleton.mp member
    exact .inr (.inl (by decide))
  | word valid other => exact .inl (Scan.isNameChar_of_mem_name valid c member)
  | register nonempty allDigits short =>
    rcases List.mem_cons.mp member with rfl | member
    · exact .inl (by decide)
    · exact .inl (Text.isNameChar_of_isDigit (allDigits c member))
  | decimal signs nonempty allDigits short =>
    rcases List.mem_append.mp member with member | member
    · exact .inr (.inl (ofSign _ signs c member))
    · exact .inl (Text.isNameChar_of_isDigit (allDigits c member))
  | hexadecimal signs marks nonempty allDigits =>
    simp only [List.mem_append] at member
    rcases member with member | member | member
    · exact .inr (.inl (ofSign _ signs c member))
    · exact .inl (ofMark _ marks c member)
    · exact .inl (Text.isNameChar_of_isHexDigit (allDigits c member))
  | label valid =>
    rcases List.mem_cons.mp member with rfl | member
    · exact .inr (.inl (by decide))
    · exact .inl (Scan.isNameChar_of_mem_name valid c member)

theorem Lexeme.Spelled.visible {lexeme : Lexeme} {text : Text} (spelled : lexeme.Spelled text) :
    ∀ c ∈ text, Text.isBlank c = false ∧ c ≠ ';' := by
  have ofMark : ∀ mark ∈ ['(', ')', '+', '-', ':'], Text.isBlank mark = false ∧ mark ≠ ';' := by
    simp only [List.forall_mem_cons, List.not_mem_nil, false_implies, implies_true, and_true]
    decide
  intro c member
  rcases spelled.characters c member with named | mark | ⟨rfl, -⟩
  · refine ⟨Text.not_isBlank_of_isNameChar named, ?_⟩
    rintro rfl
    exact absurd named (by decide)
  · exact ofMark c mark
  · decide

theorem Scan.Tiled.visible {position : Nat} {text : Text} {tokens : List Token}
    (tiled : Scan.Tiled position text tokens) :
    ∀ c ∈ text, Scan.isSpace c = true ∨ Text.isBlank c = false ∧ c ≠ ';' := by
  induction tiled with
  | spaces gap => exact fun c member => .inl (gap c member)
  | token gap spelled ends more ih =>
    intro c member
    rcases List.mem_append.mp member with inGap | others
    · exact .inl (gap c inGap)
    · rcases List.mem_append.mp others with inToken | inRest
      · exact .inr (spelled.visible c inToken)
      · exact ih c inRest

theorem Scan.Tiled.uncommented {position : Nat} {text : Text} {tokens : List Token}
    (tiled : Scan.Tiled position text tokens) : ';' ∉ text := by
  intro member
  rcases tiled.visible ';' member with space | ⟨-, other⟩
  · cases space
  · exact other rfl

theorem Operand.Value.Spelled.visible {value : Operand.Value} {text : Text}
    (spelled : value.Spelled text) : text ≠ [] ∧ ∀ c ∈ text, Text.isBlank c = false ∧ c ≠ ';' := by
  cases spelled with
  | register spelled => exact ⟨Scan.ne_nil_of_spelled spelled, spelled.visible⟩
  | immediate spelled => exact ⟨Scan.ne_nil_of_spelled spelled, spelled.visible⟩
  | label spelled => exact ⟨Scan.ne_nil_of_spelled spelled, spelled.visible⟩
  | memory register number =>
    refine ⟨by simp, fun c member => ?_⟩
    simp only [List.mem_append] at member
    rcases member with member | member | member | member | member | member
    · exact Lexeme.Spelled.openParen.visible c member
    · exact register.visible c member
    · exact Lexeme.Spelled.closeParen.visible c member
    · exact Lexeme.Spelled.openParen.visible c member
    · exact number.visible c member
    · exact Lexeme.Spelled.closeParen.visible c member

namespace Operand

theorem slice_of_drop {text written rest : Text} {position : Nat}
    (there : text.drop position = written ++ rest) :
    text.slice position (position + written.length) = written := by
  rw [Text.slice, List.drop_take, there, Nat.add_sub_cancel_left, List.take_left]

theorem tiled_operand {value : Operand.Value} {written rest : Text} {position : Nat}
    {tokens : List Token} (spelled : value.Spelled written) (apart : Apart rest)
    (more : Tiled (position + written.length) rest tokens) :
    ∃ own, Tiled position (written ++ rest) (own ++ tokens) ∧
      ∀ text : Text, text.drop position = written ++ rest →
        ∃ operand, Derived text own operand ∧ operand.value.placeless = value ∧
          operand.text = written := by
  cases spelled with
  | register spelled =>
    refine ⟨[_], Scan.tiled_lexeme spelled (.inr apart) more, fun text there => ?_⟩
    exact ⟨_, .register rfl, rfl, rfl⟩
  | immediate spelled =>
    refine ⟨[_], Scan.tiled_lexeme spelled (.inr apart) more, fun text there => ?_⟩
    exact ⟨_, .immediate rfl, rfl, rfl⟩
  | label spelled =>
    refine ⟨[_], Scan.tiled_lexeme spelled (.inr apart) more, fun text there => ?_⟩
    exact ⟨_, .label rfl, rfl, rfl⟩
  | @memory index value base displacement register number =>
    have beforeParen : ∀ text : Text, Apart ([')'] ++ text) :=
      fun text => Scan.apart_cons (by decide)
    -- the six tokens are put in front one by one, from the last to the first
    simp only [List.length_append, ← Nat.add_assoc] at more
    have closing := Scan.tiled_lexeme .closeParen (.inl rfl) more
    have place := Scan.tiled_lexeme number (.inr (beforeParen _)) closing
    have outer := Scan.tiled_lexeme .openParen (.inl rfl) place
    have inner := Scan.tiled_lexeme .closeParen (.inl rfl) outer
    have named := Scan.tiled_lexeme register (.inr (beforeParen _)) inner
    have opening := Scan.tiled_lexeme .openParen (.inl rfl) named
    refine ⟨[_, _, _, _, _, _], by simp only [List.append_assoc]; exact opening, ?_⟩
    intro text there
    refine ⟨_, .memory rfl rfl rfl rfl rfl rfl, rfl, ?_⟩
    have slice := slice_of_drop there
    simpa only [List.length_append, ← Nat.add_assoc] using slice

def tailText (written : List Text) : Text := written.flatMap fun text => [','] ++ ([' '] ++ text)

theorem join_cons (first : Text) (rest : List Text) :
    Text.join ", " (first :: rest) = first ++ tailText rest := by
  induction rest generalizing first with
  | nil => simp [Text.join, List.intercalate, tailText]
  | cons second others ih =>
    have step : Text.join ", " (first :: second :: others) =
        first ++ (", " ++ Text.join ", " (second :: others)) := by
      simp [Text.join, List.intercalate, List.intersperse]
    rw [step, ih]
    simp [tailText]

theorem exists_join_concat (before : List Text) (last : Text) :
    ∃ front, Text.join ", " (before ++ [last]) = front ++ last := by
  cases before with
  | nil => exact ⟨[], by rw [List.nil_append, join_cons]; simp [tailText]⟩
  | cons first rest =>
    refine ⟨first ++ (tailText rest ++ ", "), ?_⟩
    rw [List.cons_append, join_cons]
    simp [tailText]

theorem mem_join {c : Char} {written : List Text} (member : c ∈ Text.join ", " written) :
    (∃ text ∈ written, c ∈ text) ∨ c ∈ (", " : Text) := by
  cases written with
  | nil => simp [Text.join, List.intercalate] at member
  | cons first rest =>
    rw [join_cons, List.mem_append] at member
    rcases member with inFirst | inTail
    · exact .inl ⟨first, List.mem_cons_self, inFirst⟩
    · simp only [tailText, List.mem_flatMap, List.mem_append] at inTail
      obtain ⟨text, inRest, comma | space | inText⟩ := inTail
      · exact .inr (List.mem_append_left [' '] comma)
      · exact .inr (List.mem_append_right [','] space)
      · exact .inl ⟨text, List.mem_cons_of_mem first inRest, inText⟩

theorem apart_tailText (written : List Text) : Apart (tailText written) := by
  cases written with
  | nil => exact Scan.apart_nil
  | cons first rest => exact Scan.apart_cons (by decide)

theorem tiled_tailText {parts : List (Operand.Value × Text)}
    (spelled : ∀ part ∈ parts, part.1.Spelled part.2) (position : Nat) :
    ∃ tokens, Tiled position (tailText (parts.map Prod.snd)) tokens ∧
      ∀ text : Text, text.drop position = tailText (parts.map Prod.snd) →
        ∃ operands, Continued text tokens operands ∧
          operands.map (·.value.placeless) = parts.map Prod.fst := by
  induction parts generalizing position with
  | nil => exact ⟨[], .spaces (by simp [tailText]), fun text there => ⟨[], .nil, rfl⟩⟩
  | cons part rest ih =>
    obtain ⟨value, written⟩ := part
    rw [List.forall_mem_cons] at spelled
    have split : tailText (((value, written) :: rest).map Prod.snd) =
        [','] ++ ([' '] ++ (written ++ tailText (rest.map Prod.snd))) := by
      simp [tailText]
    obtain ⟨later, tiledLater, readLater⟩ := ih spelled.2 (position + 1 + 1 + written.length)
    obtain ⟨own, tiledOwn, readOwn⟩ :=
      tiled_operand spelled.1 (apart_tailText _) tiledLater
    have tiledGap : Tiled (position + 1) ([' '] ++ (written ++ tailText (rest.map Prod.snd)))
        (own ++ later) := Scan.tiled_space rfl tiledOwn
    rw [split]
    refine ⟨_, Scan.tiled_lexeme .comma (.inl rfl) tiledGap, fun text there => ?_⟩
    -- the operand stands behind the comma and the space, and the others behind it
    have thereOwn : text.drop (position + 1 + 1) = written ++ tailText (rest.map Prod.snd) := by
      rw [Nat.add_assoc, ← List.drop_drop, there]
      rfl
    have thereLater : text.drop (position + 1 + 1 + written.length) =
        tailText (rest.map Prod.snd) := by
      rw [← List.drop_drop, thereOwn, List.drop_left]
    obtain ⟨operand, derived, denotes, -⟩ := readOwn text thereOwn
    obtain ⟨operands, continued, denoteLater⟩ := readLater text thereLater
    refine ⟨operand :: operands, .comma rfl derived continued, ?_⟩
    simp [denotes, denoteLater]

end Operand

theorem firstWord_name {name rest : Text} (valid : Text.isName name = true)
    (ends : ∀ c, rest.head? = some c → Text.isBlank c = true) :
    Text.firstWord (name ++ rest) = name := by
  have visible : ∀ c ∈ name, Text.isBlank c = false :=
    fun c member => Text.not_isBlank_of_isNameChar (Scan.isNameChar_of_mem_name valid c member)
  have untrimmed : Text.trimLeft (name ++ rest) = name ++ rest := by
    apply Text.dropWhile_eq_self
    intro c first
    cases name with
    | nil => exact absurd valid (by decide)
    | cons d more =>
      cases first
      exact visible c List.mem_cons_self
  rw [Text.firstWord, untrimmed, List.takeWhile_append_of_pos (by simpa using visible)]
  cases rest with
  | nil => simp
  | cons c more => simp [ends c rfl]

namespace Statement

def writtenText (mnemonic : Text) (written : List Text) : Text :=
  mnemonic ++ " " ++ Text.join ", " written

theorem isContent_of_name {mnemonic rest : Text} (valid : Text.isName mnemonic = true)
    (last : ∀ c, rest.getLast? = some c → Text.isBlank c = false) (uncommented : ';' ∉ rest) :
    Line.IsContent (mnemonic ++ rest) := by
  have named := Scan.isNameChar_of_mem_name valid
  obtain ⟨start, more, rfl⟩ : ∃ start more, mnemonic = start :: more := by
    cases mnemonic with
    | nil => exact absurd valid (by decide)
    | cons start more => exact ⟨start, more, rfl⟩
  have startNamed := named start List.mem_cons_self
  have other : ∀ mark : Char, Text.isNameChar mark = false → start ≠ mark := by
    rintro mark unnamed rfl
    simp [startNamed] at unnamed
  constructor
  · constructor
    · intro c first
      cases first
      exact Text.not_isBlank_of_isNameChar startNamed
    · refine Text.getLast?_append_visible (fun _ c final => ?_) last
      exact Text.not_isBlank_of_isNameChar (named c (List.mem_of_getLast? final))
  · exact Line.Body.ofText_eq_content_iff.mpr
      ⟨start, _, rfl, other ';' (by decide), other '.' (by decide), other ':' (by decide)⟩
  · intro member
    rcases List.mem_append.mp member with inName | inRest
    · exact absurd (named ';' inName) (by decide)
    · exact uncommented inRest

theorem isContent_written {mnemonic : Text} {written : List Text} (valid : Text.isName mnemonic = true)
    (some_text : written ≠ [])
    (visible : ∀ text ∈ written, text ≠ [] ∧ ∀ c ∈ text, Text.isBlank c = false ∧ c ≠ ';') :
    Line.IsContent (writtenText mnemonic written) := by
  rw [writtenText, List.append_assoc]
  refine isContent_of_name valid ?_ ?_
  · -- the last character is that of the last operand
    obtain ⟨front, joined⟩ :=
      Operand.exists_join_concat written.dropLast (written.getLast some_text)
    have shown := visible (written.getLast some_text) (List.getLast_mem some_text)
    rw [List.dropLast_concat_getLast some_text] at joined
    rw [joined, ← List.append_assoc]
    refine Text.getLast?_append_visible (fun empty => absurd empty shown.1) fun c last => ?_
    exact (shown.2 c (List.mem_of_getLast? last)).1
  · intro member
    rcases List.mem_append.mp member with space | inOperand
    · simp at space
    · rcases Operand.mem_join inOperand with ⟨text, inside, member⟩ | separator
      · exact (visible text inside).2 ';' member |>.2 rfl
      · simp at separator

/-- Reading what is written gives the mnemonic and operands that denote the same. -/
theorem read_written {mnemonic : Text} {parts : List (Operand.Value × Text)} {line : Line}
    (word : (Lexeme.word mnemonic).Spelled mnemonic) (some_part : parts ≠ [])
    (spelled : ∀ part ∈ parts, part.1.Spelled part.2) (content : line.body = .content)
    (text : line.text = writtenText mnemonic (parts.map Prod.snd)) :
    ∃ operands, Statement.read line = .ok ⟨mnemonic, operands, line⟩ ∧
      operands.map (·.value.placeless) = parts.map Prod.fst := by
  obtain ⟨⟨value, written⟩, rest, rfl⟩ := List.exists_cons_of_ne_nil some_part
  rw [List.forall_mem_cons] at spelled
  have split : line.text =
      mnemonic ++ ([' '] ++ (written ++ Operand.tailText (rest.map Prod.snd))) := by
    rw [text, writtenText, List.map_cons, Operand.join_cons, List.append_assoc]
    rfl
  obtain ⟨later, tiledLater, readLater⟩ :=
    Operand.tiled_tailText spelled.2 (0 + mnemonic.length + 1 + written.length)
  obtain ⟨own, tiledOwn, readOwn⟩ :=
    Operand.tiled_operand spelled.1 (Operand.apart_tailText _) tiledLater
  have tiledGap := Scan.tiled_space (c := ' ') rfl tiledOwn
  have tiled := Scan.tiled_lexeme word (.inr (Scan.apart_cons (by decide))) tiledGap
  have there : line.text.drop (0 + mnemonic.length + 1) =
      written ++ Operand.tailText (rest.map Prod.snd) := by
    rw [split, ← List.drop_drop, Nat.zero_add, List.drop_left]
    rfl
  have thereLater : line.text.drop (0 + mnemonic.length + 1 + written.length) =
      Operand.tailText (rest.map Prod.snd) := by
    rw [← List.drop_drop, there, List.drop_left]
  obtain ⟨operand, derived, denotes, -⟩ := readOwn line.text there
  obtain ⟨operands, continued, denoteLater⟩ := readLater line.text thereLater
  have valid : Text.isName mnemonic = true := by
    cases word with
    | word valid other => exact valid
  refine ⟨operand :: operands, Statement.read_eq_ok_iff.mpr ⟨content, _, _, _, _, split ▸ tiled, rfl,
    .operand derived continued, ?_⟩, by simp [denotes, denoteLater]⟩
  rw [split, firstWord_name valid (by simp [Text.isBlank])]

end Statement

end TwoPass
