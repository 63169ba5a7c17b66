import TwoPass.Proofs.Conversion
import TwoPass.Proofs.Splicing

/-! Spaces and commas between tokens.

A scan looks at tokens and not at the spaces between them, so the texts of the tokens can be joined
by any other spaces. A comma between operands says no more than a space: with every comma replaced by a
space a statement keeps its operands, character by character and in their places. -/

set_option autoImplicit false

namespace TwoPass

open Scan (Tiled isSpace)

def Token.unplaced (token : Token) : Lexeme × Text := (token.lexeme, token.text)

/-- Texts one behind the other, with spaces between any two of them. -/
inductive Text.Rejoined : List Text → Text → Prop
  | nil : Rejoined [] []
  | single (text : Text) : Rejoined [text] text
  | cons {first second gap joined : Text} {texts : List Text} : gap ≠ [] →
      (∀ c ∈ gap, isSpace c = true) → Rejoined (second :: texts) joined →
      Rejoined (first :: second :: texts) (first ++ (gap ++ joined))

theorem Text.Rejoined.exists_tiled {texts : List Text} {joined back : Text} {tokens : List Token}
    (rejoined : Text.Rejoined texts joined) (same : tokens.map Token.text = texts)
    (spelled : ∀ token ∈ tokens, token.lexeme.Spelled token.text)
    (behind : ∀ c ∈ back, isSpace c = true) (position : Nat) :
    ∃ others, Tiled position (joined ++ back) others ∧
      others.map Token.unplaced = tokens.map Token.unplaced := by
  induction rejoined generalizing position tokens with
  | nil =>
    cases List.map_eq_nil_iff.mp same
    exact ⟨[], .spaces behind, rfl⟩
  | single text =>
    obtain ⟨token, rfl, rfl⟩ := List.map_eq_singleton_iff.mp same
    have own := spelled token List.mem_cons_self
    exact ⟨_, Scan.tiled_lexeme own (.inr (Scan.apart_spaces behind)) (.spaces behind), rfl⟩
  | @cons first second gap joined texts some_space spaces rest ih =>
    obtain ⟨token, more, rfl, rfl, later⟩ := List.map_eq_cons_iff.mp same
    rw [List.forall_mem_cons] at spelled
    obtain ⟨others, tiled, alike⟩ := ih later spelled.2 (position + token.text.length + gap.length)
    have apart := Scan.apart_gap spaces some_space (joined ++ back)
    rw [List.append_assoc, List.append_assoc]
    refine ⟨_, Scan.tiled_lexeme spelled.1 (.inr apart) (Scan.tiled_gap spaces tiled), ?_⟩
    rw [List.map_cons, List.map_cons, alike]
    rfl

namespace Text

def withoutCommas (text : Text) : Text := text.map fun c => if c = ',' then ' ' else c

variable {text : Text}

theorem withoutCommas_append (text rest : Text) :
    withoutCommas (text ++ rest) = withoutCommas text ++ withoutCommas rest := List.map_append

theorem withoutCommas_eq_self (absent : ',' ∉ text) : withoutCommas text = text := by
  have kept : ∀ c ∈ text, (if c = ',' then ' ' else c) = c := by
    intro c member
    rw [if_neg]
    rintro rfl
    exact absent member
  rw [withoutCommas, List.map_congr_left kept, List.map_id']

theorem slice_withoutCommas (text : Text) (start stop : Nat) :
    (withoutCommas text).slice start stop = withoutCommas (text.slice start stop) := by
  simp only [slice, withoutCommas, List.map_drop, List.map_take]

theorem takeWhile_withoutCommas (absent : ',' ∉ text.takeWhile (!isBlank ·)) :
    (withoutCommas text).takeWhile (!isBlank ·) = text.takeWhile (!isBlank ·) := by
  induction text with
  | nil => rfl
  | cons c rest ih =>
    by_cases comma : c = ','
    · subst comma
      exact absurd List.mem_cons_self absent
    · cases blank : isBlank c with
      | true => simp [withoutCommas, comma, blank]
      | false =>
        simp only [List.takeWhile_cons, blank, Bool.not_false, if_true, List.mem_cons, not_or] at absent
        simp only [withoutCommas, List.map_cons, comma, if_false, List.takeWhile_cons, blank,
          Bool.not_false, if_true]
        exact congrArg (c :: ·) (ih absent.2)

theorem firstWord_withoutCommas (absent : ',' ∉ firstWord text) :
    firstWord (withoutCommas text) = firstWord text := by
  induction text with
  | nil => rfl
  | cons c rest ih =>
    cases blank : isBlank c with
    | true =>
      have comma : c ≠ ',' := by
        rintro rfl
        exact absurd blank (by decide)
      simp only [firstWord, trimLeft, withoutCommas, List.map_cons, comma, if_false,
        List.dropWhile_cons, blank, if_true] at absent ⊢
      exact ih absent
    | false =>
      have untrimmed : trimLeft (c :: rest) = c :: rest :=
        List.dropWhile_cons_of_neg (by simp [blank])
      rw [firstWord, untrimmed] at absent
      have comma : c ≠ ',' := by
        rintro rfl
        exact absent (by simp [blank])
      have untrimmed' : trimLeft (withoutCommas (c :: rest)) = withoutCommas (c :: rest) := by
        simp [trimLeft, withoutCommas, comma, blank]
      rw [firstWord, untrimmed', firstWord, untrimmed, takeWhile_withoutCommas absent]

theorem Trimmed.withoutCommas (trimmed : Trimmed text) (front : text.head? ≠ some ',')
    (back : text.getLast? ≠ some ',') : Trimmed text.withoutCommas := by
  have visible {c : Char} (own : isBlank c = false) (other : c ≠ ',') :
      isBlank (if c = ',' then ' ' else c) = false := by rwa [if_neg other]
  constructor
  · intro c first
    rw [Text.withoutCommas, List.head?_map, Option.map_eq_some_iff] at first
    obtain ⟨d, head, rfl⟩ := first
    exact visible (trimmed.first d head) fun comma => front (comma ▸ head)
  · intro c last
    rw [Text.withoutCommas, List.getLast?_map, Option.map_eq_some_iff] at last
    obtain ⟨d, ending, rfl⟩ := last
    exact visible (trimmed.last d ending) fun comma => back (comma ▸ ending)

end Text

theorem Lexeme.Spelled.not_mem_comma {lexeme : Lexeme} {text : Text} (spelled : lexeme.Spelled text)
    (other : lexeme ≠ .comma) : ',' ∉ text := by
  intro member
  rcases spelled.characters ',' member with named | mark | ⟨-, comma⟩
  · exact absurd named (by decide)
  · exact absurd mark (by decide)
  · exact other comma

namespace Scan

theorem not_mem_comma_of_spaces {gap : Text} (spaces : ∀ c ∈ gap, isSpace c = true) : ',' ∉ gap :=
  fun member => absurd (spaces ',' member) (by decide)

theorem Apart.withoutCommas {text : Text} (apart : Apart text) : Apart text.withoutCommas := by
  cases text with
  | nil => exact apart_nil
  | cons c rest =>
    refine apart_cons ?_
    dsimp only
    split
    · decide
    · exact apart c rfl

/-- Commas that become spaces are tokens no longer, and the others stay where they are. -/
theorem Tiled.withoutCommas {position : Nat} {text : Text} {tokens : List Token}
    (tiled : Tiled position text tokens) :
    Tiled position text.withoutCommas (tokens.filter (·.lexeme ≠ .comma)) := by
  induction tiled with
  | @spaces position gap spaces =>
    rw [Text.withoutCommas_eq_self (not_mem_comma_of_spaces spaces)]
    exact .spaces spaces
  | @token position gap text rest lexeme tokens spaces spelled ends more ih =>
    rw [Text.withoutCommas_append, Text.withoutCommas_append,
      Text.withoutCommas_eq_self (not_mem_comma_of_spaces spaces)]
    by_cases comma : lexeme = .comma
    · subst comma
      cases spelled
      exact tiled_gap spaces (tiled_space (by decide) ih)
    · rw [Text.withoutCommas_eq_self (spelled.not_mem_comma comma),
        List.filter_cons_of_pos (by simpa using comma)]
      exact .token spaces spelled (ends.imp_right Apart.withoutCommas) ih

def TiledIn (whole : Text) (tokens : List Token) : Prop :=
  ∃ position, Tiled position (whole.drop position) tokens

theorem TiledIn.tail {whole : Text} {token : Token} {tokens : List Token}
    (tiled : TiledIn whole (token :: tokens)) : TiledIn whole tokens := by
  obtain ⟨position, tiled⟩ := tiled
  generalize there : whole.drop position = text at tiled
  cases tiled with
  | @token _ gap written rest lexeme _ spaces spelled ends more =>
    refine ⟨position + gap.length + written.length, ?_⟩
    rw [← List.drop_drop, ← List.drop_drop, there, List.drop_left, List.drop_left]
    exact more

theorem TiledIn.drop {whole : Text} {own rest : List Token} (tiled : TiledIn whole (own ++ rest)) :
    TiledIn whole rest := by
  induction own with
  | nil => exact tiled
  | cons token own ih => exact ih tiled.tail

theorem Tiled.exists_stretch {position : Nat} {text : Text} {own rest : List Token} {first last : Token}
    (tiled : Tiled position text (own ++ rest)) (begins : own.head? = some first)
    (ends : own.getLast? = some last) :
    ∃ lead core trail, text = lead ++ (core ++ trail) ∧ (∀ c ∈ lead, isSpace c = true) ∧
      first.start = position + lead.length ∧ last.stop = first.start + core.length ∧
      ∀ c ∈ core, isSpace c = true ∨ ∃ token ∈ own, c ∈ token.text := by
  induction own generalizing position text first with
  | nil => cases begins
  | cons token own ih =>
    cases begins
    cases tiled with
    | @token _ gap written after lexeme _ spaces spelled apart more =>
      cases own with
      | nil =>
        cases ends
        exact ⟨gap, written, after, rfl, spaces, rfl, rfl,
          fun c member => .inr ⟨_, List.mem_cons_self, member⟩⟩
      | cons second others =>
        rw [List.getLast?_cons_cons] at ends
        obtain ⟨lead, core, trail, rfl, between, starts, stops, inside⟩ := ih more rfl ends
        refine ⟨gap, written ++ (lead ++ core), trail, by simp only [List.append_assoc], spaces, rfl,
          ?_, fun c member => ?_⟩
        · simp only [stops, starts, List.length_append]
          omega
        · rcases List.mem_append.mp member with own | later
          · exact .inr ⟨_, List.mem_cons_self, own⟩
          rcases List.mem_append.mp later with space | later
          · exact .inl (between c space)
          · exact (inside c later).imp_right fun ⟨other, member, written⟩ =>
              ⟨other, List.mem_cons_of_mem _ member, written⟩

theorem TiledIn.mem_slice {whole : Text} {own rest : List Token} {first last : Token} {c : Char}
    (tiled : TiledIn whole (own ++ rest)) (begins : own.head? = some first)
    (ends : own.getLast? = some last) (member : c ∈ whole.slice first.start last.stop) :
    isSpace c = true ∨ ∃ token ∈ own, token.lexeme.Spelled token.text ∧ c ∈ token.text := by
  obtain ⟨position, tiled⟩ := tiled
  obtain ⟨lead, core, trail, there, -, starts, stops, inside⟩ := tiled.exists_stretch begins ends
  have behind : whole.drop first.start = core ++ trail := by
    rw [starts, ← List.drop_drop, there, List.drop_left]
  rw [stops, Operand.slice_of_drop behind] at member
  refine (inside c member).imp_right fun ⟨token, own, written⟩ => ⟨token, own, ?_, written⟩
  exact (tiled.spelled token (List.mem_append_left _ own)).1

end Scan

namespace Operand

variable {text : Text} {own rest tokens : List Token} {operand : Operand} {operands : List Operand}

theorem Derived.ne_comma (derived : Derived text own operand) :
    ∀ token ∈ own, token.lexeme ≠ .comma := by
  cases derived <;> simp_all

theorem Derived.withoutCommas (derived : Derived text own operand)
    (tiled : Scan.TiledIn text (own ++ rest)) : Derived text.withoutCommas own operand := by
  have uncommaed := derived.ne_comma
  cases derived with
  | register lexeme => exact .register lexeme
  | immediate lexeme => exact .immediate lexeme
  | label lexeme => exact .label lexeme
  | @memory opening base inner outer displacement closing index value atOpening atBase atInner atOuter
      atPlace atClosing =>
    -- the text of the operand lies between its parentheses, where no comma stands
    have absent : ',' ∉ text.slice opening.start closing.stop := by
      intro member
      rcases tiled.mem_slice rfl rfl member with space | ⟨token, own, spelled, written⟩
      · exact absurd space (by decide)
      · exact spelled.not_mem_comma (uncommaed token own) written
    have same := Text.slice_withoutCommas text opening.start closing.stop
    rw [Text.withoutCommas_eq_self absent] at same
    rw [← same]
    exact .memory atOpening atBase atInner atOuter atPlace atClosing

theorem Derived.filter_eq (derived : Derived text own operand) :
    own.filter (·.lexeme ≠ .comma) = own :=
  List.filter_eq_self.mpr fun token member => by simpa using derived.ne_comma token member

theorem Continued.withoutCommas (continued : Continued text tokens operands)
    (tiled : Scan.TiledIn text tokens) :
    Continued text.withoutCommas (tokens.filter (·.lexeme ≠ .comma)) operands := by
  induction continued with
  | nil => exact .nil
  | operand derived rest ih =>
    rw [List.filter_append, derived.filter_eq]
    exact .operand (derived.withoutCommas tiled) (ih tiled.drop)
  | comma marked derived rest ih =>
    rw [List.filter_cons_of_neg (by simp [marked]), List.filter_append, derived.filter_eq]
    exact .operand (derived.withoutCommas tiled.tail) (ih tiled.tail.drop)

theorem Listed.withoutCommas (listed : Listed text tokens operands) (tiled : Scan.TiledIn text tokens) :
    Listed text.withoutCommas (tokens.filter (·.lexeme ≠ .comma)) operands := by
  cases listed with
  | nil => exact .nil
  | operand derived rest =>
    rw [List.filter_append, derived.filter_eq]
    exact .operand (derived.withoutCommas tiled) (rest.withoutCommas tiled.drop)

theorem Continued.last_ne_comma (continued : Continued text tokens operands) :
    ∀ token, tokens.getLast? = some token → token.lexeme ≠ .comma := by
  induction continued with
  | nil => simp
  | @operand own rest operand operands derived more ih =>
    intro token last
    rw [List.getLast?_append] at last
    rcases Option.or_eq_some_iff.mp last with later | ⟨-, own⟩
    · exact ih token later
    · exact derived.ne_comma token (List.mem_of_getLast? own)
  | @comma comma own rest operand operands marked derived more ih =>
    intro token last
    rw [List.getLast?_cons_of_ne_nil (by simp [derived.ne_nil]), List.getLast?_append] at last
    rcases Option.or_eq_some_iff.mp last with later | ⟨-, own⟩
    · exact ih token later
    · exact derived.ne_comma token (List.mem_of_getLast? own)

end Operand

theorem Scan.Tiled.first_comma {position : Nat} {text : Text} {tokens : List Token}
    (tiled : Tiled position text tokens) (first : text.head? = some ',') :
    ∃ token, tokens.head? = some token ∧ token.lexeme = .comma := by
  cases tiled with
  | spaces gap => exact absurd (gap ',' (List.mem_of_head? first)) (by decide)
  | @token _ gap written rest lexeme tokens spaces spelled ends more =>
    refine ⟨_, rfl, ?_⟩
    rw [List.head?_append, List.head?_append, Option.or_eq_some_iff, Option.or_eq_some_iff] at first
    rcases first with inGap | ⟨-, own | ⟨empty, -⟩⟩
    · exact absurd (spaces ',' (List.mem_of_head? inGap)) (by decide)
    · by_contra other
      exact spelled.not_mem_comma other (List.mem_of_head? own)
    · exact absurd (List.head?_eq_none_iff.mp empty) (ne_nil_of_spelled spelled)

theorem Scan.Tiled.last_comma {position : Nat} {text : Text} {tokens : List Token}
    (tiled : Tiled position text tokens) (last : text.getLast? = some ',') :
    ∃ token, tokens.getLast? = some token ∧ token.lexeme = .comma := by
  induction tiled with
  | spaces gap => exact absurd (gap ',' (List.mem_of_getLast? last)) (by decide)
  | @token position gap text rest lexeme tokens spaces spelled ends more ih =>
    rw [List.getLast?_append, List.getLast?_append, Option.or_eq_some_iff, Option.or_eq_some_iff] at last
    rcases last with (later | ⟨ended, own⟩) | ⟨-, inGap⟩
    · obtain ⟨token, atEnd, comma⟩ := ih later
      refine ⟨token, ?_, comma⟩
      rw [List.getLast?_cons, atEnd]
      rfl
    · cases List.getLast?_eq_none_iff.mp ended
      -- nothing stands behind the token, so it is the last
      have none_left := (scanAt_of_tiled more).symm.trans (scanAt_nil _)
      cases none_left
      refine ⟨_, rfl, ?_⟩
      by_contra other
      exact spelled.not_mem_comma other (List.mem_of_getLast? own)
    · exact absurd (spaces ',' (List.mem_of_getLast? inGap)) (by decide)

namespace Statement

/-- A statement is the same without its commas, but for a comma that is glued to the mnemonic. -/
theorem read_withoutCommas {line : Line} {statement : Statement}
    (read : Statement.read line = .ok statement) :
    Statement.read { line with text := line.text.withoutCommas } =
      .ok ⟨Text.firstWord line.text.withoutCommas, statement.operands,
        { line with text := line.text.withoutCommas }⟩ := by
  obtain ⟨content, first, tokens, operands, name, tiled, word, listed, rfl⟩ :=
    Statement.read_eq_ok_iff.mp read
  have tiledIn : Scan.TiledIn line.text (first :: tokens) := ⟨0, by rwa [List.drop_zero]⟩
  have tiled' := tiled.withoutCommas
  rw [List.filter_cons_of_pos (by simp [word])] at tiled'
  exact Statement.read_eq_ok_iff.mpr ⟨content, first, _, operands, name, tiled', word,
    listed.withoutCommas tiledIn.tail, rfl⟩

theorem isContent_withoutCommas {line : Line} {statement : Statement}
    (read : Statement.read line = .ok statement) (content : Line.IsContent line.text) :
    Line.IsContent line.text.withoutCommas := by
  obtain ⟨-, first, tokens, operands, name, tiled, word, listed, rfl⟩ :=
    Statement.read_eq_ok_iff.mp read
  have front : line.text.head? ≠ some ',' := by
    intro comma
    obtain ⟨token, atFront, marked⟩ := tiled.first_comma comma
    cases atFront
    cases word.symm.trans marked
  have back : line.text.getLast? ≠ some ',' := by
    intro comma
    obtain ⟨token, atEnd, marked⟩ := tiled.last_comma comma
    cases tokens with
    | nil =>
      cases atEnd
      cases word.symm.trans marked
    | cons second others =>
      rw [List.getLast?_cons_cons] at atEnd
      exact listed.continued.last_ne_comma token atEnd marked
  have tiled' := tiled.withoutCommas
  rw [List.filter_cons_of_pos (by simp [word])] at tiled'
  exact isContent_of_tiled (content.trimmed.withoutCommas front back) tiled' word

end Statement

/-- Neither spaces nor commas between tokens matter. The texts of the tokens of any text, joined by
other spaces and with spaces around them, scan to the same tokens; and a statement without its commas
has the same operands in the same places, and the same mnemonic if that is one of the catalog. -/
theorem spaces_and_commas_irrelevant :
    (∀ (text : Text) (tokens : List Token) (ending : Token),
      Scan.ofText text = ⟨tokens, .ok ending⟩ →
      ∀ front joined back : Text, Text.Rejoined (tokens.map Token.text) joined →
        (∀ c ∈ front, isSpace c = true) → (∀ c ∈ back, isSpace c = true) →
        ∃ others last, Scan.ofText (front ++ (joined ++ back)) = ⟨others, .ok last⟩ ∧
          (others ++ [last]).map Token.unplaced = (tokens ++ [ending]).map Token.unplaced) ∧
    ∀ (line : Line) (statement : Statement), Statement.read line = .ok statement →
      ∃ mnemonic, Statement.read { line with text := line.text.withoutCommas } =
          .ok ⟨mnemonic, statement.operands, { line with text := line.text.withoutCommas }⟩ ∧
        (Line.IsContent line.text → Line.IsContent line.text.withoutCommas) ∧
        (∀ instruction ∈ Instruction.catalog, instruction.mnemonic = statement.mnemonic →
          mnemonic = statement.mnemonic) := by
  constructor
  · intro text tokens ending scanned front joined back rejoined before behind
    obtain ⟨tiled, rfl⟩ := Scan.scanAt_eq_ok_iff.mp scanned
    obtain ⟨others, tiled', same⟩ := rejoined.exists_tiled rfl
      (fun token member => (tiled.spelled token member).1) behind (0 + front.length)
    refine ⟨others, _, Scan.scanAt_of_tiled (Scan.tiled_gap before tiled'), ?_⟩
    rw [List.map_append, List.map_append, same]
    rfl
  · intro line statement read
    refine ⟨_, Statement.read_withoutCommas read, Statement.isContent_withoutCommas read, ?_⟩
    intro instruction listed named
    rw [Statement.mnemonic_of_read read] at named ⊢
    refine Text.firstWord_withoutCommas ?_
    rw [← named]
    have unmarked : ∀ instruction ∈ Instruction.catalog, ',' ∉ instruction.mnemonic := by decide
    exact unmarked instruction listed

/-- A comma without spaces around it can be set apart by tabs, and be left out. -/
theorem spaces_and_commas_irrelevant_glued :
    let line := Line.ofContent "mov (r2)( 8),r1" 0 "demo" 1
    let operands : List Operand :=
      [⟨.memory 2 8 10, "(r2)( 8)", 4, 12, false⟩, ⟨.register 1, "r1", 13, 15, false⟩]
    let tokens := (Scan.ofText line.text).tokens
    Scan.ofText line.text = ⟨tokens, .ok (Scan.endAt 15)⟩ ∧
    Text.Rejoined (tokens.map Token.text) "mov\t(  r2 ) (\t8 )\t , r1" ∧
    Statement.read line = .ok ⟨"mov", operands, line⟩ ∧
    (∃ others last, Scan.ofText "mov\t(  r2 ) (\t8 )\t , r1" = ⟨others, .ok last⟩ ∧
      (others ++ [last]).map Token.unplaced =
        (tokens ++ [Scan.endAt 15]).map Token.unplaced) ∧
    Statement.read { line with text := "mov (r2)( 8) r1" } =
      .ok ⟨"mov", operands, { line with text := "mov (r2)( 8) r1" }⟩ := by
  intro line operands tokens
  have scanned : Scan.ofText line.text = ⟨tokens, .ok (Scan.endAt 15)⟩ := by rfl
  have read : Statement.read line = .ok ⟨"mov", operands, line⟩ := by rfl
  have spaces {gap : Text} (blank : gap.all Scan.isSpace = true) : ∀ c ∈ gap, Scan.isSpace c = true :=
    List.all_eq_true.mp blank
  have rejoined : Text.Rejoined (tokens.map Token.text) "mov\t(  r2 ) (\t8 )\t , r1" :=
    @Text.Rejoined.cons "mov" "(" "\t" _ _ (by decide) (spaces rfl) <|
    @Text.Rejoined.cons "(" "r2" "  " _ _ (by decide) (spaces rfl) <|
    @Text.Rejoined.cons "r2" ")" " " _ _ (by decide) (spaces rfl) <|
    @Text.Rejoined.cons ")" "(" " " _ _ (by decide) (spaces rfl) <|
    @Text.Rejoined.cons "(" "8" "\t" _ _ (by decide) (spaces rfl) <|
    @Text.Rejoined.cons "8" ")" " " _ _ (by decide) (spaces rfl) <|
    @Text.Rejoined.cons ")" "," "\t " _ _ (by decide) (spaces rfl) <|
    @Text.Rejoined.cons "," "r1" " " _ _ (by decide) (spaces rfl) (.single "r1")
  obtain ⟨respaced, uncommaed⟩ := spaces_and_commas_irrelevant
  obtain ⟨mnemonic, again, -, kept⟩ := uncommaed line _ read
  have named := kept ⟨"mov", [[.register, .memory], [.register, .register], [.register, .signed12],
    [.memory, .register]], .fixed4, none⟩ (by decide) rfl
  rw [named] at again
  exact ⟨scanned, rejoined, read,
    respaced line.text tokens _ scanned [] _ [] rejoined (spaces rfl) (spaces rfl), again⟩

end TwoPass
