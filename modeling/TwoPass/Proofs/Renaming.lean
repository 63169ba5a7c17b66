import TwoPass.Proofs.DataItem
import TwoPass.Proofs.Meaning
import TwoPass.Proofs.Substitution

/-! Renaming the labels of a source text.

A label is named on its own line, by tokens of the code that refers to it, and by the references of
data items. Renaming replaces the name in these places and leaves every other character alone. A
renamed line is cut into the same tokens or pieces as before, but for the names in them, and it
means what it meant before, but for them. -/

set_option autoImplicit false

namespace TwoPass

open Scan (Tiled isSpace)

abbrev Label := { name : Text // Text.isName name = true }

/-- A change of names that takes names to names and does not mix them up. -/
structure Renaming where
  apply : Text → Text
  isName_apply : ∀ name, Text.isName name = true → Text.isName (apply name) = true
  injective : Function.Injective apply

namespace Renaming

/-- An injective map of labels. Texts that are no names stay as they are. -/
def ofLabels (f : Label → Label) (injective : Function.Injective f) : Renaming where
  apply name := if valid : Text.isName name = true then (f ⟨name, valid⟩).1 else name
  isName_apply name valid := by
    rw [dif_pos valid]
    exact (f ⟨name, valid⟩).2
  injective first second same := by
    dsimp only at same
    by_cases valid : Text.isName first = true <;> by_cases valid' : Text.isName second = true
    · rw [dif_pos valid, dif_pos valid'] at same
      exact congrArg Subtype.val (injective (Subtype.ext same))
    · rw [dif_pos valid, dif_neg valid'] at same
      exact absurd (same ▸ (f ⟨first, valid⟩).2) valid'
    · rw [dif_neg valid, dif_pos valid'] at same
      exact absurd (same ▸ (f ⟨second, valid'⟩).2) valid
    · rwa [dif_neg valid, dif_neg valid'] at same

/-! ### Definitions -/

variable (rename : Renaming)

def lexeme : Lexeme → Lexeme
  | .label name => .label (rename.apply name)
  | lexeme => lexeme

def written (token : Token) : Text :=
  match token.lexeme with
  | .label name => ':' :: rename.apply name
  | _ => token.text

def tokens : (position : Nat) → Text → List Token → Text
  | _, text, [] => text
  | position, text, token :: rest =>
    text.take (token.start - position) ++
      (rename.written token ++ tokens token.stop (text.drop (token.stop - position)) rest)

/-- A line of code; one that cannot be scanned to its end is left alone. -/
def code (text : Text) : Text :=
  match Scan.ofText text with
  | ⟨tokens, .ok _⟩ => rename.tokens 0 text tokens
  | ⟨_, .error _⟩ => text

def piece : DataPiece → Text
  | .plain c => [c]
  | .reference _ name => ':' :: rename.apply name

def item (text : Text) : Text := (DataPiece.ofText text).flatMap rename.piece

/-- Content, which in front of all sections has no labels. -/
def content (inside : Option Section) (text : Text) : Text :=
  match inside with
  | none => text
  | some .code => rename.code text
  | some .data => rename.item text

end Renaming

def Source.exchange (raw old new : Text) : Text :=
  raw.takeWhile Text.isBlank ++ (new ++ (Text.trimLeft raw).drop old.length)

namespace Renaming

variable (rename : Renaming)

def line (inside : Option Section) (raw : Text) : Text :=
  match Source.meaning? raw with
  | some (.label name) =>
    raw.takeWhile Text.isBlank ++
      ':' :: Source.exchange ((Text.trimLeft raw).drop 1) name (rename.apply name)
  | some (.content text) => Source.exchange raw text (rename.content inside text)
  | _ => raw

def source : (inside : Option Section) → List Text → List Text
  | _, [] => []
  | inside, raw :: rest =>
    rename.line inside raw :: source (Source.sectionAfter inside raw) rest

def meaning (inside : Option Section) : Source.Meaning → Source.Meaning
  | .label name => .label (rename.apply name)
  | .content text => .content (rename.content inside text)
  | meaning => meaning

/-! ### Tokens -/

section
variable {rename} {lexeme : Lexeme} {text : Text}

theorem written_spelled (spelled : lexeme.Spelled text) (start stop : Nat) :
    (rename.lexeme lexeme).Spelled (rename.written ⟨lexeme, start, stop, text⟩) := by
  cases spelled with
  | label valid => exact .label (rename.isName_apply _ valid)
  | comma => exact .comma
  | openParen => exact .openParen
  | closeParen => exact .closeParen
  | word valid other => exact .word valid other
  | register nonempty digits short => exact .register nonempty digits short
  | decimal signs nonempty digits short => exact .decimal signs nonempty digits short
  | hexadecimal signs marks nonempty digits => exact .hexadecimal signs marks nonempty digits

theorem head?_written (spelled : lexeme.Spelled text) (start stop : Nat) :
    (rename.written ⟨lexeme, start, stop, text⟩).head? = text.head? := by
  cases spelled <;> rfl

theorem isMark_lexeme (lexeme : Lexeme) : (rename.lexeme lexeme).isMark = lexeme.isMark := by
  cases lexeme <;> rfl

theorem tokens_cons (position : Nat) (gap text rest : Text) (lexeme : Lexeme) (others : List Token) :
    rename.tokens position (gap ++ (text ++ rest))
        (⟨lexeme, position + gap.length, position + gap.length + text.length, text⟩ :: others) =
      gap ++ (rename.written ⟨lexeme, position + gap.length, position + gap.length + text.length,
        text⟩ ++ rename.tokens (position + gap.length + text.length) rest others) := by
  have front : position + gap.length - position = gap.length := by omega
  have back : position + gap.length + text.length - position = (gap ++ text).length := by
    rw [List.length_append]
    omega
  rw [tokens, front, back, List.take_left, ← List.append_assoc gap text, List.drop_left]

end

/-- Tokens that differ in the name of a label and in their places only. -/
def Matches (token other : Token) : Prop := other.lexeme = rename.lexeme token.lexeme

section
variable {rename} {position : Nat} {text : Text} {own : List Token}

theorem head?_tokens (tiled : Tiled position text own) :
    (rename.tokens position text own).head? = text.head? := by
  cases tiled with
  | spaces => rfl
  | @token _ gap text rest lexeme others spaces spelled ends more =>
    obtain ⟨c, tail, rfl⟩ := List.exists_cons_of_ne_nil (Scan.ne_nil_of_spelled spelled)
    rw [tokens_cons, List.head?_append, List.head?_append, head?_written spelled, List.head?_append]
    rfl

theorem apart_tokens (tiled : Tiled position text own) (apart : Scan.Apart text) :
    Scan.Apart (rename.tokens position text own) := by
  intro c first
  rw [head?_tokens tiled] at first
  exact apart c first

theorem exists_tiled (tiled : Tiled position text own) (place : Nat) :
    ∃ others, Tiled place (rename.tokens position text own) others ∧
      List.Forall₂ rename.Matches own others := by
  induction tiled generalizing place with
  | spaces gap => exact ⟨[], .spaces gap, .nil⟩
  | @token position gap text rest lexeme own spaces spelled ends more ih =>
    rw [tokens_cons]
    obtain ⟨others, later, matched⟩ := ih (place + gap.length + (rename.written ⟨lexeme,
      position + gap.length, position + gap.length + text.length, text⟩).length)
    -- the text behind the token begins as before, so the token ends where its new text does
    have stays : (rename.lexeme lexeme).isMark = true ∨
        Scan.Apart (rename.tokens (position + gap.length + text.length) rest own) := by
      rw [isMark_lexeme]
      exact ends.imp_right (apart_tokens more)
    exact ⟨_, .token spaces (written_spelled spelled _ _) stays later, .cons rfl matched⟩

/-- The last character stays visible: it is the same one or belongs to a name. -/
theorem getLast?_tokens (tiled : Tiled position text own)
    (visible : ∀ c, text.getLast? = some c → Text.isBlank c = false) :
    ∀ c, (rename.tokens position text own).getLast? = some c → Text.isBlank c = false := by
  induction tiled with
  | spaces => exact visible
  | @token position gap text rest lexeme own spaces spelled ends more ih =>
    have shown := @written_spelled rename lexeme text spelled (position + gap.length)
      (position + gap.length + text.length)
    rw [tokens_cons]
    refine Text.getLast?_append_visible (fun empty => ?_) (Text.getLast?_append_visible ?_ (ih ?_))
    · exact absurd (List.append_eq_nil_iff.mp empty).1 (Scan.ne_nil_of_spelled shown)
    · exact fun _ c last => (shown.visible c (List.mem_of_getLast? last)).1
    · exact Text.getLast?_visible_of_append (Text.getLast?_visible_of_append visible)

theorem tokens_eq_self (tiled : Tiled position text own)
    (unlabelled : ∀ token ∈ own, ∀ name, token.lexeme ≠ .label name) :
    rename.tokens position text own = text := by
  induction tiled with
  | spaces => rfl
  | @token position gap text rest lexeme own spaces spelled ends more ih =>
    rw [List.forall_mem_cons] at unlabelled
    have stays (start stop : Nat) : rename.written ⟨lexeme, start, stop, text⟩ = text := by
      cases lexeme with
      | label name => exact absurd rfl (unlabelled.1 name)
      | _ => rfl
    rw [tokens_cons, stays, ih unlabelled.2]

end

/-! ### Code -/

section
variable {rename} {text : Text} {own : List Token}

theorem code_of_tiled (tiled : Tiled 0 text own) : rename.code text = rename.tokens 0 text own := by
  have scanned : Scan.ofText text = ⟨own, .ok (Scan.endAt (0 + text.length))⟩ :=
    Scan.scanAt_of_tiled tiled
  rw [code, scanned]

theorem code_cases (rename : Renaming) (text : Text) :
    (∃ own, Tiled 0 text own) ∨ rename.code text = text := by
  cases scanned : Scan.ofText text with
  | mk own ending =>
    cases ending with
    | error fault =>
      refine .inr ?_
      rw [code, scanned]
    | ok stop => exact .inl ⟨own, Scan.tiled_of_scanAt scanned⟩

theorem isContent_code (content : Line.IsContent text) : Line.IsContent (rename.code text) := by
  rcases code_cases rename text with ⟨own, tiled⟩ | stays
  · rw [code_of_tiled tiled]
    obtain ⟨others, tiled', -⟩ := @exists_tiled rename _ _ _ tiled 0
    exact content.of_head? (head?_tokens tiled) (getLast?_tokens tiled content.trimmed.last)
      tiled'.uncommented
  · rw [stays]
    exact content

/-- A mnemonic is followed by a blank, so it is the first token, and it stays. -/
theorem firstWord_code {instruction : Instruction} (content : Line.IsContent text)
    (known : Instruction.find? (Text.firstWord text) = some instruction) :
    Text.firstWord (rename.code text) = Text.firstWord text := by
  rcases code_cases rename text with ⟨own, tiled⟩ | stays
  · have spelled := Instruction.mnemonic_spelled known
    obtain ⟨rest, whole, ends⟩ : ∃ rest, text = Text.firstWord text ++ rest ∧
        ∀ c, rest.head? = some c → Text.isBlank c = true := by
      have untrimmed : Text.trimLeft text = text := Text.dropWhile_eq_self content.trimmed.first
      refine ⟨text.dropWhile (!Text.isBlank ·), ?_, fun c first => ?_⟩
      · rw [Text.firstWord, untrimmed, List.takeWhile_append_dropWhile]
      · simpa using Text.head?_dropWhile_false first
    have apart : Scan.Apart rest := by
      intro c first
      cases named : Text.isNameChar c with
      | false => rfl
      | true => cases (ends c first).symm.trans (Text.not_isBlank_of_isNameChar named)
    generalize Text.firstWord text = mnemonic at spelled whole
    subst whole
    -- the tokens are the mnemonic and those of the rest
    have scanned := Scan.scanAt_of_tiled tiled
    rw [Scan.scanAt_lexeme spelled (.inr apart)] at scanned
    cases later : Scan.scanAt (0 + mnemonic.length) rest with
    | mk others ending =>
      rw [later] at scanned
      cases scanned
      have more := Scan.tiled_of_scanAt later
      have cut := @tokens_cons rename 0 [] mnemonic rest (.word mnemonic) others
      simp only [List.nil_append, List.length_nil, Nat.add_zero] at cut
      rw [code_of_tiled tiled, cut]
      cases spelled with
      | word valid other =>
        refine firstWord_name valid fun c first => ends c ?_
        rwa [head?_tokens more] at first
  · rw [stays]

end

/-! ### Data items -/

inductive MatchesPiece (rename : Renaming) : DataPiece → DataPiece → Prop
  | plain (c : Char) : MatchesPiece rename (.plain c) (.plain c)
  | reference (offset place : Nat) (name : Text) :
    MatchesPiece rename (.reference offset name) (.reference place (rename.apply name))

section
variable {rename} {blocked : Bool} {offset : Nat} {text : Text} {pieces : List DataPiece}

theorem startsName_flatMap (cut : DataPiece.Pieces blocked offset text pieces) :
    Text.startsName (pieces.flatMap rename.piece) = Text.startsName text := by
  cases cut <;> rfl

theorem head?_flatMap (cut : DataPiece.Pieces blocked offset text pieces) :
    (pieces.flatMap rename.piece).head? = text.head? := by
  cases cut <;> rfl

theorem matches_split (cut : DataPiece.Pieces blocked offset text pieces) (before : Option Char)
    (front : DataPiece.blocksReference before = blocked) (place : Nat) :
    List.Forall₂ rename.MatchesPiece pieces
      (DataPiece.split before 0 place (pieces.flatMap rename.piece)) := by
  induction cut generalizing before place with
  | nil => exact .nil
  | @plain blocked offset c rest pieces other more ih =>
    have still : ¬(c = ':' ∧ DataPiece.blocksReference before = false ∧
        Text.startsName (pieces.flatMap rename.piece) = true) := by
      rwa [front, startsName_flatMap more]
    rw [List.flatMap_cons, piece, List.singleton_append, DataPiece.split_plain still]
    exact .cons (.plain c) (ih _ rfl _)
  | @reference offset name rest pieces valid apart more ih =>
    have named := rename.isName_apply name valid
    have starts := Scan.startsName_append named (pieces.flatMap rename.piece)
    have apart' : Scan.Apart (pieces.flatMap rename.piece) := by
      intro c first
      rw [head?_flatMap more] at first
      exact apart c first
    have taken := Scan.takeWhile_append (Scan.isNameChar_of_mem_name named) (fun _ => id) apart'
    -- behind the new name no reference begins, just as behind the old one
    have behind := DataPiece.blocksReference_of_name named (some ':')
    rw [List.flatMap_cons, piece, List.cons_append, DataPiece.split_reference front starts, taken,
      DataPiece.split_skipped]
    exact .cons (.reference offset place name) (ih _ behind _)

end

theorem rewrites_piece : DataPiece.Rewrites rename.piece where
  plain _ := rfl
  ne_nil _ _ _ := List.cons_ne_nil _ _
  visible _ name valid := (Lexeme.Spelled.label (rename.isName_apply name valid)).visible

theorem matches_item (text : Text) :
    List.Forall₂ rename.MatchesPiece (DataPiece.ofText text) (DataPiece.ofText (rename.item text)) :=
  matches_split (DataPiece.pieces_split none 0 text) none rfl 0

variable {rename}

theorem isContent_content {text : Text} (content : Line.IsContent text) (inside : Option Section) :
    Line.IsContent (rename.content inside text) := by
  match inside with
  | none => exact content
  | some .code => exact isContent_code content
  | some .data =>
    exact (DataPiece.pieces_split none 0 text).isContent_flatMap rename.rewrites_piece content

end Renaming

/-! ### Source lines -/

namespace Source

theorem exists_idle (text : Text) :
    ∃ rest, text = Text.trimRight (Text.upTo ';' text) ++ rest ∧ Idle rest := by
  obtain ⟨blanks, whole, blank⟩ := Text.exists_trimEnd Text.isBlank (Text.upTo ';' text)
  have cut : text = Text.upTo ';' text ++ text.dropWhile (· != ';') :=
    List.takeWhile_append_dropWhile.symm
  refine ⟨blanks ++ text.dropWhile (· != ';'), ?_, ?_⟩
  · rw [← List.append_assoc, Text.trimRight, ← whole]
    exact cut
  · cases marked : text.dropWhile (· != ';') with
    | nil =>
      rw [List.append_nil]
      exact .blank blank
    | cons c comment =>
      have mark : c = ';' := by
        simpa using @Text.head?_dropWhile_false (· != ';') text c (by rw [marked]; rfl)
      subst mark
      exact .comment blank comment

theorem meaning?_content {text : Text} (content : Line.IsContent text) :
    meaning? text = some (.content text) :=
  meaning?_of_read (Line.read_content content [] 0)

theorem takeWhile_blank (raw : Text) : ∀ c ∈ raw.takeWhile Text.isBlank, Text.isBlank c = true :=
  fun _ member => List.mem_takeWhile_imp member

theorem exchange_append {raw old rest : Text} (visible : Text.trimLeft raw = old ++ rest) (new : Text) :
    exchange raw old new = raw.takeWhile Text.isBlank ++ (new ++ rest) := by
  rw [exchange, visible, List.drop_left]

theorem content_of_meaning? {raw text : Text} (means : meaning? raw = some (.content text)) :
    Line.IsContent text ∧ Text.trimRight (Text.upTo ';' (Text.trimLeft raw)) = text := by
  rw [meaning?_eq, Meaning.ofText?] at means
  split at means <;> cases means
  next content =>
  exact ⟨Line.isContent_trimRight (Text.trimmed_trim raw) content,
    (Text.trimRight_upTo_trimRight isBlank_semicolon (Text.trimLeft raw)).symm⟩

theorem meaning?_exchange {raw text new : Text} (means : meaning? raw = some (.content text))
    (content : Line.IsContent new) : meaning? (exchange raw text new) = some (.content new) := by
  obtain ⟨rest, whole, idle⟩ := exists_idle (Text.trimLeft raw)
  rw [(content_of_meaning? means).2] at whole
  rw [exchange_append whole, meaning?_indented (takeWhile_blank raw), idle.meaning?_append,
    meaning?_content content]

theorem exists_behind {raw name : Text} (means : meaning? raw = some (.label name)) :
    ∃ behind rest, Text.trimLeft raw = ':' :: behind ∧ Text.trimLeft behind = name ++ rest ∧
      Text.isName name = true ∧ Idle rest := by
  rw [meaning?_eq, Meaning.ofText?] at means
  split at means <;> cases means
  next label =>
  obtain ⟨trimmed, whole, argued, valid⟩ := Line.Body.ofText_eq_label_iff.mp label
  rw [Text.trim] at whole argued
  cases begins : Text.trimLeft raw with
  | nil =>
    rw [begins] at whole
    cases whole
  | cons c behind =>
    have visible : Text.isBlank c = false :=
      Text.head?_dropWhile_false (show (Text.trimLeft raw).head? = some c by rw [begins]; rfl)
    have kept : Text.trimRight (c :: behind) = c :: Text.trimRight behind := Text.trimEnd_cons visible
    rw [begins, kept] at whole argued
    cases whole
    rw [Line.argument, List.drop_succ_cons, List.drop_zero,
      Text.trim_upTo_trimRight isBlank_semicolon, Text.trim,
      Text.trimLeft_upTo isBlank_semicolon] at argued
    obtain ⟨rest, cut, idle⟩ := exists_idle (Text.trimLeft behind)
    rw [argued] at cut
    exact ⟨behind, rest, rfl, cut, valid, idle⟩

theorem meaning?_label {blanks name : Text} (blank : ∀ c ∈ blanks, Text.isBlank c = true)
    (valid : Text.isName name = true) : meaning? (':' :: (blanks ++ name)) = some (.label name) := by
  have named := Scan.isNameChar_of_mem_name valid
  have visible : ∀ c ∈ name, Text.isBlank c = false :=
    fun c member => Text.not_isBlank_of_isNameChar (named c member)
  have nonempty : name ≠ [] := by
    rintro rfl
    cases valid
  have last : ∀ c, name.getLast? = some c → Text.isBlank c = false :=
    fun c ending => visible c (List.mem_of_getLast? ending)
  have trimmed : Text.Trimmed (':' :: (blanks ++ name)) := by
    refine ⟨fun c first => ?_, ?_⟩
    · cases first
      decide
    · exact @Text.getLast?_append_visible (':' :: blanks) name (fun empty => absurd empty nonempty) last
  have unmarked : ';' ∉ blanks ++ name := by
    intro member
    rcases List.mem_append.mp member with inBlanks | inName
    · exact absurd (blank ';' inBlanks) (by decide)
    · exact absurd (named ';' inName) (by decide)
  have argued : Line.argument (':' :: (blanks ++ name)) = name := by
    rw [Line.argument, List.drop_succ_cons, List.drop_zero, Text.upTo_eq_self unmarked,
      Text.trim_blanks_append blank]
    exact Text.trim_eq_self ⟨fun c first => visible c (List.mem_of_head? first), last⟩
  have label := Line.Body.ofText_eq_label_iff.mpr ⟨blanks ++ name, rfl, argued, valid⟩
  rw [meaning?_eq, Text.trim_eq_self trimmed, Meaning.ofText?, label]

end Source

namespace Renaming

variable {rename : Renaming} {raw : Text}

theorem exists_label_line {name : Text} (means : Source.meaning? raw = some (.label name))
    (inside : Option Section) : ∃ behind behind',
      raw = raw.takeWhile Text.isBlank ++ ':' :: behind ∧
      rename.line inside raw = raw.takeWhile Text.isBlank ++ ':' :: behind' := by
  obtain ⟨behind, rest, begins, -⟩ := Source.exists_behind means
  refine ⟨behind, Source.exchange behind name (rename.apply name), ?_, ?_⟩
  · rw [← begins]
    exact List.takeWhile_append_dropWhile.symm
  · rw [line, means, begins]
    rfl

theorem meaning?_line {meaning : Source.Meaning} (means : Source.meaning? raw = some meaning)
    (inside : Option Section) :
    Source.meaning? (rename.line inside raw) = some (rename.meaning inside meaning) := by
  unfold line
  rw [means]
  cases meaning with
  | label name =>
    obtain ⟨behind, rest, begins, named, valid, idle⟩ := Source.exists_behind means
    dsimp only
    rw [begins, List.drop_succ_cons, List.drop_zero, Source.exchange_append named,
      Source.meaning?_indented (Source.takeWhile_blank raw), ← List.append_assoc, ← List.cons_append,
      idle.meaning?_append,
      Source.meaning?_label (Source.takeWhile_blank behind) (rename.isName_apply name valid)]
    rfl
  | content text =>
    have content := (Source.content_of_meaning? means).1
    exact Source.meaning?_exchange means (isContent_content content inside)
  | _ => exact means

end Renaming

end TwoPass
