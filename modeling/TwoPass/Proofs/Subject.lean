import Mathlib.Data.List.Infix
import TwoPass.Proofs.DataReference
import TwoPass.Proofs.Span
import TwoPass.Proofs.Verdict

/-! What a problem is about.

A fault of a line is about some of its characters: one that begins no token, a token, an operand, the
displacement in a memory operand, a reference, or the mnemonic. `About` tells for each fault which
characters these are and at which offset the scan or the grammar has them. Each step of reading a line,
the scan, the grammar, the check and the resolution, tells its problem at that offset, and the text has
these characters there. -/

set_option autoImplicit false

namespace TwoPass

def Malformation.expectations : List Text :=
  ["base register", "')'", "'(' before memory offset", "memory offset"]

/-- All tokens of a text stand in front of an offset, with nothing but spaces between them, and at the
offset there is a character that is no space. -/
def Scan.StopsAt (text : Text) (offset : Nat) : Prop :=
  ∃ front c rest, text = front ++ c :: rest ∧ front.length = offset ∧ isSpace c = false ∧
    Tiled 0 front (ofText text).tokens

/-- The characters that a malformation of a text is about and their offset; there are none of them if
it is about what is missing at the end. -/
inductive Malformation.About (text : Text) : Malformation → Nat → Text → Prop
  | character {offset : Nat} (stops : Scan.StopsAt text offset) (c : Char) :
    About text (.unexpectedCharacter c) offset [c]
  | hexDigits {offset : Nat} {sign mark : Text} (stops : Scan.StopsAt text offset)
    (signs : Scan.IsSign sign) (marks : Scan.IsHexMark mark) :
    About text .hexDigitsMissing offset (sign ++ mark)
  | number {offset : Nat} (stops : Scan.StopsAt text offset) (written : Text) :
    About text (.invalidNumber written) offset written
  | labelName {offset : Nat} (stops : Scan.StopsAt text offset) :
    About text .labelNameMissing offset [':']
  | instruction {token : Token} (member : token ∈ (Scan.ofText text).tokens) :
    About text (.notAnInstruction token.text) token.start token.text
  | operand {token : Token} (member : token ∈ (Scan.ofText text).tokens) :
    About text (.notAnOperand token.text) token.start token.text
  | token {token : Token} {expected : Text} (member : token ∈ (Scan.ofText text).tokens)
    (listed : expected ∈ expectations) :
    About text (.unexpectedToken expected token.text) token.start token.text
  | noInstruction : About text (.notAnInstruction []) text.length []
  | noOperand : About text .operandMissingAfterComma text.length []
  | noToken {expected : Text} (listed : expected ∈ expectations) :
    About text (.unexpectedToken expected "end of line") text.length []

inductive Line.About (line : Line) : Fault → Nat → Text → Prop
  | malformed {cause : Malformation} {offset : Nat} {subject : Text}
    (about : cause.About line.text offset subject) : About line (.malformed cause) offset subject
  | pseudoMalformed {instruction : Instruction} {cause : Malformation} {offset : Nat} {subject : Text}
    (listed : instruction ∈ Instruction.catalog) (about : cause.About line.text offset subject) :
    About line (.pseudoMalformed instruction.mnemonic cause) offset subject
  | unknownInstruction (similar : List Text) :
    About line (.unknownInstruction (Text.firstWord line.text) similar) 0 (Text.firstWord line.text)
  | operandShape (shapes : List Text) :
    About line (.operandShape (Text.firstWord line.text) shapes) 0 (Text.firstWord line.text)
  | pseudoShape (shapes : List Text) :
    About line (.pseudoShape (Text.firstWord line.text) shapes) 0 (Text.firstWord line.text)
  | register {statement : Statement} {before after : List Operand} {operand : Operand} {index : Nat}
    (read : Statement.read line = .ok statement)
    (split : statement.operands = before ++ operand :: after)
    (earlier : ∀ other ∈ before, other.RegisterExists)
    (register : operand.register? = some index) (large : 31 < index) :
    About line (.registerRange ("r" ++ Numeral.decimalNat index)) operand.start operand.text
  | immediate {statement : Statement} {operand : Operand} {slot : Slot} {value low high : Int}
    {what : Text} (read : Statement.read line = .ok statement) (member : operand ∈ statement.operands)
    (denotes : operand.value = .immediate value) (named : slot.immediateName? = some what) :
    About line (.immediateRange value low high what) operand.start operand.text
  | displacement {statement : Statement} {operand : Operand} {base start : Nat} {value low high : Int}
    {own : List Token} {token : Token} (read : Statement.read line = .ok statement)
    (member : operand ∈ statement.operands) (denotes : operand.value = .memory base value start)
    (derived : Operand.Derived line.text own operand)
    (scanned : own ⊆ (Scan.ofText line.text).tokens) (fifth : own[4]? = some token) :
    About line (.immediateRange value low high "memory offset") token.start token.text
  | label {statement : Statement} {operand : Operand} {name : Text}
    (read : Statement.read line = .ok statement) (member : operand ∈ statement.operands)
    (denotes : operand.value = .label name) (hint : Option Text) (similar : List Text)
    (severity : Severity) :
    About line (.undefinedLabel name hint similar severity) operand.start (':' :: name)
  | reference {offset : Nat} {name : Text} (refers : line.text.RefersAt offset name)
    (hint : Option Text) (similar : List Text) (severity : Severity) :
    About line (.undefinedLabel name hint similar severity) offset (':' :: name)
  | branch {statement : Statement} {operand : Operand} {name : Text}
    (read : Statement.read line = .ok statement) (member : operand ∈ statement.operands)
    (denotes : operand.value = .label name) (distance : Int) :
    About line (.branchRange name distance) operand.start (':' :: name)

def Line.PointsAt (line : Line) (found : Problem) : Prop :=
  ∃ fault offset subject, found = line.problem fault offset ∧ offset ≤ line.text.length ∧
    line.About fault offset subject ∧ subject <+: line.text.drop offset

theorem Text.le_of_begins {text subject : Text} {offset : Nat} (some_character : subject ≠ [])
    (begins : subject <+: text.drop offset) : offset ≤ text.length := by
  have short := begins.length_le
  have positive := List.length_pos_iff.mpr some_character
  rw [List.length_drop] at short
  omega

/-! ### The scan -/

namespace Scan

variable {line : Text} {offset : Nat}

theorem about_of_unsigned {text sign : Text} {cause : Malformation} (stops : StopsAt line offset)
    (signs : IsSign sign) (refused : unsigned text = .error (.malformed cause)) :
    ∃ subject, cause.About line offset subject ∧ subject ≠ [] ∧ subject <+: sign ++ text := by
  unfold unsigned at refused
  split at refused
  · next mark rest split =>
    split at refused
    · cases refused
      have marks := isHexMark_of_splitHexMark? split
      refine ⟨sign ++ mark, .hexDigits stops signs marks, ?_, rest, ?_⟩
      · rcases marks with rfl | rfl <;> simp
      · rw [List.append_assoc, append_of_splitHexMark? split]
    · cases refused
  · split at refused <;> cases refused

theorem about_of_number {text : Text} {cause : Malformation} (stops : StopsAt line offset)
    (refused : number text = .error (.malformed cause)) :
    ∃ subject, cause.About line offset subject ∧ subject ≠ [] ∧ subject <+: text := by
  unfold number at refused
  split at refused
  · next fault failed =>
    cases refused
    have found := about_of_unsigned stops (isSign_splitSign text) failed
    rwa [append_of_splitSign] at found
  · next value taken rest read =>
    dsimp only at refused
    split at refused
    · cases refused
    · next excess =>
      cases refused
      refine ⟨_, .number stops _, ?_, rest.dropWhile Text.isNameChar, ?_⟩
      · intro empty
        simp_all
      · rw [List.append_assoc, List.append_assoc, List.takeWhile_append_dropWhile,
          append_of_unsigned read, append_of_splitSign]

theorem about_of_cut {c : Char} {rest : Text} {cause : Malformation} (stops : StopsAt line offset)
    (refused : cut c rest = .error (.malformed cause)) :
    ∃ subject, cause.About line offset subject ∧ subject ≠ [] ∧ subject <+: c :: rest := by
  have single : [c] <+: c :: rest := ⟨rest, rfl⟩
  unfold cut at refused
  split at refused
  · cases refused
  split at refused
  · cases refused
  split at refused
  · cases refused
  split at refused
  · unfold word at refused
    split at refused <;> cases refused
  split at refused
  · exact about_of_number stops refused
  split at refused
  · next colon =>
    unfold labelReference at refused
    split at refused
    · cases refused
    · cases refused
      rw [eq_of_beq colon] at single ⊢
      exact ⟨[':'], .labelName stops, List.cons_ne_nil _ _, single⟩
  · cases refused
    exact ⟨[c], .character stops c, List.cons_ne_nil _ _, single⟩

theorem eq_endAt_of_ending {text : Text} {ending : Token} (reached : (ofText text).ending = .ok ending) :
    ending = endAt text.length := by
  have scanned : scanAt 0 text = ⟨(ofText text).tokens, .ok ending⟩ := by
    rw [← reached]
    rfl
  rw [(scanAt_eq_ok_iff.mp scanned).2, Nat.zero_add]

/-- A scan that stops does so at the characters that the malformation is about. -/
theorem about_of_ending {text : Text} {cause : Malformation}
    (stopped : (ofText text).ending = .error (.malformed cause, offset)) :
    ∃ subject, cause.About text offset subject ∧ subject ≠ [] ∧ subject <+: text.drop offset := by
  have scanned : scanAt 0 text = ⟨(ofText text).tokens, .error (.malformed cause, offset)⟩ := by
    rw [← stopped]
    rfl
  obtain ⟨front, c, rest, whole, tiled, atFront, visible, refused⟩ := tiled_of_scanAt_error scanned
  rw [Nat.zero_add] at atFront
  have stops : StopsAt text offset := ⟨front, c, rest, whole, atFront.symm, visible, tiled⟩
  obtain ⟨subject, about, some_character, begins⟩ := about_of_cut stops refused
  refine ⟨subject, about, some_character, ?_⟩
  rwa [atFront, whole, List.drop_left]

end Scan

/-! ### The grammar -/

/-- A misreading quotes one of the tokens and is told at its start, or it is told at the end. -/
inductive Misreading.Quotes (ending : Token) (tokens : List Token) : Misreading → Prop
  | instruction {token : Token} (member : token ∈ tokens) :
    Quotes ending tokens ⟨.notAnInstruction token.text, token.start⟩
  | operand {token : Token} (member : token ∈ tokens) :
    Quotes ending tokens ⟨.notAnOperand token.text, token.start⟩
  | token {token : Token} {expected : Text} (member : token ∈ tokens)
    (listed : expected ∈ Malformation.expectations) :
    Quotes ending tokens ⟨.unexpectedToken expected token.text, token.start⟩
  | noInstruction : Quotes ending tokens ⟨.notAnInstruction ending.text, ending.start⟩
  | noOperand : Quotes ending tokens ⟨.operandMissingAfterComma, ending.start⟩
  | noToken {expected : Text} (listed : expected ∈ Malformation.expectations) :
    Quotes ending tokens ⟨.unexpectedToken expected "end of line", ending.start⟩

namespace Misreading.Quotes

variable {ending token : Token} {tokens others : List Token} {misreading : Misreading} {text : Text}

theorem mono (quotes : Quotes ending tokens misreading) (kept : tokens ⊆ others) :
    Quotes ending others misreading := by
  cases quotes with
  | instruction member => exact .instruction (kept member)
  | operand member => exact .operand (kept member)
  | token member listed => exact .token (kept member) listed
  | noInstruction => exact .noInstruction
  | noOperand => exact .noOperand
  | noToken listed => exact .noToken listed

theorem of_expect {α β : Type} {accept : Lexeme → Option α} {expected : Text}
    {next : α × Token × List Token → Except Misreading β}
    (failed : (Operand.expect ending accept expected tokens >>= next) = .error misreading)
    (listed : expected ∈ Malformation.expectations)
    (later : ∀ value token rest, next (value, token, rest) = .error misreading →
      Quotes ending rest misreading) : Quotes ending tokens misreading := by
  rcases Except.bind_eq_error_iff.mp failed with refused | ⟨⟨value, token, rest⟩, taken, behind⟩
  · cases tokens with
    | nil =>
      cases refused
      exact .noToken listed
    | cons token rest =>
      rw [Operand.expect] at refused
      split at refused
      · cases refused
      · cases refused
        exact .token List.mem_cons_self listed
  · obtain ⟨rfl, -⟩ := Operand.expect_eq_ok_iff.mp taken
    exact (later value token rest behind).mono (List.subset_cons_self token rest)

theorem of_readMemory
    (failed : Operand.readMemory text ending token tokens = .error misreading) :
    Quotes ending tokens misreading := by
  unfold Operand.readMemory at failed
  refine of_expect failed (by decide) fun base _ rest failed => ?_
  refine of_expect failed (by decide) fun _ _ rest failed => ?_
  refine of_expect failed (by decide) fun _ _ rest failed => ?_
  refine of_expect failed (by decide) fun displacement place rest failed => ?_
  refine of_expect failed (by decide) fun _ closing rest failed => ?_
  cases failed

theorem of_operand (failed : Operand.read text ending token tokens = .error misreading) :
    Quotes ending (token :: tokens) misreading := by
  unfold Operand.read at failed
  dsimp only at failed
  split at failed
  · cases failed
  · cases failed
  · cases failed
  · exact (of_readMemory failed).mono (List.subset_cons_self token tokens)
  · cases failed
    exact .operand List.mem_cons_self

theorem of_skipComma {isFirst : Bool}
    (failed : Operand.skipComma ending isFirst tokens = .error misreading) :
    Quotes ending tokens misreading := by
  unfold Operand.skipComma at failed
  split at failed
  · split at failed
    · split at failed
      · cases failed
        exact .noOperand
      · cases failed
    · cases failed
  · cases failed

theorem subset_of_skipComma {isFirst : Bool}
    (skipped : Operand.skipComma ending isFirst tokens = .ok others) : others ⊆ tokens := by
  unfold Operand.skipComma at skipped
  split at skipped
  · split at skipped
    · split at skipped
      · cases skipped
      · cases skipped
        exact List.subset_cons_self _ _
    · cases skipped
      exact List.Subset.refl _
  · cases skipped
    exact List.Subset.refl _

theorem of_readList {room : Nat} {isFirst : Bool}
    (failed : Operand.readList text ending room isFirst tokens = .error misreading) :
    Quotes ending tokens misreading := by
  induction room generalizing isFirst tokens with
  | zero => cases failed
  | succ room ih =>
    rw [Operand.readList] at failed
    rcases Except.bind_eq_error_iff.mp failed with comma | ⟨left, skipped, failed⟩
    · exact of_skipComma comma
    refine Quotes.mono ?_ (subset_of_skipComma skipped)
    cases left with
    | nil => cases failed
    | cons token rest =>
      rcases Except.bind_eq_error_iff.mp failed with refused | ⟨⟨operand, behind⟩, read, failed⟩
      · exact of_operand refused
      -- the tokens behind the operand are some of those that it was read off
      obtain ⟨own, whole, -⟩ := Operand.read_eq_ok_iff.mp read
      rcases Except.bind_eq_error_iff.mp failed with refused | ⟨operands, -, ended⟩
      · rw [whole]
        exact (ih refused).mono (List.subset_append_right own behind)
      · cases ended

theorem of_readTokens (failed : Statement.readTokens text ending tokens = .error misreading) :
    Quotes ending tokens misreading := by
  cases tokens with
  | nil =>
    cases failed
    exact .noInstruction
  | cons token rest =>
    rw [Statement.readTokens] at failed
    split at failed
    · exact (of_readList failed).mono (List.subset_cons_self token rest)
    · cases failed
      exact .instruction List.mem_cons_self

end Misreading.Quotes

/-! ### Tokens and operands -/

theorem Scan.spelled_of_mem {text : Text} {token : Token} (member : token ∈ (ofText text).tokens) :
    token.lexeme.Spelled token.text := by
  obtain ⟨front, rest, whole, tiled⟩ := exists_tiled_tokens 0 text
  exact (tiled.spelled token member).1

theorem Text.slice_begins (text : Text) (start stop : Nat) : text.slice start stop <+: text.drop start :=
  (List.take_prefix stop text).drop start

theorem Scan.begins_of_mem {text : Text} {token : Token} (member : token ∈ (ofText text).tokens) :
    token.text ≠ [] ∧ token.text <+: text.drop token.start := by
  obtain ⟨front, rest, whole, tiled⟩ := exists_tiled_tokens 0 text
  refine ⟨ne_nil_of_spelled (spelled_of_mem member), ?_⟩
  rw [← tiled.slice_eq (List.drop_zero) token member]
  refine (Text.slice_begins front _ _).trans ?_
  rw [whole]
  exact (List.prefix_append front rest).drop _

theorem Scan.start_le_of_mem {text : Text} {token : Token} (member : token ∈ (ofText text).tokens) :
    token.start ≤ text.length :=
  Text.le_of_begins (begins_of_mem member).1 (begins_of_mem member).2

theorem Operand.Derived.begins {text : Text} {own : List Token} {operand : Operand}
    (derived : Derived text own operand) (scanned : own ⊆ (Scan.ofText text).tokens) :
    operand.start ≤ text.length ∧ operand.text <+: text.drop operand.start := by
  cases derived with
  | register | immediate | label =>
    have member := scanned List.mem_cons_self
    exact ⟨Scan.start_le_of_mem member, (Scan.begins_of_mem member).2⟩
  | memory => exact ⟨Scan.start_le_of_mem (scanned List.mem_cons_self), Text.slice_begins _ _ _⟩

theorem Operand.Derived.displacement {text : Text} {own : List Token} {operand : Operand}
    {base start : Nat} {value : Int} (derived : Derived text own operand)
    (denotes : operand.value = .memory base value start) :
    ∃ token, own[4]? = some token ∧ token.start = start := by
  cases derived with
  | register | immediate | label => cases denotes
  | memory =>
    cases denotes
    exact ⟨_, rfl, rfl⟩

theorem Operand.Derived.text_of_label {text name : Text} {own : List Token} {operand : Operand}
    (derived : Derived text own operand) (scanned : own ⊆ (Scan.ofText text).tokens)
    (denotes : operand.value = .label name) : operand.text = ':' :: name := by
  cases derived with
  | register | immediate | memory => cases denotes
  | label reads =>
    cases denotes
    have spelled := Scan.spelled_of_mem (scanned List.mem_cons_self)
    rw [reads] at spelled
    generalize Token.text _ = written at spelled
    cases spelled
    rfl

theorem Statement.begins_of_read {line : Line} {statement : Statement} {operand : Operand}
    (read : Statement.read line = .ok statement) (member : operand ∈ statement.operands) :
    ∃ own, own ⊆ (Scan.ofText line.text).tokens ∧ Operand.Derived line.text own operand ∧
      operand.start ≤ line.text.length ∧ operand.text <+: line.text.drop operand.start := by
  obtain ⟨tokens, tiled, derived⟩ := Statement.derived_of_read read
  have scanned : (Scan.ofText line.text).tokens = tokens :=
    congrArg Scan.tokens (Scan.scanAt_of_tiled tiled)
  obtain ⟨own, within, ofOwn⟩ := derived operand member
  rw [← scanned] at within
  exact ⟨own, within, ofOwn, ofOwn.begins within⟩

/-! ### Each step -/

/-- A misreading of the tokens of a text is about the token it quotes, or nothing at the end. -/
theorem Misreading.Quotes.about {text : Text} {misreading : Misreading}
    (quotes : Quotes (Scan.endAt text.length) (Scan.ofText text).tokens misreading) :
    ∃ subject, misreading.cause.About text misreading.offset subject ∧ misreading.offset ≤ text.length ∧
      subject <+: text.drop misreading.offset := by
  have at_end : text.length ≤ text.length ∧ [] <+: text.drop text.length :=
    ⟨Nat.le_refl _, List.nil_prefix⟩
  have at_token {token : Token} (member : token ∈ (Scan.ofText text).tokens) :
      token.start ≤ text.length ∧ token.text <+: text.drop token.start :=
    ⟨Scan.start_le_of_mem member, (Scan.begins_of_mem member).2⟩
  cases quotes with
  | instruction member => exact ⟨_, .instruction member, at_token member⟩
  | operand member => exact ⟨_, .operand member, at_token member⟩
  | token member listed => exact ⟨_, .token member listed, at_token member⟩
  | noInstruction => exact ⟨_, .noInstruction, at_end⟩
  | noOperand => exact ⟨_, .noOperand, at_end⟩
  | noToken listed => exact ⟨_, .noToken listed, at_end⟩

namespace Line.PointsAt

variable {line : Line} {statement : Statement} {table : SymbolTable} {found : Problem}

theorem of_misread {misreading : Misreading} {subject : Text}
    (about : misreading.cause.About line.text misreading.offset subject)
    (within : misreading.offset ≤ line.text.length)
    (begins : subject <+: line.text.drop misreading.offset) :
    line.PointsAt (Statement.misread line misreading) := by
  unfold Statement.misread
  refine ⟨_, misreading.offset, subject, rfl, within, ?_, begins⟩
  split
  · next pseudo =>
    obtain ⟨stands, named⟩ := Option.isSome_iff_exists.mp pseudo
    obtain ⟨instruction, found, -⟩ := Option.bind_eq_some_iff.mp named
    obtain ⟨listed, same⟩ := Instruction.find?_eq_some_iff.mp found
    rw [← same]
    exact .pseudoMalformed listed about
  · exact .malformed about

theorem of_read (failed : Statement.read line = .error (.problem found)) : line.PointsAt found := by
  unfold Statement.read at failed
  split at failed
  · cases failed
  dsimp only at failed
  split at failed
  · cases failed
  · next cause offset stopped =>
    cases failed
    obtain ⟨subject, about, some_character, begins⟩ := Scan.about_of_ending stopped
    exact @of_misread line ⟨cause, offset⟩ subject about (Text.le_of_begins some_character begins) begins
  · next ending scanned =>
    split at failed
    · next misreading refused =>
      cases failed
      have ended : ending = Scan.endAt line.text.length := Scan.eq_endAt_of_ending scanned
      rw [ended] at refused
      obtain ⟨subject, about, within, begins⟩ := (Misreading.Quotes.of_readTokens refused).about
      exact of_misread about within begins
    · cases failed

theorem of_contentSize {inside : Option Section} {fault : Fault}
    (leads : Text.firstWord line.text <+: line.text)
    (failed : contentSize inside line.text = .error fault) : line.PointsAt (line.problem fault 0) := by
  unfold contentSize Instruction.ofContent at failed
  dsimp only at failed
  split at failed
  · cases failed
  · cases failed
  · split at failed
    · cases failed
    · cases failed
      exact ⟨_, 0, _, rfl, Nat.zero_le _, .unknownInstruction _, leads⟩

theorem of_check (leads : Text.firstWord line.text <+: line.text)
    (read : Statement.read line = .ok statement)
    (failed : statement.check = .error (.problem found)) : line.PointsAt found := by
  obtain ⟨fault, offset, objection, rfl⟩ := Statement.objection_of_check failed
  rw [Statement.line_of_read read]
  have mnemonic := Statement.mnemonic_of_read read
  cases objection with
  | unknown unlisted =>
    rw [mnemonic]
    exact ⟨_, 0, _, rfl, Nat.zero_le _, .unknownInstruction _, leads⟩
  | @register _ before after operand index listed named split earlier register large =>
    have member : operand ∈ statement.operands := by
      rw [split]
      exact List.mem_append_right before List.mem_cons_self
    obtain ⟨own, -, -, within, begins⟩ := Statement.begins_of_read read member
    exact ⟨_, _, _, rfl, within, .register read split earlier register large, begins⟩
  | shape listed named registers unshaped real =>
    rw [mnemonic]
    exact ⟨_, 0, _, rfl, Nat.zero_le _, .operandShape _, leads⟩
  | pseudoShape listed named registers unshaped stands =>
    rw [mnemonic]
    exact ⟨_, 0, _, rfl, Nat.zero_le _, .pseudoShape _, leads⟩
  | @number _ shape before after slot operand _ _ listed named registers shaped kinds split earlier
      exceeded =>
    have pair : (slot, operand) ∈ shape.zip statement.operands := by
      rw [split]
      exact List.mem_append_right before List.mem_cons_self
    have member : operand ∈ statement.operands := (List.of_mem_zip pair).2
    obtain ⟨own, scanned, derived, within, begins⟩ := Statement.begins_of_read read member
    cases exceeded with
    | unsigned12 denotes =>
      have named : Slot.unsigned12.immediateName? = some _ := rfl
      exact ⟨_, _, _, rfl, within, .immediate read member denotes named, begins⟩
    | signed12 denotes =>
      have named : Slot.signed12.immediateName? = some _ := rfl
      exact ⟨_, _, _, rfl, within, .immediate read member denotes named, begins⟩
    | unsigned64 denotes =>
      have named : Slot.unsigned64.immediateName? = some _ := rfl
      exact ⟨_, _, _, rfl, within, .immediate read member denotes named, begins⟩
    | memory denotes =>
      -- told at the displacement and not where the operand starts
      obtain ⟨token, fifth, starts⟩ := derived.displacement denotes
      have there : token ∈ (Scan.ofText line.text).tokens := scanned (List.mem_of_getElem? fifth)
      rw [← starts]
      exact ⟨_, _, _, rfl, Scan.start_le_of_mem there,
        .displacement read member denotes derived scanned fifth, (Scan.begins_of_mem there).2⟩

theorem of_labelProblem? {shape : Shape} {place : Int} (read : Statement.read line = .ok statement)
    (told : statement.labelProblem? table shape place = some found) : line.PointsAt found := by
  obtain ⟨⟨slot, operand⟩, pair, own⟩ := List.exists_of_findSome?_eq_some told
  dsimp only at own
  have member := (List.of_mem_zip pair).2
  obtain ⟨tokens, scanned, derived, within, begins⟩ := Statement.begins_of_read read member
  rw [Operand.problem?, Statement.line_of_read read] at own
  split at own
  · next name denotes =>
    have colon : operand.text = ':' :: name := derived.text_of_label scanned denotes
    rw [colon] at begins
    split at own
    · cases own
      exact ⟨_, _, _, rfl, within, .label read member denotes none _ .fatal, begins⟩
    · split at own
      · cases own
        exact ⟨_, _, _, rfl, within, .branch read member denotes _, begins⟩
      · cases own
  · cases own

theorem of_itemProblem? (told : line.itemProblem? table = some found) : line.PointsAt found := by
  obtain ⟨offset, name, refers, -, -, rfl⟩ := Line.exists_leftmost told
  have ⟨front, rest, whole, atFront, _⟩ := refers
  have begins : ':' :: name <+: line.text.drop offset := by
    rw [whole, ← atFront, List.drop_left]
    exact ⟨rest, rfl⟩
  refine ⟨_, _, _, rfl, Text.le_of_begins (List.cons_ne_nil _ _) begins, ?_, begins⟩
  exact .reference refers none _ .fatal

end Line.PointsAt

end TwoPass
