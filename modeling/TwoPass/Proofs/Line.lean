import TwoPass.Line
import TwoPass.Proofs.Text.Trim

/-! What reading a line leaves of it.

The text of a content line is trimmed, holds no comment and begins with no marker. Text of that kind
is read back as it stands behind any blanks, so content that is written out is content again. -/

set_option autoImplicit false

namespace TwoPass.Line

theorem read_of_ofText {raw : Text} {body : Body}
    (kind : Body.ofText (Text.trim (withoutBreak raw)) = .ok body) (file : Text) (number : Int) :
    Line.read raw file number = .ok ⟨file, number, withoutBreak raw,
      (withoutBreak raw).length - (Text.trimLeft (withoutBreak raw)).length,
      if body = .content then Text.trimRight (Text.upTo ';' (Text.trim (withoutBreak raw)))
      else Text.trim (withoutBreak raw), body⟩ := by
  unfold Line.read
  dsimp only
  rw [kind]
  cases body <;> rfl

theorem read_eq_ok_iff {raw file : Text} {number : Int} {line : Line} :
    Line.read raw file number = .ok line ↔
    line.file = file ∧ line.number = number ∧ line.raw = withoutBreak raw ∧
    line.indent = (withoutBreak raw).length - (Text.trimLeft (withoutBreak raw)).length ∧
    Body.ofText (Text.trim (withoutBreak raw)) = .ok line.body ∧
    line.text = if line.body = .content
      then Text.trimRight (Text.upTo ';' (Text.trim (withoutBreak raw)))
      else Text.trim (withoutBreak raw) := by
  cases kind : Body.ofText (Text.trim (withoutBreak raw)) with
  | error fault =>
    unfold Line.read
    simp [kind]
  | ok body =>
    rw [read_of_ofText kind file number, Except.ok.injEq]
    constructor
    · rintro rfl
      simp
    · rintro ⟨rfl, rfl, sameRaw, sameIndent, sameBody, sameText⟩
      cases sameBody
      obtain ⟨ownFile, ownNumber, ownRaw, indent, text, ownBody⟩ := line
      simp_all

/-- Text that reads as content and that reading leaves unchanged. -/
structure IsContent (text : Text) : Prop where
  trimmed : Text.Trimmed text
  body : Body.ofText text = .ok .content
  uncommented : ';' ∉ text

inductive Body.Decided : Text → Except (Fault × Nat) Body → Prop
  | blank : Decided [] (.ok .blank)
  | comment (rest : Text) : Decided (';' :: rest) (.ok .comment)
  | directive {rest : Text} {target : Section}
    (known : Section.ofName? (argument ('.' :: rest)) = some target) :
    Decided ('.' :: rest) (.ok (.directive target))
  | unknownDirective {rest : Text} (unknown : Section.ofName? (argument ('.' :: rest)) = none) :
    Decided ('.' :: rest) (.error (.unknownDirective (Text.firstWord ('.' :: rest)), 0))
  | label {rest : Text} (valid : Text.isName (argument (':' :: rest)) = true) :
    Decided (':' :: rest) (.ok (.label (argument (':' :: rest))))
  | malformed {rest : Text} (invalid : ¬Text.isName (argument (':' :: rest)) = true) :
    Decided (':' :: rest) (.error (.malformed (.invalidLabelLine (':' :: rest)), 1))
  | content {c : Char} {rest : Text} (notComment : c ≠ ';') (notDirective : c ≠ '.')
    (notLabel : c ≠ ':') : Decided (c :: rest) (.ok .content)

theorem Body.decided_ofText (text : Text) : Body.Decided text (Body.ofText text) := by
  unfold Body.ofText
  split
  · exact .blank
  · exact .comment _
  · split
    · next known => exact .directive known
    · next unknown => exact .unknownDirective unknown
  · split
    · next valid => exact .label valid
    · next invalid => exact .malformed invalid
  · next notEmpty notComment notDirective notLabel =>
    obtain ⟨c, rest, rfl⟩ := List.exists_cons_of_ne_nil notEmpty
    refine .content ?_ ?_ ?_
    · rintro rfl; exact notComment rest rfl
    · rintro rfl; exact notDirective rest rfl
    · rintro rfl; exact notLabel rest rfl

theorem Body.ofText_eq_content_iff {text : Text} :
    Body.ofText text = .ok .content ↔
      ∃ c rest, text = c :: rest ∧ c ≠ ';' ∧ c ≠ '.' ∧ c ≠ ':' := by
  have decided := Body.decided_ofText text
  constructor
  · intro content
    rw [content] at decided
    cases decided with
    | content notComment notDirective notLabel =>
      exact ⟨_, _, rfl, notComment, notDirective, notLabel⟩
  · rintro ⟨c, rest, rfl, notComment, notDirective, notLabel⟩
    generalize Body.ofText (c :: rest) = result at decided
    cases decided with
    | comment => exact absurd rfl notComment
    | directive | unknownDirective => exact absurd rfl notDirective
    | label | malformed => exact absurd rfl notLabel
    | content => rfl

theorem Body.ofText_eq_label_iff {text name : Text} : Body.ofText text = .ok (.label name) ↔
    ∃ rest, text = ':' :: rest ∧ argument text = name ∧ Text.isName name = true := by
  constructor
  · intro label
    have decided := Body.decided_ofText text
    rw [label] at decided
    cases decided with
    | label valid => exact ⟨_, rfl, rfl, valid⟩
  · rintro ⟨rest, rfl, rfl, valid⟩
    exact if_pos valid

theorem Body.isName_of_ofText_label {text name : Text} (label : Body.ofText text = .ok (.label name)) :
    Text.isName name = true := by
  obtain ⟨rest, -, -, valid⟩ := Body.ofText_eq_label_iff.mp label
  exact valid

/-- Only what begins like a directive or a label can be refused. -/
theorem Body.ofText_eq_error {text : Text} {fault : Fault} {offset : Nat}
    (refused : Body.ofText text = .error (fault, offset)) :
    fault = .unknownDirective (Text.firstWord text) ∧ offset = 0 ∨
      ∃ rest, text = ':' :: rest ∧ fault = .malformed (.invalidLabelLine (':' :: rest)) ∧
        offset = 1 := by
  have decided := Body.decided_ofText text
  rw [refused] at decided
  cases decided with
  | unknownDirective => exact .inl ⟨rfl, rfl⟩
  | malformed => exact .inr ⟨_, rfl, rfl, rfl⟩

theorem Body.fault_of_ofText_error {text : Text} {fault : Fault} {offset : Nat}
    (refused : Body.ofText text = .error (fault, offset)) :
    (∃ word, fault = .unknownDirective word) ∨ ∃ cause, fault = .malformed cause := by
  rcases Body.ofText_eq_error refused with ⟨rfl, -⟩ | ⟨rest, -, rfl, -⟩
  · exact .inl ⟨_, rfl⟩
  · exact .inr ⟨_, rfl⟩

theorem IsContent.ne_nil {text : Text} (content : IsContent text) : text ≠ [] := by
  obtain ⟨c, rest, rfl, -⟩ := Body.ofText_eq_content_iff.mp content.body
  exact List.cons_ne_nil c rest

theorem IsContent.of_head? {text other : Text} (content : IsContent text)
    (first : other.head? = text.head?)
    (last : ∀ c, other.getLast? = some c → Text.isBlank c = false) (uncommented : ';' ∉ other) :
    IsContent other := by
  obtain ⟨c, rest, rfl, marks⟩ := Body.ofText_eq_content_iff.mp content.body
  obtain ⟨more, rfl⟩ := List.head?_eq_some_iff.mp first
  refine ⟨⟨?_, last⟩, Body.ofText_eq_content_iff.mpr ⟨c, more, rfl, marks⟩, uncommented⟩
  intro d begins
  exact content.trimmed.first d begins

theorem isContent_trimRight {text : Text} (trimmed : Text.Trimmed text)
    (body : Body.ofText text = .ok .content) : IsContent (Text.trimRight (Text.upTo ';' text)) := by
  obtain ⟨c, rest, rfl, notComment, notDirective, notLabel⟩ := Body.ofText_eq_content_iff.mp body
  have visible : Text.isBlank c = false := trimmed.first c rfl
  have kept : Text.trimRight (Text.upTo ';' (c :: rest)) =
      c :: Text.trimRight (Text.upTo ';' rest) := by
    rw [Text.upTo, List.takeWhile_cons_of_pos (by simpa using notComment)]
    exact Text.trimEnd_cons visible
  constructor
  · constructor
    · intro d first
      rw [kept] at first
      cases first
      exact visible
    · intro d last
      exact Text.getLast?_trimEnd_false last
  · rw [kept]
    exact Body.ofText_eq_content_iff.mpr ⟨c, _, rfl, notComment, notDirective, notLabel⟩
  · intro member
    exact Text.not_mem_upTo ';' _ (Text.trimEnd_subset member)

section
variable {raw file : Text} {number : Int} {line : Line}

theorem text_begins (read : Line.read raw file number = .ok line) :
    line.text <+: (withoutBreak raw).drop line.indent := by
  obtain ⟨-, -, -, indent, -, text⟩ := read_eq_ok_iff.mp read
  have whole := Text.trim_begins (withoutBreak raw)
  rw [← indent] at whole
  rw [text]
  split
  · exact (Text.trimEnd_begins.trans (List.takeWhile_prefix _)).trans whole
  · exact whole

theorem indent_le (read : Line.read raw file number = .ok line) :
    line.indent ≤ (withoutBreak raw).length := by
  obtain ⟨-, -, -, indent, -⟩ := read_eq_ok_iff.mp read
  omega

theorem text_isInfix (read : Line.read raw file number = .ok line) : line.text <:+: raw := by
  have unbroken : withoutBreak raw <+: raw := Text.trimEnd_begins
  have behind : (withoutBreak raw).drop line.indent <:+ withoutBreak raw := List.drop_suffix _ _
  exact (text_begins read).isInfix.trans (behind.isInfix.trans unbroken.isInfix)

theorem isContent_of_read (read : Line.read raw file number = .ok line)
    (content : line.body = .content) : IsContent line.text := by
  obtain ⟨-, -, -, -, body, text⟩ := read_eq_ok_iff.mp read
  rw [content] at body
  rw [if_pos content] at text
  rw [text]
  exact isContent_trimRight (Text.trimmed_trim _) body

theorem trimmed_of_read (read : Line.read raw file number = .ok line) : Text.Trimmed line.text := by
  by_cases content : line.body = .content
  · exact (isContent_of_read read content).trimmed
  · obtain ⟨-, -, -, -, -, text⟩ := read_eq_ok_iff.mp read
    rw [if_neg content] at text
    rw [text]
    exact Text.trimmed_trim _

theorem isName_of_read {name : Text} (read : Line.read raw file number = .ok line)
    (label : line.body = .label name) : Text.isName name = true := by
  obtain ⟨-, -, -, -, body, -⟩ := read_eq_ok_iff.mp read
  exact Body.isName_of_ofText_label (label ▸ body)

theorem read_eq_error {found : Problem} (failed : Line.read raw file number = .error found) :
    ∃ fault offset, Body.ofText (Text.trim (withoutBreak raw)) = .error (fault, offset) ∧
      found = ⟨fault, some ⟨file, number,
        ((withoutBreak raw).length - (Text.trimLeft (withoutBreak raw)).length : Nat) + offset + 1⟩,
        some (withoutBreak raw)⟩ := by
  unfold Line.read at failed
  dsimp only at failed
  split at failed
  · cases failed
  · cases failed
  · next fault offset refused =>
    cases failed
    exact ⟨fault, offset, refused, rfl⟩

theorem fault_of_read {found : Problem} (failed : Line.read raw file number = .error found) :
    (∃ word, found.fault = .unknownDirective word) ∨ ∃ cause, found.fault = .malformed cause := by
  obtain ⟨fault, offset, refused, rfl⟩ := read_eq_error failed
  exact Body.fault_of_ofText_error refused

/-- Reading depends on the characters of the line alone: another file or number shows in nothing
but the place. -/
theorem read_at (read : Line.read raw file number = .ok line) (otherFile : Text) (otherNumber : Int) :
    Line.read raw otherFile otherNumber =
      .ok { line with file := otherFile, number := otherNumber } := by
  obtain ⟨-, -, rest⟩ := read_eq_ok_iff.mp read
  exact read_eq_ok_iff.mpr ⟨rfl, rfl, rest⟩

end

theorem isBlank_of_isLineEnd {c : Char} (ending : isLineEnd c = true) : Text.isBlank c = true := by
  simp only [isLineEnd, Bool.or_eq_true, beq_iff_eq] at ending
  rcases ending with rfl | rfl <;> decide

theorem indent_of_read {blanks rest file : Text} {c : Char} {number : Int} {line : Line}
    (read : Line.read (blanks ++ c :: rest) file number = .ok line)
    (blank : ∀ d ∈ blanks, Text.isBlank d = true) (visible : Text.isBlank c = false) :
    line.indent = blanks.length := by
  have inner : isLineEnd c = false := by
    cases ending : isLineEnd c with
    | false => rfl
    | true => cases visible.symm.trans (isBlank_of_isLineEnd ending)
  obtain ⟨-, -, -, indent, -, -⟩ := read_eq_ok_iff.mp read
  rw [indent, withoutBreak, Text.trimEnd_append_cons inner, Text.trimLeft,
    List.dropWhile_append_of_pos blank, List.dropWhile_cons_of_neg (by simp [visible]),
    List.length_append, Nat.add_sub_cancel]

theorem withoutBreak_append {blanks text : Text} (content : IsContent text) :
    withoutBreak (blanks ++ text) = blanks ++ text := by
  apply Text.trimEnd_eq_self
  intro c last
  rw [List.getLast?_append, List.getLast?_eq_some_getLast content.ne_nil, Option.some_or] at last
  have visible := content.trimmed.last c ((List.getLast?_eq_some_getLast content.ne_nil).trans last)
  cases ending : isLineEnd c with
  | false => rfl
  | true => exact absurd (isBlank_of_isLineEnd ending) (by simp [visible])

theorem read_blanks_append {blanks text : Text} (content : IsContent text)
    (blank : ∀ c ∈ blanks, Text.isBlank c = true) (file : Text) (number : Int) :
    Line.read (blanks ++ text) file number =
      .ok ⟨file, number, blanks ++ text, blanks.length, text, .content⟩ := by
  have unbroken : withoutBreak (blanks ++ text) = blanks ++ text := withoutBreak_append content
  have trimmed : Text.trim (blanks ++ text) = text :=
    (Text.trim_blanks_append blank).trans (Text.trim_eq_self content.trimmed)
  have indented : Text.trimLeft (blanks ++ text) = text := by
    rw [Text.trimLeft, List.dropWhile_append_of_pos blank]
    exact Text.dropWhile_eq_self content.trimmed.first
  have uncommented : Text.trimRight (Text.upTo ';' text) = text := by
    rw [Text.upTo_eq_self content.uncommented]
    exact Text.trimEnd_eq_self content.trimmed.last
  apply read_eq_ok_iff.mpr
  simp [unbroken, trimmed, indented, uncommented, content.body]

theorem read_content {text : Text} (content : IsContent text) (file : Text) (number : Int) :
    Line.read text file number = .ok ⟨file, number, text, 0, text, .content⟩ :=
  @read_blanks_append [] text content (by simp) file number

end TwoPass.Line
