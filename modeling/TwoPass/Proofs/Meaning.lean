import TwoPass.Proofs.Extent

/-! What a source line means, apart from how it is laid out.

Blanks around a line and a comment behind it change nothing about its meaning, and neither blank
lines nor lines that hold only a comment have one. The edits of a source text that are of this kind
are listed by `Source.Edit`. -/

set_option autoImplicit false

namespace TwoPass

inductive Source.Meaning where
  | nothing
  | directive (target : Section)
  | label (name : Text)
  | content (text : Text)
  deriving DecidableEq, Repr

def Line.meaning (line : Line) : Source.Meaning :=
  match line.body with
  | .blank | .comment => .nothing
  | .directive target => .directive target
  | .label name => .label name
  | .content => .content line.text

theorem Line.meaning_eq_content_iff {line : Line} {text : Text} :
    line.meaning = .content text ↔ line.body = .content ∧ line.text = text := by
  unfold meaning
  cases line.body <;> simp

namespace Source

def meaning? (raw : Text) : Option Meaning := (line? raw).map Line.meaning

def Meaning.ofText? (text : Text) : Option Meaning :=
  match Line.Body.ofText text with
  | .ok .blank | .ok .comment => some .nothing
  | .ok (.directive target) => some (.directive target)
  | .ok (.label name) => some (.label name)
  | .ok .content => some (.content (Text.trimRight (Text.upTo ';' text)))
  | .error _ => none

section
variable {raw file : Text} {number : Int}

theorem meaning?_of_read {line : Line} (read : Line.read raw file number = .ok line) :
    meaning? raw = some line.meaning := by
  rw [meaning?, line?_eq_some read]
  rfl

theorem exists_read {meaning : Meaning} (means : meaning? raw = some meaning) (file : Text)
    (number : Int) : ∃ line, Line.read raw file number = .ok line ∧ line.meaning = meaning := by
  cases read : Line.read raw file number with
  | error found =>
    rw [meaning?, line?_eq_none read] at means
    cases means
  | ok line =>
    rw [meaning?_of_read read] at means
    exact ⟨line, rfl, Option.some.inj means⟩

end

theorem trim_withoutBreak (raw : Text) : Text.trim (Line.withoutBreak raw) = Text.trim raw := by
  obtain ⟨ending, whole, ends⟩ := Text.exists_trimEnd Line.isLineEnd raw
  have cut := @Text.trim_append_blanks (Line.withoutBreak raw) ending fun c member =>
    Line.isBlank_of_isLineEnd (ends c member)
  rw [← cut]
  exact congrArg Text.trim whole.symm

/-- Only the trimmed text of a line counts. -/
theorem meaning?_eq (raw : Text) : meaning? raw = Meaning.ofText? (Text.trim raw) := by
  rw [Meaning.ofText?, ← trim_withoutBreak]
  cases kind : Line.Body.ofText (Text.trim (Line.withoutBreak raw)) with
  | error fault =>
    have failed : line? raw = none := by
      unfold line? Line.read
      simp only [kind]
      rfl
    rw [meaning?, failed]
    rfl
  | ok body =>
    rw [meaning?_of_read (Line.read_of_ofText kind [] 0)]
    cases body <;> rfl

theorem isBlank_semicolon : Text.isBlank ';' = false := by decide

theorem argument_commented (c : Char) (rest comment : Text) :
    Line.argument (c :: (rest ++ ';' :: comment)) = Line.argument (c :: Text.trimRight rest) := by
  simp only [Line.argument, List.drop_succ_cons, List.drop_zero]
  rw [Text.upTo_append_mark, Text.trim_upTo_trimRight isBlank_semicolon]

theorem Meaning.ofText?_commented {c : Char} (visible : Text.isBlank c = false)
    (rest comment : Text) :
    ofText? (c :: (rest ++ ';' :: comment)) = ofText? (c :: Text.trimRight rest) := by
  by_cases commented : c = ';'
  · subst commented
    rfl
  by_cases directive : c = '.'
  · subst directive
    simp only [ofText?, Line.Body.ofText, argument_commented]
    cases Section.ofName? (Line.argument ('.' :: Text.trimRight rest)) <;> rfl
  by_cases label : c = ':'
  · subst label
    simp only [ofText?, Line.Body.ofText, argument_commented]
    by_cases valid : Text.isName (Line.argument (':' :: Text.trimRight rest)) = true <;>
      simp only [valid, if_true, if_false, Bool.false_eq_true]
  -- any other first character is that of content
  have content (tail : Text) : Line.Body.ofText (c :: tail) = .ok .content :=
    Line.Body.ofText_eq_content_iff.mpr ⟨c, tail, rfl, commented, directive, label⟩
  have kept (tail : Text) :
      Text.trimRight (Text.upTo ';' (c :: tail)) = c :: Text.trimRight (Text.upTo ';' tail) := by
    rw [Text.upTo, List.takeWhile_cons_of_pos (by simpa using commented)]
    exact Text.trimEnd_cons visible
  simp only [ofText?, content, kept]
  rw [Text.upTo_append_mark, Text.trimRight_upTo_trimRight isBlank_semicolon]

theorem meaning?_indented {blanks : Text} (blank : ∀ c ∈ blanks, Text.isBlank c = true) (raw : Text) :
    meaning? (blanks ++ raw) = meaning? raw := by
  rw [meaning?_eq, meaning?_eq, Text.trim_blanks_append blank]

theorem meaning?_trailed {blanks : Text} (blank : ∀ c ∈ blanks, Text.isBlank c = true) (raw : Text) :
    meaning? (raw ++ blanks) = meaning? raw := by
  rw [meaning?_eq, meaning?_eq, Text.trim_append_blanks blank]

theorem meaning?_commented (raw comment : Text) : meaning? (raw ++ ';' :: comment) = meaning? raw := by
  rw [meaning?_eq, meaning?_eq, Text.trim, Text.trim, Text.trimLeft, Text.trimLeft,
    List.dropWhile_append]
  cases begins : raw.dropWhile Text.isBlank with
  | nil =>
    rw [List.isEmpty_nil, if_pos rfl, List.dropWhile_cons_of_neg (by decide), Text.trimRight,
      Text.trimEnd_cons isBlank_semicolon]
    rfl
  | cons c rest =>
    have visible : Text.isBlank c = false := Text.head?_dropWhile_false (by rw [begins]; rfl)
    -- the comment is trimmed with the line, and stays behind its mark
    have trimmed : Text.trimRight (c :: rest ++ ';' :: comment) =
        c :: (rest ++ ';' :: Text.trimRight comment) := Text.trimEnd_append_cons isBlank_semicolon
    have alone : Text.trimRight (c :: rest) = c :: Text.trimRight rest := Text.trimEnd_cons visible
    rw [List.isEmpty_cons, if_neg Bool.false_ne_true, trimmed, alone,
      Meaning.ofText?_commented visible]

inductive Idle : Text → Prop
  | blank {raw : Text} (blank : ∀ c ∈ raw, Text.isBlank c = true) : Idle raw
  | comment {blanks : Text} (blank : ∀ c ∈ blanks, Text.isBlank c = true) (text : Text) :
    Idle (blanks ++ ';' :: text)

theorem Idle.meaning?_eq {raw : Text} (idle : Idle raw) : meaning? raw = some .nothing := by
  cases idle with
  | blank blank => exact meaning?_trailed blank []
  | comment blank text =>
    rw [meaning?_indented blank]
    exact meaning?_commented [] text

theorem Idle.meaning?_append {rest : Text} (idle : Idle rest) (raw : Text) :
    meaning? (raw ++ rest) = meaning? raw := by
  cases idle with
  | blank blank => exact meaning?_trailed blank raw
  | comment blank text => rw [← List.append_assoc, meaning?_commented, meaning?_trailed blank]

/-- Changes to the layout of a source text: blanks in front of a line or behind it, a comment behind
it, and an idle line more or less. -/
inductive Edit : List Text → List Text → Prop
  | indent (front : List Text) {blanks : Text} (blank : ∀ c ∈ blanks, Text.isBlank c = true)
    (raw : Text) (back : List Text) :
    Edit (front ++ raw :: back) (front ++ (blanks ++ raw) :: back)
  | trail (front : List Text) {blanks : Text} (blank : ∀ c ∈ blanks, Text.isBlank c = true)
    (raw : Text) (back : List Text) :
    Edit (front ++ raw :: back) (front ++ (raw ++ blanks) :: back)
  | comment (front : List Text) (text raw : Text) (back : List Text) :
    Edit (front ++ raw :: back) (front ++ (raw ++ ';' :: text) :: back)
  | insert (front : List Text) {raw : Text} (idle : Idle raw) (back : List Text) :
    Edit (front ++ back) (front ++ raw :: back)
  | delete (front : List Text) {raw : Text} (idle : Idle raw) (back : List Text) :
    Edit (front ++ raw :: back) (front ++ back)

/-- Lines with the same meanings in the same order, but for lines that mean nothing. -/
inductive Alike : List Text → List Text → Prop
  | nil : Alike [] []
  | cons {raw other : Text} {rest others : List Text} (same : meaning? other = meaning? raw)
    (alike : Alike rest others) : Alike (raw :: rest) (other :: others)
  | left {raw : Text} {rest others : List Text} (idle : meaning? raw = some .nothing)
    (alike : Alike rest others) : Alike (raw :: rest) others
  | right {other : Text} {rest others : List Text} (idle : meaning? other = some .nothing)
    (alike : Alike rest others) : Alike rest (other :: others)

theorem Alike.refl (lines : List Text) : Alike lines lines := by
  induction lines with
  | nil => exact .nil
  | cons raw rest ih => exact .cons rfl ih

theorem Alike.symm {lines others : List Text} (alike : Alike lines others) : Alike others lines := by
  induction alike with
  | nil => exact .nil
  | cons same _ ih => exact .cons same.symm ih
  | left idle _ ih => exact .right idle ih
  | right idle _ ih => exact .left idle ih

theorem Alike.append (front : List Text) {lines others : List Text} (alike : Alike lines others) :
    Alike (front ++ lines) (front ++ others) := by
  induction front with
  | nil => exact alike
  | cons raw rest ih => exact .cons rfl ih

theorem Edit.alike {lines edited : List Text} (edit : Edit lines edited) : Alike lines edited := by
  cases edit with
  | indent front blank raw back => exact .append front (.cons (meaning?_indented blank raw) (.refl back))
  | trail front blank raw back => exact .append front (.cons (meaning?_trailed blank raw) (.refl back))
  | comment front text raw back => exact .append front (.cons (meaning?_commented raw text) (.refl back))
  | insert front idle back => exact .append front (.right idle.meaning?_eq (.refl back))
  | delete front idle back => exact .append front (.left idle.meaning?_eq (.refl back))

end Source

end TwoPass
