import Mathlib.Data.List.TakeWhile
import TwoPass.Text.Blank

/-! Texts without blanks at their ends.

Trimming returns such a text, leaves it alone, and does not see blanks put in front of it. The text
of a line that has been read is of this kind, and so is every line that is written for it. -/

set_option autoImplicit false

namespace TwoPass.Text

structure Trimmed (text : Text) : Prop where
  first : ∀ c, text.head? = some c → isBlank c = false
  last : ∀ c, text.getLast? = some c → isBlank c = false

section
variable {drop : Char → Bool} {text : Text}

theorem head?_dropWhile_false {c : Char} (first : (text.dropWhile drop).head? = some c) :
    drop c = false := by
  have stopped := List.head?_dropWhile_not drop text
  rw [first] at stopped
  exact stopped

theorem getLast?_trimEnd_false {c : Char} (last : (trimEnd drop text).getLast? = some c) :
    drop c = false := by
  rw [trimEnd, List.getLast?_reverse] at last
  exact head?_dropWhile_false last

theorem dropWhile_eq_self (first : ∀ c, text.head? = some c → drop c = false) :
    text.dropWhile drop = text := by
  cases text with
  | nil => rfl
  | cons c rest => exact List.dropWhile_cons_of_neg (by simp [first c rfl])

theorem trimEnd_eq_self (last : ∀ c, text.getLast? = some c → drop c = false) :
    trimEnd drop text = text := by
  have stays : text.reverse.dropWhile drop = text.reverse :=
    dropWhile_eq_self fun c first => last c (by rwa [List.head?_reverse] at first)
  rw [trimEnd, stays, List.reverse_reverse]

theorem trimEnd_begins : trimEnd drop text <+: text := by
  have suffix := List.dropWhile_suffix (l := text.reverse) drop
  rw [← List.reverse_prefix, List.reverse_reverse] at suffix
  exact suffix

theorem trimEnd_append_cons {front : Text} {c : Char} (keep : drop c = false) :
    trimEnd drop (front ++ c :: text) = front ++ c :: trimEnd drop text := by
  rw [trimEnd, trimEnd, List.reverse_append, List.reverse_cons, List.append_assoc,
    List.dropWhile_append]
  split
  · next gone =>
    rw [List.isEmpty_iff] at gone
    simp [gone, keep]
  · simp

theorem trimEnd_cons {c : Char} (keep : drop c = false) :
    trimEnd drop (c :: text) = c :: trimEnd drop text := @trimEnd_append_cons drop text [] c keep

theorem trimEnd_subset {c : Char} (member : c ∈ trimEnd drop text) : c ∈ text :=
  trimEnd_begins.subset member

end

theorem trimmed_trim (text : Text) : Trimmed (trim text) := by
  constructor
  · intro c first
    rw [trim, trimRight] at first
    -- A text cut at its end has the first character of the whole.
    obtain ⟨rest, whole⟩ := @trimEnd_begins isBlank (trimLeft text)
    have sameFirst : (trimLeft text).head? = some c := by rw [← whole, List.head?_append, first]; rfl
    exact head?_dropWhile_false sameFirst
  · intro c last
    exact getLast?_trimEnd_false last

theorem trim_begins (text : Text) : trim text <+: text.drop (text.length - (trimLeft text).length) := by
  have behind : trimLeft text <:+ text := List.dropWhile_suffix isBlank
  rw [← List.suffix_iff_eq_drop.mp behind]
  exact trimEnd_begins

theorem isBlank_of_mem_indent {text : Text} {c : Char}
    (member : c ∈ text.take (text.length - (trimLeft text).length)) : isBlank c = true := by
  have cut : text.takeWhile isBlank ++ trimLeft text = text := List.takeWhile_append_dropWhile
  have front : text.take (text.length - (trimLeft text).length) = text.takeWhile isBlank := by
    have length := congrArg List.length cut
    rw [List.length_append] at length
    rw [← length, Nat.add_sub_cancel]
    exact (List.prefix_iff_eq_take.mp (List.takeWhile_prefix isBlank)).symm
  rw [front] at member
  exact List.mem_takeWhile_imp member

theorem firstWord_begins {text : Text} (trimmed : Trimmed text) : firstWord text <+: text := by
  rw [firstWord, trimLeft, dropWhile_eq_self trimmed.first]
  exact List.takeWhile_prefix _

theorem trim_eq_self {text : Text} (trimmed : Trimmed text) : trim text = text := by
  rw [trim, trimLeft, dropWhile_eq_self trimmed.first]
  exact trimEnd_eq_self trimmed.last

theorem trim_blanks_append {blanks text : Text} (blank : ∀ c ∈ blanks, isBlank c = true) :
    trim (blanks ++ text) = trim text := by
  rw [trim, trim, trimLeft, trimLeft, List.dropWhile_append_of_pos blank]

theorem mem_of_mem_trim {text : Text} {c : Char} (member : c ∈ trim text) : c ∈ text :=
  (List.dropWhile_sublist isBlank).subset (trimEnd_subset member)

theorem not_mem_upTo (mark : Char) (text : Text) : mark ∉ upTo mark text := by
  intro member
  have passed := List.mem_takeWhile_imp member
  simp at passed

theorem mem_of_mem_upTo {mark c : Char} {text : Text} (member : c ∈ upTo mark text) : c ∈ text :=
  List.takeWhile_subset _ member

theorem upTo_eq_self {mark : Char} {text : Text} (absent : mark ∉ text) : upTo mark text = text := by
  rw [upTo, List.takeWhile_eq_self_iff]
  intro c member
  simp only [bne_iff_ne, ne_eq]
  rintro rfl
  exact absent member

theorem getLast?_visible_of_append {front rest : Text}
    (visible : ∀ c, (front ++ rest).getLast? = some c → isBlank c = false) :
    ∀ c, rest.getLast? = some c → isBlank c = false := by
  intro c last
  exact visible c (by rw [List.getLast?_append, last, Option.some_or])

theorem getLast?_append_visible {front rest : Text}
    (own : rest = [] → ∀ c, front.getLast? = some c → isBlank c = false)
    (later : ∀ c, rest.getLast? = some c → isBlank c = false) :
    ∀ c, (front ++ rest).getLast? = some c → isBlank c = false := by
  intro c last
  rw [List.getLast?_append] at last
  cases ending : rest.getLast? with
  | none =>
    rw [ending, Option.none_or] at last
    exact own (List.getLast?_eq_none_iff.mp ending) c last
  | some d =>
    rw [ending, Option.some_or] at last
    exact later c (ending.trans last)

theorem trimEnd_append {drop : Char → Bool} {text ending : Text} (dropped : ∀ c ∈ ending, drop c = true) :
    trimEnd drop (text ++ ending) = trimEnd drop text := by
  rw [trimEnd, trimEnd, List.reverse_append, List.dropWhile_append_of_pos]
  intro c member
  exact dropped c (List.mem_reverse.mp member)

theorem exists_trimEnd (drop : Char → Bool) (text : Text) :
    ∃ ending, text = trimEnd drop text ++ ending ∧ ∀ c ∈ ending, drop c = true := by
  refine ⟨(text.reverse.takeWhile drop).reverse, ?_, fun c member => ?_⟩
  · rw [trimEnd, ← List.reverse_append, List.takeWhile_append_dropWhile, List.reverse_reverse]
  · exact List.mem_takeWhile_imp (List.mem_reverse.mp member)

theorem trim_append_blanks {text blanks : Text} (blank : ∀ c ∈ blanks, isBlank c = true) :
    trim (text ++ blanks) = trim text := by
  rw [trim, trim, trimLeft, trimLeft, List.dropWhile_append]
  split
  · next gone =>
    rw [List.isEmpty_iff.mp gone, List.dropWhile_eq_nil_iff.mpr blank]
  · exact trimEnd_append blank

theorem firstWord_blanks {front text back : Text} (before : ∀ c ∈ front, isBlank c = true)
    (behind : ∀ c ∈ back, isBlank c = true) : firstWord (front ++ (text ++ back)) = firstWord text := by
  have ends : back.takeWhile (!isBlank ·) = [] := by
    cases back with
    | nil => rfl
    | cons c more => exact List.takeWhile_cons_of_neg (by simp [behind c List.mem_cons_self])
  rw [firstWord, firstWord, trimLeft, trimLeft, List.dropWhile_append_of_pos before,
    List.dropWhile_append]
  split
  · next empty =>
    rw [List.isEmpty_iff.mp empty, List.dropWhile_eq_nil_iff.mpr behind]
  · rw [List.takeWhile_append, ends, List.append_nil]
    split
    · next whole => exact (List.takeWhile_prefix _).eq_of_length whole |>.symm
    · rfl

theorem upTo_append {mark : Char} {front rest : Text} (absent : mark ∉ front) :
    upTo mark (front ++ rest) = front ++ upTo mark rest := by
  apply List.takeWhile_append_of_pos
  intro c member
  simp only [bne_iff_ne, ne_eq]
  rintro rfl
  exact absent member

theorem upTo_append_mark (mark : Char) (text rest : Text) :
    upTo mark (text ++ mark :: rest) = upTo mark text := by
  induction text with
  | nil => simp [upTo]
  | cons c text ih =>
    by_cases same : c = mark
    · simp [upTo, same]
    · simpa [upTo, same] using ih

theorem trimLeft_upTo {mark : Char} (visible : isBlank mark = false) (text : Text) :
    trimLeft (upTo mark text) = upTo mark (trimLeft text) := by
  induction text with
  | nil => rfl
  | cons c text ih =>
    rw [trimLeft, upTo] at ih ⊢
    by_cases same : c = mark
    · simp [upTo, trimLeft, same, visible]
    · by_cases blank : isBlank c = true
      · simpa [trimLeft, same, blank] using ih
      · simp [upTo, trimLeft, same, blank]

/-- Cutting off blanks at the end of a text cuts off blanks, if anything, in front of a mark. -/
theorem exists_upTo_trimRight {mark : Char} (visible : isBlank mark = false) (text : Text) :
    ∃ blanks, upTo mark text = upTo mark (trimRight text) ++ blanks ∧
      ∀ c ∈ blanks, isBlank c = true := by
  obtain ⟨blanks, whole, blank⟩ := exists_trimEnd isBlank text
  have unmarked : mark ∉ blanks := by
    intro member
    rw [blank mark member] at visible
    cases visible
  rw [trimRight]
  generalize trimEnd isBlank text = kept at whole
  subst whole
  by_cases marked : mark ∈ kept
  · -- the first mark stands in front of the blanks
    obtain ⟨front, rest, rfl⟩ := List.append_of_mem marked
    refine ⟨[], ?_, nofun⟩
    rw [List.append_assoc, List.cons_append, upTo_append_mark, upTo_append_mark, List.append_nil]
  · refine ⟨blanks, ?_, blank⟩
    rw [upTo_append marked, upTo_eq_self unmarked, upTo_eq_self marked]

theorem trim_upTo_trimRight {mark : Char} (visible : isBlank mark = false) (text : Text) :
    trim (upTo mark (trimRight text)) = trim (upTo mark text) := by
  obtain ⟨blanks, same, blank⟩ := exists_upTo_trimRight visible text
  rw [same, trim_append_blanks blank]

theorem trimRight_upTo_trimRight {mark : Char} (visible : isBlank mark = false) (text : Text) :
    trimRight (upTo mark (trimRight text)) = trimRight (upTo mark text) := by
  obtain ⟨blanks, same, blank⟩ := exists_upTo_trimRight visible text
  rw [same]
  exact (trimEnd_append blank).symm

end TwoPass.Text
