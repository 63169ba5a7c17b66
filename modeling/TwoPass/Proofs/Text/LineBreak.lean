import TwoPass.Proofs.Text.CharacterClass

/-! Lines of a text and the text of lines.

No line of a text has a break in it. Lines without breaks, each ended by a line feed, are the lines of
the text that they make up. A text has the same lines once all its carriage returns are line feeds. -/

set_option autoImplicit false

namespace TwoPass.Text

def Unbroken (text : Text) : Prop := ∀ c ∈ text, isLineBreak c = false

theorem unbroken_of_all {text : Text} (whole : text.all (!isLineBreak ·) = true) :
    Unbroken text := by
  simpa [Unbroken] using whole

theorem Unbroken.append {first second : Text} (whole : Unbroken first) (more : Unbroken second) :
    Unbroken (first ++ second) := List.forall_mem_append.mpr ⟨whole, more⟩

theorem not_isLineBreak_of_not_isBlank {c : Char} (visible : isBlank c = false) :
    isLineBreak c = false := by
  cases broken : isLineBreak c with
  | false => rfl
  | true => cases visible.symm.trans (isBlank_of_isLineBreak broken)

theorem unbroken_of_isNameChar {text : Text} (named : ∀ c ∈ text, isNameChar c = true) :
    Unbroken text :=
  fun c member => not_isLineBreak_of_not_isBlank (not_isBlank_of_isNameChar (named c member))

theorem unbroken_of_mem_splitLines (text : Text) : ∀ line ∈ splitLines text, Unbroken line := by
  have none_broken : Unbroken [] := fun c member => absurd member List.not_mem_nil
  fun_induction splitLines text with
  | case1 => exact fun line member => absurd member List.not_mem_nil
  | case2 rest ih => exact List.forall_mem_cons.mpr ⟨none_broken, ih⟩
  | case3 c rest other broken ih => exact List.forall_mem_cons.mpr ⟨none_broken, ih⟩
  | case4 c rest other whole last ih =>
    rw [Bool.not_eq_true] at whole
    exact List.forall_mem_singleton.mpr (List.forall_mem_singleton.mpr whole)
  | case5 c rest other whole line more split ih =>
    rw [Bool.not_eq_true] at whole
    rw [split, List.forall_mem_cons] at ih
    exact List.forall_mem_cons.mpr ⟨List.forall_mem_cons.mpr ⟨whole, ih.1⟩, ih.2⟩

theorem splitLines_append_break {line : Text} (unbroken : Unbroken line) (rest : Text) :
    splitLines (line ++ '\n' :: rest) = line :: splitLines rest := by
  induction line with
  | nil => rfl
  | cons c more ih =>
    obtain ⟨whole, others⟩ := List.forall_mem_cons.mp unbroken
    have notReturn : c ≠ '\r' := by
      rintro rfl
      cases whole
    rw [List.cons_append, splitLines, ih others, if_neg (by rw [whole]; exact Bool.false_ne_true)]
    exact fun _ same => absurd same notReturn

theorem splitLines_of_unbroken {line : Text} (some_character : line ≠ []) (unbroken : Unbroken line) :
    splitLines line = [line] := by
  induction line with
  | nil => exact absurd rfl some_character
  | cons c rest ih =>
    obtain ⟨whole, others⟩ := List.forall_mem_cons.mp unbroken
    have notReturn : c ≠ '\r' := by
      rintro rfl
      cases whole
    rw [splitLines, if_neg (by rw [whole]; exact Bool.false_ne_true)]
    · cases rest with
      | nil => rfl
      | cons d more => rw [ih (List.cons_ne_nil d more) others]
    · exact fun _ same => absurd same notReturn

theorem splitLines_ne_nil {text : Text} (some_character : text ≠ []) : splitLines text ≠ [] := by
  fun_cases splitLines text with
  | case1 => exact absurd rfl some_character
  | _ => exact List.cons_ne_nil _ _

theorem splitLines_cons_of_broken {c : Char} {rest : Text} (broken : isLineBreak c = true)
    (apart : ∀ more, c = '\r' → rest = '\n' :: more → False) :
    splitLines (c :: rest) = [] :: splitLines rest := by
  rw [splitLines, if_pos broken]
  exact apart

theorem splitLines_cons_of_whole {c : Char} {rest line : Text} {others : List Text}
    (whole : isLineBreak c = false) (split : splitLines rest = line :: others) :
    splitLines (c :: rest) = (c :: line) :: others := by
  rw [splitLines, if_neg (by simp [whole]), split]
  rintro more rfl
  cases whole

/-- A line feed always ends a line. -/
theorem splitLines_append_feed (text rest : Text) :
    splitLines (text ++ '\n' :: rest) = splitLines (text ++ ['\n']) ++ splitLines rest := by
  have tail {c : Char} {more : Text} (whole : isLineBreak c = false)
      (ih : splitLines (more ++ '\n' :: rest) = splitLines (more ++ ['\n']) ++ splitLines rest) :
      splitLines (c :: more ++ '\n' :: rest) =
        splitLines (c :: more ++ ['\n']) ++ splitLines rest := by
    obtain ⟨line, others, split⟩ := List.exists_cons_of_ne_nil
      (@splitLines_ne_nil (more ++ ['\n']) (by simp))
    rw [split, List.cons_append] at ih
    rw [List.cons_append, List.cons_append, splitLines_cons_of_whole whole ih,
      splitLines_cons_of_whole whole split, List.cons_append]
  fun_induction splitLines text with
  | case1 => rfl
  | case2 more ih =>
    simp only [List.cons_append, splitLines, ih]
  | case3 c more other broken ih =>
    cases more with
    | nil =>
      -- a carriage return at the end makes one break with the line feed
      by_cases returns : c = '\r'
      · subst returns
        rfl
      · have step (after : Text) : splitLines (c :: after) = [] :: splitLines after :=
          splitLines_cons_of_broken broken fun _ same => absurd same returns
        rw [List.singleton_append, List.singleton_append, step, step]
        rfl
    | cons d more =>
      have step (after : Text) : splitLines (c :: d :: more ++ after) =
          [] :: splitLines (d :: more ++ after) := by
        apply splitLines_cons_of_broken broken
        rintro others rfl same
        exact other more rfl (congrArg (· :: more) (List.head_eq_of_cons_eq same))
      rw [step, step, ih]
      rfl
  | case4 c more other whole last ih => exact tail (by simpa using whole) ih
  | case5 c more other whole line others split ih => exact tail (by simpa using whole) ih

theorem splitLines_flatMap {lines : List Text} (unbroken : ∀ line ∈ lines, Unbroken line) :
    splitLines (lines.flatMap (· ++ ['\n'])) = lines := by
  induction lines with
  | nil => rfl
  | cons line rest ih =>
    obtain ⟨first, others⟩ := List.forall_mem_cons.mp unbroken
    rw [List.flatMap_cons, List.append_assoc, List.singleton_append,
      splitLines_append_break first, ih others]

theorem splitLines_unifyLineEnds (text : Text) : splitLines (unifyLineEnds text) = splitLines text := by
  fun_induction unifyLineEnds text with
  | case1 => rfl
  | case2 rest ih =>
    rw [splitLines, splitLines, ih]
    · rfl
    · exact fun _ same => absurd same (by decide)
  | case3 c rest other ih =>
    by_cases returns : c = '\r'
    · subst returns
      rw [splitLines, splitLines, ih]
      · rfl
      · exact fun _ same => other _ same
      · exact fun _ same => absurd same (by decide)
    · have kept : (if c == '\r' then '\n' else c) = c := if_neg (by simpa using returns)
      rw [kept, splitLines, splitLines, ih]
      · exact fun _ same => absurd same returns
      · exact fun _ same => absurd same returns

end TwoPass.Text
