import TwoPass.Text.ControlSequence

/-! Texts of several lines.

Every line is part of the text. No control sequence goes on over the end of a line, so that lines can be
printed together or one by one. -/

set_option autoImplicit false

namespace TwoPass.Text

theorem lines_cons_cons (first second : Text) (rest : List Text) :
    lines (first :: second :: rest) = first ++ '\n' :: lines (second :: rest) := by
  simp [lines, join, List.intercalate]

theorem lines_cons_of_ne_nil (first : Text) {rest : List Text} (others : rest ≠ []) :
    lines (first :: rest) = first ++ '\n' :: lines rest := by
  obtain ⟨second, more, rfl⟩ := List.exists_cons_of_ne_nil others
  exact lines_cons_cons first second more

theorem infix_lines {part : Text} {parts : List Text} (member : part ∈ parts) :
    part <:+: lines parts := by
  induction parts with
  | nil => cases member
  | cons first rest ih =>
    cases rest with
    | nil =>
      cases List.mem_singleton.mp member
      simp [lines, join, List.intercalate]
    | cons second others =>
      rw [lines_cons_cons]
      rcases List.mem_cons.mp member with rfl | later
      · exact (List.prefix_append _ _).isInfix
      · -- the part stands behind the first one and the line feed
        exact (ih later).trans ((List.suffix_cons _ _).trans (List.suffix_append _ _)).isInfix

theorem sequenceLength_le (text : Text) : sequenceLength text ≤ text.length := by
  unfold sequenceLength
  split
  · next c rest =>
    split
    · split
      · exact Nat.zero_le _
      · next final more behind =>
        split
        · have whole := congrArg List.length
            (List.takeWhile_append_dropWhile (p := isSequenceParameter) (l := rest))
          rw [behind] at whole
          simp only [List.length_append, List.length_cons] at whole ⊢
          omega
        · exact Nat.zero_le _
    · exact Nat.zero_le _
  · exact Nat.zero_le _

/-- A line feed is no part of a sequence. -/
theorem sequenceLength_append (c : Char) (line rest : Text) :
    sequenceLength (c :: line ++ '\n' :: rest) = sequenceLength (c :: line) := by
  cases line with
  | nil => rfl
  | cons bracket line =>
    by_cases opening : bracket = '['
    · subst opening
      have feed : isSequenceParameter '\n' = false := by decide
      simp only [sequenceLength, List.cons_append, List.dropWhile_append, List.takeWhile_append,
        List.dropWhile_cons, List.takeWhile_cons, feed]
      cases behind : line.dropWhile isSequenceParameter with
      | nil => simp [show Char.isAlpha '\n' = false by decide]
      | cons final more =>
        have shorter : (line.takeWhile isSequenceParameter).length ≠ line.length := by
          have whole := congrArg List.length
            (List.takeWhile_append_dropWhile (p := isSequenceParameter) (l := line))
          rw [behind, List.length_append, List.length_cons] at whole
          omega
        simp [shorter]
    · simp [sequenceLength, opening]

theorem dropSequences_append {skipped : Nat} {line : Text} (inside : skipped ≤ line.length)
    (rest : Text) : dropSequences skipped (line ++ '\n' :: rest) =
      dropSequences skipped line ++ '\n' :: dropSequences 0 rest := by
  induction line generalizing skipped with
  | nil =>
    have none : skipped = 0 := by simpa using inside
    subst none
    have plain : sequenceLength ('\n' :: rest) = 0 := sequenceLength_of_ne (by decide) rest
    simp [dropSequences, plain]
  | cons c line ih =>
    have length := sequenceLength_append c line rest
    have most := sequenceLength_le (c :: line)
    rw [List.cons_append] at length ⊢
    rw [List.length_cons] at inside most
    cases skipped with
    | succ skipped =>
      simp only [dropSequences]
      exact ih (by omega)
    | zero =>
      cases met : sequenceLength (c :: line) with
      | succ more =>
        simp only [dropSequences, length, met]
        exact ih (by omega)
      | zero =>
        simp only [dropSequences, length, met, List.cons_append]
        rw [ih (Nat.zero_le _)]

theorem withoutSequences_lines (parts : List Text) :
    withoutSequences (lines parts) = lines (parts.map withoutSequences) := by
  induction parts with
  | nil => rfl
  | cons first rest ih =>
    cases rest with
    | nil => simp [lines, join, List.intercalate]
    | cons second others =>
      rw [lines_cons_cons, withoutSequences, dropSequences_append (Nat.zero_le _)]
      rw [List.map_cons, List.map_cons, lines_cons_cons, ← List.map_cons, ← ih]
      rfl

end TwoPass.Text
