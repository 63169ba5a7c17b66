import TwoPass.Text.Basic

/-! The order of texts: by the code point of the first character in which they differ, and a text
before its continuations. -/

set_option autoImplicit false

namespace TwoPass.Text

def le : Text → Text → Bool
  | [], _ => true
  | _ :: _, [] => false
  | c :: left, d :: right => c.toNat < d.toNat || (c == d && le left right)

theorem le_total (left right : Text) : (le left right || le right left) = true := by
  induction left generalizing right with
  | nil => rfl
  | cons c left ih =>
    cases right with
    | nil => rfl
    | cons d right =>
      by_cases same : c = d
      · subst same
        simpa [le] using ih right
      · have distinct : c.toNat ≠ d.toNat := fun equal => same (Char.toNat_inj.mp equal)
        rcases Nat.lt_or_gt_of_ne distinct with lower | higher
        · simp [le, lower]
        · simp [le, higher]

theorem le_antisymm {left right : Text} (forth : le left right = true)
    (back : le right left = true) : left = right := by
  induction left generalizing right with
  | nil =>
    cases right with
    | nil => rfl
    | cons d right => cases back
  | cons c left ih =>
    cases right with
    | nil => cases forth
    | cons d right =>
      simp only [le, Bool.or_eq_true, decide_eq_true_eq, Bool.and_eq_true, beq_iff_eq] at forth back
      rcases forth with lower | ⟨rfl, forth⟩
      · rcases back with higher | ⟨rfl, _⟩
        · omega
        · omega
      · rcases back with higher | ⟨_, back⟩
        · omega
        · rw [ih forth back]

theorem le_trans {first second third : Text} (forth : le first second = true)
    (further : le second third = true) : le first third = true := by
  induction first generalizing second third with
  | nil => rfl
  | cons c first ih =>
    cases second with
    | nil => cases forth
    | cons d second =>
      cases third with
      | nil => cases further
      | cons e third =>
        simp only [le, Bool.or_eq_true, decide_eq_true_eq, Bool.and_eq_true, beq_iff_eq]
          at forth further ⊢
        rcases forth with lower | ⟨rfl, forth⟩
        · rcases further with further | ⟨rfl, _⟩
          · exact .inl (by omega)
          · exact .inl lower
        · rcases further with further | ⟨rfl, further⟩
          · exact .inl further
          · exact .inr ⟨rfl, ih forth further⟩

end TwoPass.Text
