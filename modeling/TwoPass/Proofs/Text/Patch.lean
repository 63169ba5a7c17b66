import TwoPass.Text.Basic

/-! Texts with some stretches replaced.

A patch names the stretch that it replaces and what stands there instead. Patches are applied from
left to right, with the offsets of the old text, and every character outside of them stays. -/

set_option autoImplicit false

namespace TwoPass.Text

structure Patch where
  start : Nat
  stop : Nat
  text : Text
  deriving DecidableEq, Repr

/-- The text from an offset on, the patches that concern it, and what they make of it. -/
inductive Patched : Nat → Text → List Patch → Text → Prop
  | nil {position : Nat} : Patched position [] [] []
  | same {position : Nat} {text result : Text} {patches : List Patch} (c : Char)
    (rest : Patched (position + 1) text patches result) :
    Patched position (c :: text) patches (c :: result)
  | patch {position : Nat} {text result : Text} {patches : List Patch} (old new : Text)
    (rest : Patched (position + old.length) text patches result) :
    Patched position (old ++ text) (⟨position, position + old.length, new⟩ :: patches)
      (new ++ result)

namespace Patched

variable {position : Nat} {text result : Text} {patches : List Patch}

theorem refl (position : Nat) (text : Text) : Patched position text [] text := by
  induction text generalizing position with
  | nil => exact .nil
  | cons c rest ih => exact .same c (ih (position + 1))

theorem eq_self (patched : Patched position text [] result) : result = text := by
  generalize none' : ([] : List Patch) = patches at patched
  induction patched with
  | nil => rfl
  | same c rest ih => rw [ih none']
  | patch => cases none'

theorem append {front : Text} (rest : Patched (position + front.length) text patches result) :
    Patched position (front ++ text) patches (front ++ result) := by
  induction front generalizing position with
  | nil => exact rest
  | cons c more ih =>
    rw [List.length_cons, Nat.add_comm more.length 1, ← Nat.add_assoc] at rest
    exact .same c (ih rest)

end Patched

section
variable {text : Text} {start stop : Nat}

theorem take_append_slice (text : Text) (ordered : start ≤ stop) :
    text.take start ++ text.slice start stop = text.take stop := by
  have shorter : text.take start = (text.take stop).take start := by
    rw [List.take_take, Nat.min_eq_left ordered]
  rw [shorter, slice, List.take_append_drop]

theorem slice_append_drop (ordered : start ≤ stop) (within : stop ≤ text.length) :
    text.slice start stop ++ text.drop stop = text.drop start := by
  have inside : start ≤ (text.take stop).length := by
    rw [List.length_take]
    omega
  rw [slice, ← List.drop_append_of_le_length inside, List.take_append_drop]

theorem add_length_slice (ordered : start ≤ stop) (within : stop ≤ text.length) :
    start + (text.slice start stop).length = stop := by
  rw [slice, List.length_drop, List.length_take, Nat.min_eq_left within]
  omega

end

namespace Patched

variable {text result : Text} {patches : List Patch} {start stop : Nat}

theorem keep (ordered : start ≤ stop) (within : stop ≤ text.length)
    (rest : Patched stop (text.drop stop) patches result) :
    Patched start (text.drop start) patches (text.slice start stop ++ result) := by
  rw [← slice_append_drop ordered within]
  apply append
  rwa [add_length_slice ordered within]

theorem replace (new : Text) (ordered : start ≤ stop) (within : stop ≤ text.length)
    (rest : Patched stop (text.drop stop) patches result) :
    Patched start (text.drop start) (⟨start, stop, new⟩ :: patches) (new ++ result) := by
  have length := add_length_slice ordered within
  have patched : Patched start (text.slice start stop ++ text.drop stop)
      (⟨start, start + (text.slice start stop).length, new⟩ :: patches) (new ++ result) := by
    apply patch
    rwa [length]
  rwa [length, slice_append_drop ordered within] at patched

end Patched

end TwoPass.Text
