import TwoPass.Text.Order

/-! How alike two texts are, for suggesting the name that was meant.

Two texts are compared by their longest common run of characters, then the parts to its left and
the parts to its right in the same way. The share of characters covered by the runs found is the
similarity, a fraction between 0 and 1. -/

set_option autoImplicit false

namespace TwoPass.Text.Similarity

/-- A run of `size` characters common to two texts, at offset `left` of one and `right` of the other. -/
structure Run where
  left : Nat
  right : Nat
  size : Nat
  deriving DecidableEq, Repr

/-- The lengths of the common runs ending at one character of the left text and at each character
of the right text, from the lengths for the character before it. Characters that `ignored` holds of
begin or continue no run. -/
def runsEndingAt (ignored : Char → Bool) (c : Char) (right : Text) (before : List Nat) : List Nat :=
  if ignored c then right.map fun _ => 0
  else (right.zip (0 :: before)).map fun (d, length) => if c == d then length + 1 else 0

/-- The better of a run found so far and the run of length `size` that ends at the given characters;
the earlier one stays unless the later is longer. -/
def Run.improve (best : Run) (left right size : Nat) : Run :=
  if best.size < size then ⟨left + 1 - size, right + 1 - size, size⟩ else best

/-- The longest common run without ignored characters, the leftmost of those of equal length. -/
def longestRun (ignored : Char → Bool) (left right : Text) : Run :=
  let step := fun (state : Run × List Nat) (entry : Char × Nat) =>
    let row := runsEndingAt ignored entry.1 right state.2
    (row.zipIdx.foldl (fun best (size, j) => best.improve entry.2 j size) state.1, row)
  (left.zipIdx.foldl step (⟨0, 0, 0⟩, right.map fun _ => 0)).1

def sharedStart : Text → Text → Nat
  | c :: left, d :: right => if c == d then sharedStart left right + 1 else 0
  | _, _ => 0

/-- Lengthens a run to both sides over equal characters, ignored ones included. -/
def Run.extend (run : Run) (left right : Text) : Run :=
  let back := sharedStart (left.take run.left).reverse (right.take run.right).reverse
  let ahead := sharedStart (left.drop (run.left + run.size)) (right.drop (run.right + run.size))
  ⟨run.left - back, run.right - back, run.size + back + ahead⟩

/-- The number of characters covered by common runs. Each run shortens both remaining parts, so
`room` for as many runs as the left text has characters suffices. -/
def coveredWithin (ignored : Char → Bool) : Nat → Text → Text → Nat
  | 0, _, _ => 0
  | room + 1, left, right =>
    let run := (longestRun ignored left right).extend left right
    if run.size == 0 then 0
    else
      run.size + coveredWithin ignored room (left.take run.left) (right.take run.right) +
        coveredWithin ignored room (left.drop (run.left + run.size))
          (right.drop (run.right + run.size))

/-- In a text of 200 characters or more, a character that makes up over one percent of it says
little: it can extend a run but not begin one. -/
def isCommonplace (text : Text) (c : Char) : Bool :=
  200 ≤ text.length && text.length / 100 + 1 < text.count c

structure Ratio where
  part : Nat
  whole : Nat
  deriving DecidableEq, Repr

def Ratio.le (a b : Ratio) : Bool := a.part * b.whole ≤ b.part * a.whole

def ratio (candidate word : Text) : Ratio :=
  let whole := candidate.length + word.length
  if whole == 0 then ⟨1, 1⟩
  else ⟨2 * coveredWithin (isCommonplace word) candidate.length candidate word, whole⟩

/-- The least similarity at which a name is worth suggesting: three fifths. -/
def threshold : Ratio := ⟨3, 5⟩

/-- Whether the first of two rated names is to be suggested before the second: the more similar
one, and of two equally similar ones the later in the order of texts. -/
def before (a b : Ratio × Text) : Bool :=
  if a.1.le b.1 && b.1.le a.1 then b.2.le a.2 else b.1.le a.1

def closest (word : Text) (names : List Text) : List Text :=
  let rated := names.map fun name => (ratio name word, name)
  let near := rated.filter fun entry => threshold.le entry.1
  ((near.mergeSort before).take 3).map Prod.snd

end TwoPass.Text.Similarity
