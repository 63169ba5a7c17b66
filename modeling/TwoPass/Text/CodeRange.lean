import TwoPass.Text.Basic

/-! Sets of characters given as ranges of code points. -/

set_option autoImplicit false

namespace TwoPass.Text

def inRanges (ranges : List (Nat × Nat)) (c : Char) : Bool :=
  ranges.any fun (low, high) => low ≤ c.toNat && c.toNat ≤ high

end TwoPass.Text
