/-!
Sets of characters given by the ranges of their code points, in ascending order.
-/

namespace Conductor.Text

/-- Whether `n` lies in one of the ascending, disjoint ranges. -/
def inRanges (n : Nat) : List (Nat × Nat) → Bool
  | [] => false
  | (low, high) :: rest => low ≤ n && (n ≤ high || inRanges n rest)

end Conductor.Text
