/-!
# Sets of code points as ascending ranges

A property of characters is given by a table of ranges of code points, both ends included, in
ascending order. `inRanges` looks a code point up and stops at the first range above it.
-/

namespace ExprTyping.Text

/-- Whether `n` lies in one of the ascending ranges. -/
def inRanges (n : Nat) : List (Nat × Nat) → Bool
  | [] => false
  | (lo, hi) :: rest =>
    if n < lo then false
    else if n ≤ hi then true
    else inRanges n rest

end ExprTyping.Text
