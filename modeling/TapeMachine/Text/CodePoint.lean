/-!
# Sets of code points

A property of characters is given as a list of ranges `(first, last)`, both ends included, in
ascending order.
-/

namespace TapeMachine.Text

/-- Whether a code point lies in one of several ascending ranges. -/
def inRanges (n : Nat) : List (Nat × Nat) → Bool
  | [] => false
  | (first, last) :: rest => if n < first then false else n ≤ last || inRanges n rest

end TapeMachine.Text
