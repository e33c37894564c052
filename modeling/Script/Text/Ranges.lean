/-!
# Sets of characters as ranges

A property of characters is given as ascending, disjoint ranges of code
points. Membership stops at the first range that lies above the code point,
which loses nothing because the ranges ascend.
-/

set_option autoImplicit false

namespace Script.Text

/-- Whether a code point lies in one of the ranges, which ascend. -/
def inRanges (code : Nat) : List (Nat × Nat) → Bool
  | [] => false
  | (low, high) :: rest =>
    if code < low then false else code ≤ high || inRanges code rest

end Script.Text
