/-!
# Character ranges

A property of characters is given by the ascending list of the ranges of code points that have
it. Membership is a scan that stops at the first range lying above the code point.
-/

set_option autoImplicit false

namespace NotebookLint.Text

/-- Whether `code` lies in one of the ranges, both ends of a range included. The ranges are
disjoint and ascend. -/
def inRanges (code : Nat) : List (Nat × Nat) → Bool
  | [] => false
  | (low, high) :: ranges =>
      if code < low then false
      else if code ≤ high then true
      else inRanges code ranges

end NotebookLint.Text
