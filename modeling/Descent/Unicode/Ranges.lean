/-!
# Sets of code points

A property of characters is given by the ascending list of the code point ranges that have it.
-/

namespace Descent.Unicode

/-- Inclusive ranges of code points, ascending and apart from one another. -/
abbrev Ranges := List (Nat × Nat)

/-- Whether a code point lies in one of the ranges. The search ends at the first range that
begins above the code point, because all later ones do too. -/
def Ranges.contains : Ranges → Nat → Bool
  | [], _ => false
  | (low, high) :: rest, n => if n < low then false else n ≤ high || contains rest n

end Descent.Unicode
