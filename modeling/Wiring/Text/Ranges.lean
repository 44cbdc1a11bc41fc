/-!
# Sets of code points

A property of characters, as the ranges of the code points that have it.
-/

namespace Wiring.Text

/-- Ranges of code points in increasing order, both ends included. -/
abbrev Ranges := List (Nat × Nat)

/-- Some range contains the character. -/
def Ranges.contain (ranges : Ranges) (c : Char) : Bool :=
  ranges.any fun r => r.1 ≤ c.toNat && c.toNat ≤ r.2

end Wiring.Text
