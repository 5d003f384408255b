/-
Sets of characters written as ranges of code points, the form in which
Unicode properties are published.
-/

namespace RelAlgebra.Text

/-- A set of characters, as ascending and disjoint ranges of code
points, both ends included. -/
structure CharSet where
  ranges : List (Nat × Nat)

/-- Membership: some range covers the character. -/
def CharSet.contains (set : CharSet) (c : Char) : Bool :=
  set.ranges.any fun range => range.1 ≤ c.toNat && c.toNat ≤ range.2

end RelAlgebra.Text
