/-!
# Classes of characters by code point

A class that a standard lists is kept as the ranges of its code points, in increasing order, both
ends of a range included.
-/

namespace Kei.Text

abbrev Ranges := List (Nat × Nat)

/-- Whether a character lies in one of the ranges. -/
def Ranges.has (ranges : Ranges) (c : Char) : Bool :=
  ranges.any fun r => r.1 ≤ c.toNat && c.toNat ≤ r.2

end Kei.Text
