/-!
# Ranges of characters

A class of characters is a list of ranges of code points, both ends of which belong to it.
-/

namespace PowerShare

/-- The first and last code points of each part of a class. -/
abbrev CharRanges := List (Nat × Nat)

/-- Whether a character is in one of the ranges. -/
def CharRanges.has (ranges : CharRanges) (c : Char) : Bool :=
  ranges.any fun r => r.1 ≤ c.toNat && c.toNat ≤ r.2

end PowerShare
