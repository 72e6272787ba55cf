/-!
# Ranges of code points

A character property from a standard is a table of inclusive ranges of code points.
-/

namespace Expectation

/-- Inclusive ranges of code points. -/
abbrev CodeRanges := List (Nat × Nat)

/-- Some range holds the character's code point. -/
def CodeRanges.holds (ranges : CodeRanges) (c : Char) : Bool :=
  ranges.any fun range => range.1 ≤ c.toNat && c.toNat ≤ range.2

end Expectation
