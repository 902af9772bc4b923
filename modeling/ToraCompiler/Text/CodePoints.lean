/-!
# Sets of code points

A character class of the Unicode standard is a set of code points, written down as closed ranges in
ascending order.  The modules beside this one hold one class each.
-/

namespace ToraCompiler

/-- A set of code points, as closed ranges. -/
structure CodePoints where
  /-- The first and the last member of each range, in ascending order and apart. -/
  ranges : List (Nat × Nat)

/-- Whether the code point of `c` lies in one of the ranges. -/
def CodePoints.has (set : CodePoints) (c : Char) : Bool :=
  set.ranges.any fun range => range.1 ≤ c.toNat && c.toNat ≤ range.2

end ToraCompiler
