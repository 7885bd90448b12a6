/-!
# Sets of characters as code ranges

The Unicode properties this library depends on are unions of intervals of code
points. A set is kept as the list of its intervals, each with both ends
included, in increasing order.
-/

namespace HttpBinding

/-- Intervals of code points, ends included. -/
abbrev CodeRanges := List (Nat × Nat)

/-- Whether one of the intervals holds the character. -/
def CodeRanges.holds (ranges : CodeRanges) (c : Char) : Bool :=
  ranges.any fun range => range.1 ≤ c.toNat && c.toNat ≤ range.2

theorem CodeRanges.holds_iff (ranges : CodeRanges) (c : Char) :
    ranges.holds c = true ↔ ∃ range ∈ ranges, range.1 ≤ c.toNat ∧ c.toNat ≤ range.2 := by
  simp [CodeRanges.holds]

end HttpBinding
