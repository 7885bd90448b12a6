/-!
# Rounding a quotient to the nearest integer

A quotient that lies halfway between two integers goes to the even one or, in
the second form, to the larger one.
-/

namespace HttpBinding.Number

/-- The integer nearest to `num / den`; a half goes to the even neighbour. -/
def nearestEven (num den : Nat) : Nat :=
  let floor := num / den
  let rest := num % den
  if den < 2 * rest || (den == 2 * rest && floor % 2 == 1) then floor + 1 else floor

/-- The integer nearest to `num / den`; a half goes up. -/
def nearestUp (num den : Nat) : Nat :=
  if den ≤ 2 * (num % den) then num / den + 1 else num / den

theorem nearestEven_ge_floor (num den : Nat) : num / den ≤ nearestEven num den := by
  simp only [nearestEven]
  split <;> omega

theorem nearestEven_le_floor_succ (num den : Nat) : nearestEven num den ≤ num / den + 1 := by
  simp only [nearestEven]
  split <;> omega

end HttpBinding.Number
