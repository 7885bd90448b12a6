import HttpBinding.Number.Quantity
import Mathlib.Tactic.Ring

/-!
# Powers of three halves

The power `1.5 ^ n` is finite in binary64 up to `n = 1750`, and every later one is
beyond all finite numbers. The bound is the number of attempts after which a
wait that grows by a half each time can no longer be computed.
-/

namespace HttpBinding.Binary64

/-- The last exponent whose power of three halves is finite. -/
def lastGrowth : Nat := 1750

/-- The number of the last step between finite magnitudes: it is `2 ^ lastStep` units wide. -/
def lastStep : Nat := 2045

/-- The magnitude of the last finite power, in whole units. -/
theorem units_lastGrowth_lt :
    Nat.pow 3 lastGrowth * unitsInOne / 1 <<< lastGrowth < (2 ^ 53 - 1) * 2 ^ lastStep := by
  decide +kernel

/-- The magnitude of the next power, in whole units. -/
theorem le_units_succ_lastGrowth :
    2 ^ 52 * 2 ^ (lastStep + 1) ≤
      Nat.pow 3 (lastGrowth + 1) * unitsInOne / 1 <<< (lastGrowth + 1) := by
  decide +kernel

theorem units_growth_le {m n : Nat} (hn : n ≤ m) :
    Nat.pow 3 n * unitsInOne / 1 <<< n ≤ Nat.pow 3 m * unitsInOne / 1 <<< m := by
  obtain ⟨d, rfl⟩ := Nat.exists_eq_add_of_le hn
  have hpos : 0 < 2 ^ n * 2 ^ d := Nat.mul_pos (Nat.two_pow_pos n) (Nat.two_pow_pos d)
  rw [Nat.one_shiftLeft, Nat.one_shiftLeft, Nat.pow_add 2 n d, Nat.le_div_iff_mul_le hpos]
  have hfloor : Nat.pow 3 n * unitsInOne / 2 ^ n * 2 ^ n ≤ Nat.pow 3 n * unitsInOne :=
    Nat.div_mul_le_self _ _
  have hgrow : 2 ^ d ≤ 3 ^ d := Nat.pow_le_pow_left (by decide) d
  calc Nat.pow 3 n * unitsInOne / 2 ^ n * (2 ^ n * 2 ^ d)
      = Nat.pow 3 n * unitsInOne / 2 ^ n * 2 ^ n * 2 ^ d := by ring
    _ ≤ Nat.pow 3 n * unitsInOne * 3 ^ d := Nat.mul_le_mul hfloor hgrow
    _ = Nat.pow 3 (n + d) * unitsInOne := by
        rw [show Nat.pow 3 (n + d) = 3 ^ n * 3 ^ d from Nat.pow_add 3 n d]
        change 3 ^ n * unitsInOne * 3 ^ d = _
        ring

/-! ## Rounding -/

theorem le_nearestUp (num den : Nat) : num / den ≤ Number.nearestUp num den := by
  unfold Number.nearestUp
  split <;> omega

/-- Rounding a half up goes at most to the next integer. -/
theorem nearestUp_le (num den : Nat) : Number.nearestUp num den ≤ num / den + 1 := by
  unfold Number.nearestUp
  split <;> omega

/-- The step between the magnitudes near a number of units, as a power of two. -/
theorem stepLog_le {whole step : Nat} (hwhole : whole < 2 ^ 53 * 2 ^ step) :
    whole.log2 - 52 ≤ step := by
  by_cases hzero : whole = 0
  · rw [hzero, Nat.log2_zero]
    exact Nat.zero_le _
  · rw [← Nat.pow_add] at hwhole
    have hlog : whole.log2 < 53 + step := (Nat.log2_lt hzero).mpr hwhole
    omega

/-- Counted in steps, a number of units has at most 53 binary digits. -/
theorem div_step_lt (whole : Nat) : whole / 2 ^ (whole.log2 - 52) < 2 ^ 53 := by
  rw [Nat.div_lt_iff_lt_mul (Nat.two_pow_pos (whole.log2 - 52)), ← Nat.pow_add]
  have hlog : whole < 2 ^ (whole.log2 + 1) := Nat.lt_log2_self
  exact Nat.lt_of_lt_of_le hlog (Nat.pow_le_pow_right (by decide) (by omega))

/-- Beyond the first step it has 53 of them. -/
theorem le_div_step {whole : Nat} (hlog : 52 ≤ whole.log2) :
    2 ^ 52 ≤ whole / 2 ^ (whole.log2 - 52) := by
  have hpos : whole ≠ 0 := by
    rintro rfl
    rw [Nat.log2_zero] at hlog
    omega
  rw [Nat.le_div_iff_mul_le (Nat.two_pow_pos _), ← Nat.pow_add, Nat.add_sub_cancel' hlog]
  exact Nat.log2_self_le hpos

/-- Magnitudes below the middle of the last step round to finite codes. -/
theorem nearestCodeBy_lt {num den step : Nat} (hlast : step ≤ lastStep)
    (hunits : num / den < (2 ^ 53 - 1) * 2 ^ step) :
    nearestCodeBy Number.nearestUp num den < infinityCode := by
  have hround := nearestUp_le num (den <<< ((num / den).log2 - 52))
  have hdigits := div_step_lt (num / den)
  have htop : num / den / 2 ^ step < 2 ^ 53 - 1 :=
    (Nat.div_lt_iff_lt_mul (Nat.two_pow_pos step)).mpr hunits
  have hstep : (num / den).log2 - 52 ≤ step :=
    stepLog_le (Nat.lt_of_lt_of_le hunits
      (Nat.mul_le_mul_right (2 ^ step) (Nat.sub_le (2 ^ 53) 1)))
  refine Nat.lt_of_le_of_lt (Nat.min_le_right _ _) ?_
  rw [Nat.shiftLeft_eq, ← Nat.div_div_eq_div_mul] at hround
  rw [Nat.shiftLeft_eq]
  unfold lastStep at hlast
  unfold infinityCode codesPerStep
  rcases Nat.lt_or_eq_of_le hstep with hinner | hend
  · -- below the last step even a carry into the next one is finite
    omega
  · rw [hend] at hround ⊢
    omega

/-- Magnitudes of a step beyond the last one round to infinity. -/
theorem le_nearestCodeBy {num den step : Nat} (hlast : lastStep < step)
    (hunits : 2 ^ 52 * 2 ^ step ≤ num / den) :
    infinityCode ≤ nearestCodeBy Number.nearestUp num den := by
  rw [← Nat.pow_add] at hunits
  have hpos : num / den ≠ 0 :=
    Nat.ne_of_gt (Nat.lt_of_lt_of_le (Nat.two_pow_pos (52 + step)) hunits)
  have hlog : 52 + step ≤ (num / den).log2 := (Nat.le_log2 hpos).mpr hunits
  have hround := le_nearestUp num (den <<< ((num / den).log2 - 52))
  rw [Nat.shiftLeft_eq, ← Nat.div_div_eq_div_mul] at hround
  -- Counted in its own step the number has 53 digits, so that the step alone decides.
  have hdigits := le_div_step (Nat.le_of_add_right_le hlog)
  refine Nat.le_min.mpr ⟨Nat.le_refl _, ?_⟩
  rw [Nat.shiftLeft_eq]
  unfold lastStep at hlast
  unfold infinityCode codesPerStep
  omega

/-! ## Powers -/

/-- Powers are finite up to the last one, and from then on they are not. -/
theorem powThreeHalves?_isSome_iff (n : Nat) :
    (powThreeHalves? n).isSome = true ↔ n ≤ lastGrowth := by
  unfold powThreeHalves?
  rcases Nat.lt_or_ge lastGrowth n with hbeyond | hn
  · have hinfinite := le_nearestCodeBy (Nat.lt_add_one lastStep)
      (Nat.le_trans le_units_succ_lastGrowth (units_growth_le hbeyond))
    rw [dif_neg (Nat.not_lt.mpr hinfinite)]
    exact iff_of_false Bool.false_ne_true (Nat.not_le.mpr hbeyond)
  · have hfinite := nearestCodeBy_lt (Nat.le_refl lastStep)
      (Nat.lt_of_le_of_lt (units_growth_le hn) units_lastGrowth_lt)
    rw [dif_pos hfinite]
    exact iff_of_true rfl hn

end HttpBinding.Binary64
