import HttpBinding.Proofs.Number.Growth
import HttpBinding.Proofs.Number.Order

/-!
# Rounding keeps the order

Rounding to the nearest code goes from a smaller number of units to a code that is no greater,
however halves are rounded: within a step the rounding of quotients decides, and numbers of
different steps keep the step between them. So powers of three halves do not decrease, and a
number that is not negative does not get smaller when it is multiplied by a later one of them.
-/

namespace HttpBinding

namespace Number

/-- A way of rounding quotients to one of the two integers around them that keeps their order. -/
structure IsRounding (round : Nat → Nat → Nat) : Prop where
  floor_le : ∀ num den, num / den ≤ round num den
  le_succ : ∀ num den, round num den ≤ num / den + 1
  mono : ∀ den, Monotone fun num => round num den

theorem isRounding_nearestUp : IsRounding nearestUp where
  floor_le := Binary64.le_nearestUp
  le_succ := Binary64.nearestUp_le
  mono den num num' hle := by
    have hfloor := Nat.div_le_div_right (c := den) hle
    have hnum := Nat.div_add_mod num den
    have hnum' := Nat.div_add_mod num' den
    dsimp only
    unfold nearestUp
    rcases Nat.lt_or_eq_of_le hfloor with hless | hsame
    · split <;> split <;> omega
    · rw [hsame] at hnum ⊢
      split <;> split <;> omega

theorem isRounding_nearestEven : IsRounding nearestEven where
  floor_le := nearestEven_ge_floor
  le_succ := nearestEven_le_floor_succ
  mono den num num' hle := by
    have hfloor := Nat.div_le_div_right (c := den) hle
    have hnum := Nat.div_add_mod num den
    have hnum' := Nat.div_add_mod num' den
    dsimp only
    unfold nearestEven
    simp only [Bool.or_eq_true, Bool.and_eq_true, decide_eq_true_eq, beq_iff_eq]
    rcases Nat.lt_or_eq_of_le hfloor with hless | hsame
    · split <;> split <;> omega
    · rw [hsame] at hnum ⊢
      split <;> split <;> omega

/-- Rounding depends on the quotient only. -/
theorem nearestUp_mul_right (num den : Nat) {k : Nat} (hk : 0 < k) :
    nearestUp (num * k) (den * k) = nearestUp num den := by
  unfold nearestUp
  rw [Nat.mul_mod_mul_right, Nat.mul_div_mul_right _ _ hk, ← Nat.mul_assoc]
  simp only [Nat.mul_le_mul_right_iff hk]

end Number

namespace Binary64

open Number

/-! ## Codes -/

/-- Codes of numbers of units are in the order of these numbers. -/
theorem nearestCodeBy_mono {round : Nat → Nat → Nat} (hround : IsRounding round) (den : Nat) :
    Monotone fun num => nearestCodeBy round num den := by
  intro num num' hle
  have hwhole : num / den ≤ num' / den := Nat.div_le_div_right hle
  have hbelow : num' / den < 2 ^ 53 * 2 ^ ((num' / den).log2 - 52) :=
    (Nat.div_lt_iff_lt_mul (Nat.two_pow_pos _)).mp (div_step_lt _)
  have hstep : (num / den).log2 - 52 ≤ (num' / den).log2 - 52 :=
    stepLog_le (Nat.lt_of_le_of_lt hwhole hbelow)
  refine min_le_min_left infinityCode ?_
  rcases Nat.lt_or_eq_of_le hstep with hless | hsame
  · -- The first number is at most the end of its step, which is the beginning of the next one.
    have hfirst := hround.le_succ num (den <<< ((num / den).log2 - 52))
    have hlast := hround.floor_le num' (den <<< ((num' / den).log2 - 52))
    have hdigits := div_step_lt (num / den)
    have hdigits' : 2 ^ 52 ≤ num' / den / 2 ^ ((num' / den).log2 - 52) := le_div_step (by omega)
    rw [Nat.shiftLeft_eq, ← Nat.div_div_eq_div_mul] at hfirst hlast
    rw [Nat.shiftLeft_eq, Nat.shiftLeft_eq]
    unfold codesPerStep
    omega
  · rw [hsame]
    exact Nat.add_le_add_right (hround.mono _ hle) _

/-! ## Powers -/

/-- The code of a power of three halves; from some power on it is that of infinity. -/
def growthCode (n : Nat) : Nat :=
  nearestCodeBy nearestUp (Nat.pow 3 n * unitsInOne) (1 <<< n)

theorem nearestCodeBy_mul_right (num den : Nat) {k : Nat} (hk : 0 < k) :
    nearestCodeBy nearestUp (num * k) (den * k) = nearestCodeBy nearestUp num den := by
  unfold nearestCodeBy
  rw [Nat.mul_div_mul_right _ _ hk]
  dsimp only
  rw [Nat.shiftLeft_eq, Nat.shiftLeft_eq, Nat.mul_right_comm, nearestUp_mul_right _ _ hk]

theorem growthCode_mono : Monotone growthCode := by
  intro n m hle
  obtain ⟨d, rfl⟩ := Nat.exists_eq_add_of_le hle
  have hpower : Nat.pow 3 n * unitsInOne * 2 ^ d ≤ Nat.pow 3 (n + d) * unitsInOne := by
    rw [show Nat.pow 3 (n + d) = Nat.pow 3 n * 3 ^ d from Nat.pow_add 3 n d, Nat.mul_right_comm]
    exact Nat.mul_le_mul_right _ (Nat.mul_le_mul_left _ (Nat.pow_le_pow_left (by decide) d))
  -- Both powers are brought to the denominator of the later one.
  unfold growthCode
  rw [← nearestCodeBy_mul_right _ _ (Nat.two_pow_pos d), Nat.one_shiftLeft, Nat.one_shiftLeft,
    ← Nat.pow_add]
  exact nearestCodeBy_mono isRounding_nearestUp _ hpower

theorem growthCode_pos (n : Nat) : 0 < growthCode n := by
  have hone : 0 < growthCode 0 := by decide +kernel
  exact Nat.lt_of_lt_of_le hone (growthCode_mono (Nat.zero_le n))

theorem powThreeHalves?_eq_some {n : Nat} {growth : Binary64} (hgrowth : powThreeHalves? n = some growth) :
    ∃ hcode, growth = .signed false (growthCode n) hcode ∧ growthCode n < infinityCode := by
  unfold powThreeHalves? at hgrowth
  dsimp only at hgrowth
  split at hgrowth
  next hfinite => exact ⟨Nat.le_of_lt hfinite, (Option.some.inj hgrowth).symm, hfinite⟩
  next => cases hgrowth

/-! ## Products -/

/-- The code of the product of two magnitudes, of which the second is finite and not zero. -/
def productCode (a g : Nat) : Nat :=
  if a = infinityCode then infinityCode else nearestCode (unitsOf a * unitsOf g) unitsInOne

theorem productCode_le (a g : Nat) : productCode a g ≤ infinityCode := by
  unfold productCode
  split
  · exact Nat.le_refl _
  · exact nearestCodeBy_le _ _ _

theorem productCode_mono (a : Nat) : Monotone (productCode a) := by
  intro g g' hle
  unfold productCode
  split
  · exact Nat.le_refl _
  · exact nearestCodeBy_mono isRounding_nearestEven _
      (Nat.mul_le_mul_left _ (unitsOf_strictMono.monotone hle))

theorem rank?_ofUnits (negative : Bool) (num den : Nat) :
    (ofUnits negative num den).rank? =
      some (if negative then -(nearestCode num den : Int) else nearestCode num den) := rfl

theorem mul_finite {sa sb : Bool} {a b : Nat} {ha : a ≤ infinityCode} {hb : b ≤ infinityCode}
    (hfinite : a ≠ infinityCode) (hfinite' : b ≠ infinityCode) :
    (signed sa a ha).mul (signed sb b hb) = ofUnits (sa != sb) (unitsOf a * unitsOf b) unitsInOne := by
  unfold mul
  dsimp only
  rw [decide_eq_false hfinite, decide_eq_false hfinite']
  rfl

theorem mul_infinite {sa sb : Bool} {a b : Nat} {ha : a ≤ infinityCode} {hb : b ≤ infinityCode}
    (hinfinite : a = infinityCode) (hpos : 0 < b) :
    (signed sa a ha).mul (signed sb b hb) = infinityOf (sa != sb) := by
  unfold mul
  dsimp only
  rw [decide_eq_true hinfinite, decide_eq_false (by omega : ¬ a = 0), decide_eq_false (by omega : ¬ b = 0)]
  rfl

/-- A number that is not negative, be it a zero of either sign or infinity, times a power. -/
theorem rank?_mul_growth {x growth : Binary64} {rank : Int} (hrank : x.rank? = some rank)
    (hnonneg : 0 ≤ rank) {n : Nat} (hgrowth : powThreeHalves? n = some growth) :
    (x.mul growth).rank? = some (productCode rank.natAbs (growthCode n) : Int) := by
  obtain ⟨hcode, rfl, hfinite⟩ := powThreeHalves?_eq_some hgrowth
  have hpos := growthCode_pos n
  cases x with
  | nan => cases hrank
  | signed negative code hle =>
      obtain rfl := Option.some.inj hrank
      cases negative with
      | false =>
          rw [if_neg Bool.false_ne_true, Int.natAbs_natCast]
          by_cases hinfinite : code = infinityCode
          · rw [mul_infinite hinfinite hpos, productCode, if_pos hinfinite]
            rfl
          · rw [mul_finite hinfinite (Nat.ne_of_lt hfinite), rank?_ofUnits, productCode, if_neg hinfinite]
            rfl
      | true =>
          obtain rfl : code = 0 := by
            rw [if_pos rfl] at hnonneg
            omega
          have hnone : nearestCode (unitsOf 0 * unitsOf (growthCode n)) unitsInOne = 0 := by
            rw [show unitsOf 0 = 0 from rfl, Nat.zero_mul]
            decide +kernel
          have hfinite' : 0 ≠ infinityCode := by omega
          rw [mul_finite hfinite' (Nat.ne_of_lt hfinite), rank?_ofUnits, hnone]
          change some 0 = some ((productCode 0 (growthCode n) : Nat) : Int)
          rw [productCode, if_neg hfinite', hnone]
          rfl

/-! ## Numbers brought to binary64 -/

theorem rank?_ofInt {n : Int} (hn : 0 ≤ n) :
    ∃ rank, (ofInt n).rank? = some rank ∧ 0 ≤ rank := by
  unfold ofInt ofRatio
  rw [rank?_ofUnits, decide_eq_false (Int.not_lt.mpr hn)]
  exact ⟨_, rfl, Int.natCast_nonneg _⟩

end Binary64

namespace Quantity

/-- A number that is not negative is none either when it is brought to binary64. -/
theorem rank?_of_toReal? {q : Quantity} {x : Binary64} (hreal : q.toReal? = some x)
    (hnonneg : (whole 0).le q = true) : ∃ rank, x.rank? = some rank ∧ 0 ≤ rank := by
  obtain ⟨place, hplace, hle⟩ := exists_place_of_le (a := whole 0) rfl hnonneg
  cases q with
  | truth t =>
      obtain rfl := Option.some.inj hreal
      exact Binary64.rank?_ofInt (by cases t <;> decide)
  | whole n =>
      obtain rfl := Option.some.inj hplace
      obtain ⟨-, rfl⟩ : _ ∧ Binary64.ofInt n = x := by
        simpa [toReal?, Binary64.ofInt?] using hreal
      exact Binary64.rank?_ofInt (placeOfWhole_strictMono.le_iff_le.mp hle)
  | real y =>
      obtain rfl := Option.some.inj hreal
      obtain ⟨rank, hrank, rfl⟩ := Option.map_eq_some_iff.mp hplace
      obtain ⟨hlow, -⟩ := Binary64.rank?_bounds hrank
      refine ⟨rank, hrank, Int.not_lt.mp fun hnegative => ?_⟩
      rw [← placeAt_zero] at hle
      exact absurd (Binary64.placeAt_lt hlow hnegative (by omega)) (not_lt.mpr hle)

end Quantity

end HttpBinding
