import HttpBinding.Number.Quantity
import Mathlib

/-!
# The order of numbers of all kinds

Truth values, whole numbers and binary64 numbers are compared by three ways of comparing,
but there is one order behind them. Every number that is not undefined has a place: its
exact number of units, or one of the two ends for an infinity. Comparing two numbers is
comparing their places, so that the smaller and the greater of two stand at the smaller and
the greater of their places, whatever their kinds are.
-/

namespace HttpBinding

/-- The places of numbers: a number of units, or one of the ends before and behind them all. -/
abbrev NumberPlace := WithBot (WithTop Int)

/-- The place of a number of units. -/
def NumberPlace.ofUnits (units : Int) : NumberPlace :=
  (units : WithTop Int)

theorem NumberPlace.ofUnits_strictMono : StrictMono NumberPlace.ofUnits := fun _ _ hlt =>
  WithBot.coe_lt_coe.mpr (WithTop.coe_lt_coe.mpr hlt)

namespace Binary64

/-! ## Magnitudes -/

/-- Of two codes the greater one has the greater magnitude. -/
theorem unitsOf_lt_succ (code : Nat) : unitsOf code < unitsOf (code + 1) := by
  unfold unitsOf
  rw [Nat.shiftLeft_eq, Nat.shiftLeft_eq]
  unfold codesPerStep
  by_cases hfirst : code + 1 < 0x10000000000000
  · rw [if_pos (by omega), if_pos hfirst]
    exact Nat.lt_succ_self code
  rw [if_neg hfirst]
  by_cases hlast : code < 0x10000000000000
  · obtain rfl : code = 0x10000000000000 - 1 := by omega
    decide
  rw [if_neg hlast]
  have hpos : 0 < 2 ^ (code / 0x10000000000000 - 1) := Nat.two_pow_pos _
  by_cases hcarry : code % 0x10000000000000 + 1 = 0x10000000000000
  · -- The next code begins a step of twice the width.
    have hexponent : (code + 1) / 0x10000000000000 - 1 = code / 0x10000000000000 - 1 + 1 := by omega
    have hrest : (code + 1) % 0x10000000000000 = 0 := by omega
    rw [hexponent, hrest, Nat.pow_succ, Nat.mul_comm (2 ^ _) 2, ← Nat.mul_assoc]
    exact Nat.mul_lt_mul_of_pos_right (by omega) hpos
  · have hexponent : (code + 1) / 0x10000000000000 = code / 0x10000000000000 := by omega
    have hrest : (code + 1) % 0x10000000000000 = code % 0x10000000000000 + 1 := by omega
    rw [hexponent, hrest]
    exact Nat.mul_lt_mul_of_pos_right (by omega) hpos

theorem unitsOf_strictMono : StrictMono unitsOf :=
  strictMono_nat_of_lt_succ unitsOf_lt_succ

/-! ## Places -/

/-- The units of the finite number of a rank. -/
def unitsAt (rank : Int) : Int :=
  units (rank < 0) rank.natAbs

/-- Where the number of a rank stands among all numbers. -/
def placeAt (rank : Int) : NumberPlace :=
  if rank = infinityCode then ⊤ else if rank = -infinityCode then ⊥ else .ofUnits (unitsAt rank)

theorem unitsAt_strictMono : StrictMono unitsAt := by
  intro a b hlt
  have hpositive : ∀ {n : Nat}, 0 < n → 0 < unitsOf n := fun hn => unitsOf_strictMono hn
  unfold unitsAt units
  simp only [decide_eq_true_eq]
  rcases Int.lt_or_le a 0 with ha | ha
  · rw [if_pos ha]
    have hmagnitude := hpositive (Int.natAbs_pos.mpr (Int.ne_of_lt ha))
    split
    next hb =>
      have hless : unitsOf b.natAbs < unitsOf a.natAbs := unitsOf_strictMono (by omega)
      omega
    next => omega
  · rw [if_neg (by omega), if_neg (by omega)]
    exact_mod_cast unitsOf_strictMono (show a.natAbs < b.natAbs by omega)

theorem placeAt_lt {a b : Int} (hlow : -infinityCode ≤ a) (hlt : a < b) (hhigh : b ≤ infinityCode) :
    placeAt a < placeAt b := by
  unfold placeAt
  rw [if_neg (by omega)]
  by_cases ha : a = -infinityCode
  · rw [if_pos ha, if_neg (by omega : b ≠ -infinityCode)]
    split
    · exact bot_lt_top
    · exact WithBot.bot_lt_coe _
  · rw [if_neg ha]
    by_cases hb : b = infinityCode
    · rw [if_pos hb]
      exact WithBot.coe_lt_coe.mpr (WithTop.coe_lt_top _)
    · rw [if_neg hb, if_neg (by omega)]
      exact NumberPlace.ofUnits_strictMono (unitsAt_strictMono hlt)

theorem placeAt_le {a b : Int} (hlow : -infinityCode ≤ a) (hle : a ≤ b) (hhigh : b ≤ infinityCode) :
    placeAt a ≤ placeAt b := by
  rcases Int.lt_or_eq_of_le hle with hlt | rfl
  · exact (placeAt_lt hlow hlt hhigh).le
  · exact le_refl _

theorem rank?_bounds {x : Binary64} {rank : Int} (hrank : x.rank? = some rank) :
    -infinityCode ≤ rank ∧ rank ≤ infinityCode := by
  cases x with
  | nan => cases hrank
  | signed negative code hcode =>
      obtain rfl := Option.some.inj hrank
      split <;> omega

/-- A finite number stands at its units. -/
theorem placeAt_of_finite {negative : Bool} {code : Nat} (hcode : code < infinityCode) :
    placeAt (if negative then -(code : Int) else code) = .ofUnits (units negative code) := by
  have hhigh : (if negative then -(code : Int) else code) ≠ infinityCode := by split <;> omega
  have hlow : (if negative then -(code : Int) else code) ≠ -infinityCode := by split <;> omega
  unfold placeAt
  rw [if_neg hhigh, if_neg hlow]
  congr 1
  unfold unitsAt
  cases negative with
  | false => rw [if_neg Bool.false_ne_true, Int.natAbs_natCast, decide_eq_false (by omega)]
  | true =>
      cases code with
      | zero => rfl
      | succ code => rw [if_pos rfl, Int.natAbs_neg, Int.natAbs_natCast, decide_eq_true (by omega)]

end Binary64

/-! ## Comparing -/

theorem compares_int (m n : Int) : (compare m n).Compares m n := by
  rcases Int.lt_trichotomy m n with hlt | heq | hgt
  · rw [Int.compare_eq_lt.mpr hlt]
    exact hlt
  · rw [Int.compare_eq_eq.mpr heq]
    exact heq
  · rw [Int.compare_eq_gt.mpr hgt]
    exact hgt

theorem compares_map {α β : Type} [Preorder α] [Preorder β] {f : α → β} (hf : StrictMono f) {m n : α}
    {order : Ordering} (horder : order.Compares m n) : order.Compares (f m) (f n) := by
  cases order with
  | lt => exact hf horder
  | eq => exact congrArg f horder
  | gt => exact hf horder

namespace Quantity

/-- The place of a whole number. -/
def placeOfWhole (n : Int) : NumberPlace :=
  .ofUnits (n * Binary64.unitsInOne)

/-- Where a number stands among the numbers of all kinds; an undefined one has no place. -/
def place? : Quantity → Option NumberPlace
  | truth b => some (placeOfWhole (ofTruth b))
  | whole n => some (placeOfWhole n)
  | real x => x.rank?.map Binary64.placeAt

variable {a b : Quantity} {x y : NumberPlace}

theorem placeOfWhole_strictMono : StrictMono placeOfWhole := fun _ _ hlt =>
  NumberPlace.ofUnits_strictMono (Int.mul_lt_mul_of_pos_right hlt (by decide +kernel))

theorem placeAt_zero : Binary64.placeAt 0 = placeOfWhole 0 := by
  have hhigh : (0 : Int) ≠ Binary64.infinityCode := by decide
  have hlow : (0 : Int) ≠ -Binary64.infinityCode := by decide
  unfold Binary64.placeAt placeOfWhole
  rw [if_neg hhigh, if_neg hlow, Int.zero_mul]
  rfl

theorem compareInt_compares {r : Binary64} (hr : (real r).place? = some x) (n : Int) :
    ∃ order, r.compareInt n = some order ∧ order.Compares x (placeOfWhole n) := by
  cases r with
  | nan => cases hr
  | signed negative code hcode =>
      obtain rfl := Option.some.inj hr
      unfold Binary64.compareInt
      dsimp only
      by_cases hinfinite : code = Binary64.infinityCode
      · rw [if_pos hinfinite]
        subst hinfinite
        cases negative with
        | false => exact ⟨.gt, rfl, WithBot.coe_lt_coe.mpr (WithTop.coe_lt_top _)⟩
        | true => exact ⟨.lt, rfl, WithBot.bot_lt_coe _⟩
      · rw [if_neg hinfinite, Binary64.placeAt_of_finite (by omega)]
        exact ⟨_, rfl, compares_map NumberPlace.ofUnits_strictMono (compares_int _ _)⟩

theorem compareWhole_compares {n : Int} (hb : b.place? = some y) :
    ∃ order, compareWhole n b = some order ∧ order.Compares (placeOfWhole n) y := by
  cases b with
  | truth t =>
      obtain rfl := Option.some.inj hb
      exact ⟨_, rfl, compares_map placeOfWhole_strictMono (compares_int _ _)⟩
  | whole m =>
      obtain rfl := Option.some.inj hb
      exact ⟨_, rfl, compares_map placeOfWhole_strictMono (compares_int _ _)⟩
  | real r =>
      obtain ⟨order, horder, hcompares⟩ := compareInt_compares hb n
      refine ⟨order.swap, ?_, Ordering.compares_swap.mpr hcompares⟩
      exact congrArg (Option.map Ordering.swap) horder

theorem compares_rank {r s : Binary64} (hr : (real r).place? = some x) (hs : (real s).place? = some y) :
    ∃ order, compareReal r (real s) = some order ∧ order.Compares x y := by
  obtain ⟨rank, hrank, rfl⟩ := Option.map_eq_some_iff.mp hr
  obtain ⟨rank', hrank', rfl⟩ := Option.map_eq_some_iff.mp hs
  obtain ⟨hlow, hhigh⟩ := Binary64.rank?_bounds hrank
  obtain ⟨hlow', hhigh'⟩ := Binary64.rank?_bounds hrank'
  refine ⟨compare rank rank', ?_, ?_⟩
  · unfold compareReal
    dsimp only
    rw [hrank, hrank']
  · have hcompares := compares_int rank rank'
    cases horder : compare rank rank' with
    | lt =>
        rw [horder] at hcompares
        exact Binary64.placeAt_lt hlow hcompares hhigh'
    | eq =>
        rw [horder] at hcompares
        exact congrArg Binary64.placeAt hcompares
    | gt =>
        rw [horder] at hcompares
        exact Binary64.placeAt_lt hlow' hcompares hhigh

/-- Numbers of all kinds are compared by their places. -/
theorem compare?_compares (ha : a.place? = some x) (hb : b.place? = some y) :
    ∃ order, a.compare? b = some order ∧ order.Compares x y := by
  cases a with
  | truth t =>
      obtain rfl := Option.some.inj ha
      exact compareWhole_compares hb
  | whole n =>
      obtain rfl := Option.some.inj ha
      exact compareWhole_compares hb
  | real r =>
      cases b with
      | truth t =>
          obtain rfl := Option.some.inj hb
          exact compareInt_compares ha _
      | whole n =>
          obtain rfl := Option.some.inj hb
          exact compareInt_compares ha _
      | real s => exact compares_rank ha hb

theorem lt_iff (ha : a.place? = some x) (hb : b.place? = some y) : a.lt b = true ↔ x < y := by
  obtain ⟨order, horder, hcompares⟩ := compare?_compares ha hb
  rw [← hcompares.eq_lt, lt, horder]
  simp

theorem le_iff (ha : a.place? = some x) (hb : b.place? = some y) : a.le b = true ↔ x ≤ y := by
  obtain ⟨order, horder, hcompares⟩ := compare?_compares ha hb
  rw [← hcompares.ne_gt, le, horder]
  simp

/-- What another number is at most has a place, which is not before that one. -/
theorem exists_place_of_le (ha : a.place? = some x) (hle : a.le b = true) :
    ∃ y, b.place? = some y ∧ x ≤ y := by
  cases hb : b.place? with
  | some y => exact ⟨y, rfl, (le_iff ha hb).mp hle⟩
  | none =>
      have hnone : a.compare? b = none := by
        match b, hb with
        | real .nan, _ =>
          cases a with
          | truth t => rfl
          | whole n => rfl
          | real r => cases r <;> rfl
      rw [le, hnone] at hle
      cases hle

/-- The smaller of two numbers stands at the smaller of their places. -/
theorem place?_least (ha : a.place? = some x) (hb : b.place? = some y) :
    (a.least b).place? = some (min x y) := by
  unfold least
  split
  next hlt => rw [hb, min_eq_right ((lt_iff hb ha).mp hlt).le]
  next hlt => rw [ha, min_eq_left (not_lt.mp (mt (lt_iff hb ha).mpr hlt))]

/-- The greater of two numbers stands at the greater of their places. -/
theorem place?_greatest (ha : a.place? = some x) (hb : b.place? = some y) :
    (a.greatest b).place? = some (max x y) := by
  unfold greatest
  split
  next hlt => rw [hb, max_eq_right ((lt_iff ha hb).mp hlt).le]
  next hlt => rw [ha, max_eq_left (not_lt.mp (mt (lt_iff ha hb).mpr hlt))]

end Quantity

end HttpBinding
