import HttpBinding.Proofs.Number.Growth
import HttpBinding.Retryer

/-!
# Decisions of a retry policy

A policy with growing waits decides every fault in one of two ways: while it has
attempts left it names the time to wait, and then it hands the fault back. The
wait depends on the settings, on the number of attempts so far and on the fault,
and not on the waits before. That it can be computed rests on three things: the
settings are numbers, the moments named by faults can be compared with the clock,
and the power that the wait grows with is finite.
-/

namespace HttpBinding

/-- A moment whose clock is known, so that it can be compared with the time of day. -/
def Moment.IsAware (m : Moment) : Prop :=
  m.offset.isSome = true

/-- A fault that names no moment, or one whose clock is known. -/
def Fault.IsTimely (fault : Fault) : Prop :=
  ∀ moment, fault.retryAfter = some moment → moment.IsAware

/-- A number that binary64 can hold. -/
def Quantity.IsReal (q : Quantity) : Prop :=
  q.toReal?.isSome = true

theorem Quantity.isReal_real (x : Binary64) : (Quantity.real x).IsReal := rfl

theorem Quantity.isReal_least {a b : Quantity} (ha : a.IsReal) (hb : b.IsReal) :
    (a.least b).IsReal := by
  unfold Quantity.least
  split
  · exact hb
  · exact ha

theorem Quantity.isReal_greatest {a b : Quantity} (ha : a.IsReal) (hb : b.IsReal) :
    (a.greatest b).IsReal := by
  unfold Quantity.greatest
  split
  · exact hb
  · exact ha

theorem Moment.since?_of_aware {later earlier : Moment} (hlater : later.IsAware)
    (hearlier : earlier.IsAware) : ∃ micros, later.since? earlier = some micros := by
  obtain ⟨a, ha⟩ := Option.isSome_iff_exists.mp hlater
  obtain ⟨b, hb⟩ := Option.isSome_iff_exists.mp hearlier
  unfold Moment.since?
  rw [ha, hb]
  exact ⟨_, rfl⟩

namespace Backoff

/-- A setting that is a number which binary64 can hold. -/
def IsNumeric (setting : Value) : Prop :=
  ∃ q : Quantity, setting.quantity? = some q ∧ q.IsReal

/-- A policy whose period and cap are numbers. -/
structure HasNumericWaits (b : Backoff) : Prop where
  period : IsNumeric b.period
  maxPeriod : IsNumeric b.maxPeriod

theorem numberOf_of_quantity? {setting : Value} {q : Quantity}
    (hq : setting.quantity? = some q) : numberOf setting = .ok q := by
  unfold numberOf
  rw [hq]

theorem realOf_of_toReal? {q : Quantity} {x : Binary64} (hx : q.toReal? = some x) : realOf q = .ok x := by
  unfold realOf
  rw [hx]

theorem realOf_of_isReal {q : Quantity} (hq : q.IsReal) : ∃ x, realOf q = .ok x := by
  obtain ⟨x, hx⟩ := Option.isSome_iff_exists.mp hq
  exact ⟨x, realOf_of_toReal? hx⟩

theorem secondsUntil_eq_ok {now moment : Moment} (hnow : now.IsAware) (hmoment : moment.IsAware) :
    ∃ micros, secondsUntil now moment = .ok (.ofQuotient micros 1000000) := by
  obtain ⟨micros, hmicros⟩ := Moment.since?_of_aware hmoment hnow
  refine ⟨micros, ?_⟩
  unfold secondsUntil
  rw [hmicros]

/-! ## Waits -/

theorem growth_eq_ok {b : Backoff} (hattempt : b.attempt ≤ Binary64.lastGrowth + 1) :
    ∃ growth, b.growth = .ok growth := by
  have hfinite : b.attempt - 1 ≤ Binary64.lastGrowth := Nat.sub_le_of_le_add hattempt
  obtain ⟨growth, hgrowth⟩ :=
    Option.isSome_iff_exists.mp ((Binary64.powThreeHalves?_isSome_iff _).mpr hfinite)
  refine ⟨growth, ?_⟩
  unfold Backoff.growth
  rw [hgrowth]
  rfl

theorem nextInterval_eq_ok {b : Backoff} (hnumeric : b.HasNumericWaits)
    (hattempt : b.attempt ≤ Binary64.lastGrowth + 1) :
    ∃ wait, b.nextInterval = .ok wait ∧ wait.IsReal := by
  obtain ⟨period, hperiod, hperiodReal⟩ := hnumeric.period
  obtain ⟨cap, hcap, hcapReal⟩ := hnumeric.maxPeriod
  obtain ⟨seconds, hseconds⟩ := realOf_of_isReal hperiodReal
  obtain ⟨growth, hgrowth⟩ := growth_eq_ok hattempt
  refine ⟨(Quantity.real (seconds.mul growth)).least cap, ?_,
    Quantity.isReal_least (Quantity.isReal_real _) hcapReal⟩
  rw [nextInterval, hgrowth, numberOf_of_quantity? hperiod, numberOf_of_quantity? hcap]
  change (realOf period).bind _ = _
  rw [hseconds]
  rfl

/-- Up to the last finite power of the growth, a policy can tell how long to wait. -/
theorem interval_eq_ok {b : Backoff} {now : Moment} {fault : Fault}
    (hnumeric : b.HasNumericWaits) (hattempt : b.attempt ≤ Binary64.lastGrowth + 1)
    (hnow : now.IsAware) (htimely : fault.IsTimely) :
    ∃ wait, b.interval now fault = .ok wait ∧ wait.IsReal := by
  unfold interval
  cases hmoment : fault.retryAfter with
  | none => exact nextInterval_eq_ok hnumeric hattempt
  | some moment =>
      obtain ⟨cap, hcap, hcapReal⟩ := hnumeric.maxPeriod
      obtain ⟨micros, hseconds⟩ := secondsUntil_eq_ok hnow (htimely moment hmoment)
      simp only [hseconds, numberOf_of_quantity? hcap, bind, Except.bind]
      exact ⟨_, rfl, Quantity.isReal_greatest (Quantity.isReal_real _)
        (Quantity.isReal_least (Quantity.isReal_real _) hcapReal)⟩

theorem waiting_eq_ok {b : Backoff} {wait : Quantity} (hreal : wait.IsReal) :
    ∃ slept, b.waiting wait = .ok { b with sleptFor := slept } := by
  obtain ⟨x, hx⟩ := realOf_of_isReal hreal
  refine ⟨b.sleptFor.add x, ?_⟩
  unfold waiting
  simp only [hx, bind, Except.bind]

/-! ## Decisions -/

variable {b : Backoff} {m : Nat}

theorem isExhausted_iff (hmax : b.maxAttempts = .whole m) : b.isExhausted = true ↔ m ≤ b.attempt := by
  -- Both are whole numbers, so that no rounding comes in between.
  have hle : (Quantity.whole m).le (.whole b.attempt) = decide (m ≤ b.attempt) := by
    change (compare (m : Int) (b.attempt : Int) != .gt) = _
    rcases Nat.lt_trichotomy m b.attempt with hlt | heq | hgt
    · rw [Int.compare_eq_lt.mpr (by omega)]
      simp [Nat.le_of_lt hlt]
    · rw [heq]
      simp
    · rw [Int.compare_eq_gt.mpr (by omega)]
      simp [Nat.not_le.mpr hgt]
  simp [isExhausted, limit, hmax, hle]

theorem next_of_exhausted (now : Moment) (fault : Fault) (hexhausted : b.isExhausted = true) :
    b.next now fault = (.error fault, b) :=
  if_pos hexhausted

/-- A policy with attempts left names the wait before the next one and counts it. -/
theorem next_of_left {now : Moment} {fault : Fault} (hnumeric : b.HasNumericWaits)
    (hleft : b.isExhausted = false) (hattempt : b.attempt ≤ Binary64.lastGrowth)
    (hnow : now.IsAware) (htimely : fault.IsTimely) :
    ∃ wait slept, b.advanced.interval now fault = .ok wait ∧
      b.next now fault = (.ok wait, { b.advanced with sleptFor := slept }) := by
  have hnumericNext : b.advanced.HasNumericWaits := ⟨hnumeric.period, hnumeric.maxPeriod⟩
  obtain ⟨wait, hwait, hreal⟩ :=
    interval_eq_ok hnumericNext (Nat.succ_le_succ hattempt) hnow htimely
  obtain ⟨slept, hslept⟩ := waiting_eq_ok (b := b.advanced) hreal
  refine ⟨wait, slept, hwait, ?_⟩
  unfold next
  rw [hleft, hwait]
  simp only [Bool.false_eq_true, if_false, hslept]

end Backoff

theorem Retryer.next_backoff {b b' : Backoff} {now : Moment} {fault : Fault}
    {decision : Except Fault Quantity} (hnext : b.next now fault = (decision, b')) :
    (backoff b).next now fault = (decision, backoff b') := by
  simp only [next, hnext]

end HttpBinding
