import HttpBinding.Value

/-!
# Retry policies

A policy is asked after every fault that may be retried: it answers with the
seconds to wait before the next attempt, or with the fault that ends the
attempts. The usual policy allows a number of attempts; its waits grow by a half
each time, follow the moment named by the fault if there is one, and are capped.
-/

namespace HttpBinding

/-- Growing waits between a limited number of attempts. Whether the waits are numbers shows late. -/
structure Backoff where
  period : Value
  maxPeriod : Value
  maxAttempts : Quantity
  attempt : Nat := 1
  sleptFor : Binary64 := .zeroOf false

namespace Backoff

/-- A number that a setting has to be. -/
def numberOf (setting : Value) : Except Fault Quantity :=
  match setting.quantity? with
  | some q => .ok q
  | none => .error (.runtime "TypeError")

/-- A number in arithmetic, for which it must not be too large. -/
def realOf (q : Quantity) : Except Fault Binary64 :=
  match q.toReal? with
  | some x => .ok x
  | none => .error (.runtime "OverflowError")

/-- A policy for at least one attempt. -/
def make (period maxPeriod maxAttempts : Value) : Except Fault Backoff := do
  let attempts ← numberOf maxAttempts
  if attempts.lt (.whole 1) then
    .error (.foreign "ValueError" "max_attempts must be at least 1")
  else .ok { period := period, maxPeriod := maxPeriod, maxAttempts := attempts }

/-- The policy as it was made. -/
def fresh (b : Backoff) : Backoff :=
  { b with attempt := 1, sleptFor := .zeroOf false }

/-- How much the wait has grown since the first attempt, unless that is too large for a number. -/
def growth (b : Backoff) : Except Fault Binary64 :=
  (Binary64.powThreeHalves? (b.attempt - 1)).elim (.error (.runtime "OverflowError")) .ok

/-- The wait after the attempts so far when the fault names no moment. -/
def nextInterval (b : Backoff) : Except Fault Quantity := do
  let growth ← b.growth
  let period ← realOf (← numberOf b.period)
  let cap ← numberOf b.maxPeriod
  .ok ((Quantity.real (period.mul growth)).least cap)

/-- The seconds until a moment, as a number. -/
def secondsUntil (now moment : Moment) : Except Fault Binary64 :=
  match moment.since? now with
  | some micros => .ok (.ofQuotient micros 1000000)
  | none => .error (.runtime "TypeError")

/-- The wait after a fault. -/
def interval (b : Backoff) (now : Moment) (fault : Fault) : Except Fault Quantity :=
  match fault.retryAfter with
  | some moment => do
    let seconds ← secondsUntil now moment
    let cap ← numberOf b.maxPeriod
    .ok ((Quantity.real (.zeroOf false)).greatest ((Quantity.real seconds).least cap))
  | none => b.nextInterval

/-- The number of attempts at which a policy ends whose limit is no whole number. -/
def lastAttempt : Nat := 0x8000000000000000

/-- A number of attempts that a policy does not go beyond. -/
def limit (b : Backoff) : Nat :=
  match b.maxAttempts with
  | .truth allowed => (Quantity.ofTruth allowed).toNat
  | .whole n => n.toNat
  | .real _ => lastAttempt

/-- Whether there is no attempt left. -/
def isExhausted (b : Backoff) : Bool :=
  b.limit ≤ b.attempt || b.maxAttempts.le (.whole b.attempt)

/-- The policy after one more attempt. -/
def advanced (b : Backoff) : Backoff :=
  { b with attempt := b.attempt + 1 }

/-- The policy after a wait. -/
def waiting (b : Backoff) (wait : Quantity) : Except Fault Backoff := do
  let seconds ← realOf wait
  .ok { b with sleptFor := b.sleptFor.add seconds }

/-- The decision after a fault, and the policy for the next one. -/
def next (b : Backoff) (now : Moment) (fault : Fault) : Except Fault Quantity × Backoff :=
  if b.isExhausted then (.error fault, b)
  else
    match b.advanced.interval now fault with
    | .ok wait =>
      match b.advanced.waiting wait with
      | .ok b => (.ok wait, b)
      | .error trouble => (.error trouble, b.advanced)
    | .error trouble => (.error trouble, b.advanced)

/-- How many attempts are left at the most. -/
def remaining (b : Backoff) : Nat :=
  b.limit - b.attempt

theorem eq_of_waiting {b b' : Backoff} {wait : Quantity} (h : b.waiting wait = .ok b') :
    b' = { b with sleptFor := b'.sleptFor } := by
  unfold waiting at h
  cases hreal : realOf wait with
  | error trouble => simp [hreal, bind, Except.bind] at h
  | ok seconds =>
    simp only [hreal, bind, Except.bind, Except.ok.injEq] at h
    rw [← h]

theorem remaining_next {b : Backoff} {now : Moment} {fault : Fault} {wait : Quantity}
    (h : (b.next now fault).1 = .ok wait) :
    (b.next now fault).2.remaining < b.remaining := by
  unfold next at h ⊢
  split
  · simp_all
  · rename_i hleft
    have hlt : b.attempt < b.limit := by
      simp only [isExhausted, Bool.or_eq_true, decide_eq_true_eq, not_or, Nat.not_le] at hleft
      exact hleft.1
    split
    · split
      · rename_i b' hwaiting
        rw [eq_of_waiting hwaiting]
        change b.limit - (b.attempt + 1) < b.limit - b.attempt
        omega
      · simp_all
    · simp_all

end Backoff

/-- A retry policy. -/
inductive Retryer where
  | never
  | backoff (b : Backoff)

namespace Retryer

/-- The policy for a new call. -/
def fresh : Retryer → Retryer
  | never => never
  | backoff b => backoff b.fresh

/-- The decision after a fault, and the policy for the next one. -/
def next (r : Retryer) (now : Moment) (fault : Fault) : Except Fault Quantity × Retryer :=
  match r with
  | never => (.error fault, never)
  | backoff b =>
    match b.next now fault with
    | (decision, b) => (decision, backoff b)

/-- The name of the class of a policy. -/
def name : Retryer → String
  | never => "NeverRetry"
  | backoff _ => "DefaultRetryer"

/-- How many attempts are left. -/
def remaining : Retryer → Nat
  | never => 0
  | backoff b => b.remaining

theorem remaining_next {r : Retryer} {now : Moment} {fault : Fault} {wait : Quantity}
    (h : (r.next now fault).1 = .ok wait) :
    (r.next now fault).2.remaining < r.remaining := by
  cases r with
  | never => simp [next] at h
  | backoff b => exact Backoff.remaining_next h

end Retryer

end HttpBinding
