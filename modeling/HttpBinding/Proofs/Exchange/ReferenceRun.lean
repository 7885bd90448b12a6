import HttpBinding.Octets.Charset
import HttpBinding.Proofs.Exchange.Fetching
import HttpBinding.Proofs.Exchange.Succession
import HttpBinding.Proofs.Retryer.Decision
import Mathlib.Order.Bounds.Defs

/-!
# A call against its reference run

What a call does follows from what its attempts come to, each on its own: the
first attempt whose outcome may not be retried, or else the last one that the
policy allows, decides the call. Every attempt sends the same request, and the
time between two of them is the one that the policy names for the fault of the
first. Only a wait that fails breaks off a call before it is decided. The policy
is counted anew for every call, so that the same holds for any number of calls
one after another.
-/

namespace HttpBinding

/-- The policy after a number of further attempts. -/
def Backoff.afterAttempts (b : Backoff) (count : Nat) : Backoff :=
  { b with attempt := b.attempt + count }

theorem Backoff.afterAttempts_succ (b : Backoff) (count : Nat) :
    b.afterAttempts (count + 1) = b.advanced.afterAttempts count := by
  simp only [afterAttempts, advanced, Nat.add_assoc, Nat.add_comm 1 count]

/-- The waits do not depend on the time slept so far. -/
theorem Backoff.interval_afterAttempts_sleptFor (b : Backoff) (slept : Binary64) (count : Nat) :
    (({ b with sleptFor := slept } : Backoff).afterAttempts count).interval =
      (b.afterAttempts count).interval := by
  funext now fault
  unfold interval nextInterval growth afterAttempts
  rfl

/-- What other parties see of a wait: nothing unless it takes time. -/
def pausing (seconds : Quantity) : List Event :=
  if (Quantity.whole 0).lt seconds then [.waited seconds] else []

/-- A sending and, after each wait, the same sending again. -/
def sendings (sending : Event) (waits : List Quantity) : List Event :=
  sending :: waits.flatMap fun seconds => pausing seconds ++ [sending]

theorem countP_pausing (seconds : Quantity) : (pausing seconds).countP Event.isSent = 0 := by
  unfold pausing
  split <;> rfl

theorem sendings_cons (sending : Event) (seconds : Quantity) (rest : List Quantity) :
    sendings sending (seconds :: rest) = sending :: (pausing seconds ++ sendings sending rest) := by
  simp [sendings]

theorem countP_sendings (request : Request) (options : Value) (waits : List Quantity) :
    (sendings (.sent request options) waits).countP Event.isSent = waits.length + 1 := by
  induction waits with
  | nil => rfl
  | cons seconds rest ih =>
      rw [sendings_cons, List.countP_cons, List.countP_append, countP_pausing, ih]
      simp [Event.isSent]

namespace Handler

section Runs

variable [Charsets] (h : Handler) (wait : Waiting) (network : Network) (request : Request)
  (options : Value)

/-- What attempt `i` comes to; attempt 1 sends the request as number `first`. -/
def outcomeAt (first i : Nat) : Except Fault Value :=
  h.outcomeOfAttempt network request options (first + (i - 1))

theorem outcomeAt_succ (first : Nat) {i : Nat} (hi : 1 ≤ i) :
    h.outcomeAt network request options (first + 1) i =
      h.outcomeAt network request options first (i + 1) := by
  have hnumber : first + 1 + (i - 1) = first + (i + 1 - 1) := by omega
  unfold outcomeAt
  rw [hnumber]

/-- The times to wait that a policy names after the first attempts, each for the fault of its own. -/
def AreNamed (b : Backoff) (first : Nat) (waits : List Quantity) : Prop :=
  ∀ i (hi : i < waits.length), ∃ fault,
    h.outcomeAt network request options first (i + 1) = .error fault ∧
      (b.afterAttempts (i + 1)).interval (h.clock.decidingAfter (first + i)) fault = .ok waits[i]

omit [Charsets] in
/-- Times after the first attempts that pass. -/
def ArePassed (first : Nat) (waits : List Quantity) : Prop :=
  ∀ i (hi : i < waits.length),
    resting wait (Clock.firstLook (first + (i + 1))) waits[i] = .ok ()

/--
What attempts do of which a policy allows a number, told by their outcomes: attempt `k`
is decisive and comes after the given waits. Of an attempt whose request cannot be
logged nothing is seen.
-/
structure IsReferenceRun (b : Backoff) (allowed first k : Nat) (waits : List Quantity)
    (x : Traced Value) : Prop where
  least : IsLeast {i | 1 ≤ i ∧
    (mayRetry (h.outcomeAt network request options first i) = false ∨ i = allowed)} k
  length_waits : waits.length + 1 = k
  named : h.AreNamed network request options b first waits
  passed : ArePassed wait first waits
  outward_of_logged : (h.log.request h.key request).outcome = .ok () →
    x.outward = sendings (.sent (h.transport.relay request) options) waits
  outward_of_unlogged : ∀ fault, (h.log.request h.key request).outcome = .error fault →
    k = 1 ∧ x.outward = []
  returned : ∀ value, h.outcomeAt network request options first k = .ok value →
    x.outcome = .ok value
  raised : ∀ fault, h.outcomeAt network request options first k = .error fault →
    x.outcome = .error (h.exhausted fault)

/--
What attempts do of which a policy allows a number and none of which is decisive, since after
some waits that pass there is one that fails.
-/
structure IsBrokenOff (b : Backoff) (allowed first : Nat) (waits : List Quantity) (last : Quantity)
    (failure : Failure) (x : Traced Value) : Prop where
  undecided : ∀ i, 1 ≤ i → i ≤ waits.length + 1 →
    mayRetry (h.outcomeAt network request options first i) = true ∧ i ≠ allowed
  named : h.AreNamed network request options b first (waits ++ [last])
  passed : ArePassed wait first waits
  failed : resting wait (Clock.firstLook (first + (waits.length + 1))) last = .error failure
  outward_eq : x.outward =
    sendings (.sent (h.transport.relay request) options) waits ++ pausing last
  outcome_eq : x.outcome = .error failure.fault

variable {h wait network request options} {b : Backoff} {allowed first k : Nat}
  {waits : List Quantity} {last : Quantity} {failure : Failure} {x : Traced Value}

omit [Charsets] in
theorem exhausted_of_final {fault : Fault} (hfinal : fault.family.isRetryable = false) :
    h.exhausted fault = fault := by
  unfold exhausted
  rw [hfinal, Bool.and_false, if_neg Bool.false_ne_true]

/-- A fault of the operating system on the way is a fault of the transport. -/
theorem outcomeAt_of_os {i : Nat} {fault : Fault}
    (hlogged : (h.log.request h.key request).outcome = .ok ())
    (hfault : network (first + (i - 1)) (h.transport.relay request) options = .error fault)
    (hos : fault.family.isOs = true) :
    h.outcomeAt network request options first i = .error (transportFault request fault) := by
  unfold outcomeAt outcomeOfAttempt
  rw [hlogged, hfault]
  change h.outcomeOfAnswer (h.clock.sightOf (first + (i - 1))) request (first + (i - 1))
    (.error fault) = _
  rw [outcomeOfAnswer, hos, if_pos rfl]

/-- One request is sent for each attempt of a reference run, unless it cannot be logged. -/
theorem IsReferenceRun.sends_eq
    (hrun : IsReferenceRun h wait network request options b allowed first k waits x) :
    x.sends = if (h.log.request h.key request).outcome.toBool then k else 0 := by
  rw [Traced.sends_eq_countP_outward]
  cases hlog : (h.log.request h.key request).outcome with
  | ok _ =>
      rw [hrun.outward_of_logged hlog, countP_sendings, hrun.length_waits]
      rfl
  | error fault =>
      rw [(hrun.outward_of_unlogged fault hlog).2]
      rfl

theorem IsBrokenOff.sends_eq
    (hrun : IsBrokenOff h wait network request options b allowed first waits last failure x) :
    x.sends = waits.length + 1 := by
  rw [Traced.sends_eq_countP_outward, hrun.outward_eq, List.countP_append, countP_sendings,
    countP_pausing, Nat.add_zero]

omit [Charsets] in
/-- Every time passes if no wait fails. -/
theorem resting_of_rests (hrests : ∀ look seconds, wait look seconds = .ok ()) (look : Nat)
    (seconds : Quantity) : resting wait look seconds = .ok () := by
  unfold resting
  split
  · exact hrests look seconds
  · rfl

/-! ## One attempt more -/

/-- An attempt that decides the call is a reference run of its own. -/
theorem IsReferenceRun.single
    (hlast : mayRetry (h.outcomeAt network request options first 1) = false ∨ allowed = 1)
    (hevents : x.events = (h.attempt network request options first).events)
    (hreturned : ∀ value, h.outcomeAt network request options first 1 = .ok value →
      x.outcome = .ok value)
    (hraised : ∀ fault, h.outcomeAt network request options first 1 = .error fault →
      x.outcome = .error (h.exhausted fault)) :
    IsReferenceRun h wait network request options b allowed first 1 [] x where
  least := by
    refine ⟨⟨Nat.le_refl 1, ?_⟩, fun i hi => hi.1⟩
    exact hlast.imp_right Eq.symm
  length_waits := rfl
  named i hi := absurd hi (Nat.not_lt_zero i)
  passed i hi := absurd hi (Nat.not_lt_zero i)
  outward_of_logged hlogged := by
    unfold Traced.outward
    rw [hevents]
    exact h.outward_attempt_of_logged network request options first hlogged
  outward_of_unlogged fault hunlogged := by
    refine ⟨rfl, ?_⟩
    unfold Traced.outward
    rw [hevents]
    exact h.outward_attempt_of_unlogged network request options first hunlogged
  returned := hreturned
  raised := hraised

omit [Charsets] in
/-- A time that passes goes before those that pass after it. -/
theorem ArePassed.cons {seconds : Quantity}
    (hpassed : resting wait (Clock.firstLook (first + 1)) seconds = .ok ())
    (hrest : ArePassed wait (first + 1) waits) : ArePassed wait first (seconds :: waits) := by
  intro i hi
  cases i with
  | zero => exact hpassed
  | succ i =>
      have hlater := hrest i (Nat.lt_of_succ_lt_succ hi)
      rwa [Nat.add_right_comm first 1 (i + 1)] at hlater

section Retried

variable {fault : Fault} {seconds : Quantity} {b' : Backoff}
  (hfault : h.outcomeAt network request options first 1 = .error fault)
  (hretryable : fault.family.isRetryable = true)
  (hseconds : (b.afterAttempts 1).interval (h.clock.decidingAfter first) fault = .ok seconds)
  (hpolicy : ∀ count, (b'.afterAttempts count).interval = (b.afterAttempts (count + 1)).interval)

include hfault hseconds hpolicy in
/-- A time that is named after the first attempt goes before those that are named later. -/
theorem AreNamed.cons (hrest : h.AreNamed network request options b' (first + 1) waits) :
    h.AreNamed network request options b first (seconds :: waits) := by
  intro i hi
  cases i with
  | zero => exact ⟨fault, hfault, hseconds⟩
  | succ i =>
      obtain ⟨later, hlater, hwait⟩ := hrest i (Nat.lt_of_succ_lt_succ hi)
      rw [outcomeAt_succ h network request options first (Nat.le_add_left 1 i)] at hlater
      rw [hpolicy, Nat.add_right_comm first 1 i] at hwait
      exact ⟨later, hlater, hwait⟩

include hfault hretryable hseconds hpolicy in
/-- An attempt after which others follow puts itself and one wait before their reference run. -/
theorem IsReferenceRun.retried (hallowed : 1 ≤ allowed)
    (hpassed : resting wait (Clock.firstLook (first + 1)) seconds = .ok ())
    (hrun : IsReferenceRun h wait network request options b' allowed (first + 1) k waits x) :
    IsReferenceRun h wait network request options b (allowed + 1) first (k + 1) (seconds :: waits)
      (x.after ((h.attempt network request options first).events ++ h.pause fault seconds)) where
  least := by
    obtain ⟨⟨hk, hdecides⟩, hleast⟩ := hrun.least
    refine ⟨⟨Nat.le_add_left 1 k, ?_⟩, ?_⟩
    · rw [← outcomeAt_succ h network request options first hk]
      exact hdecides.imp_right (congrArg (· + 1))
    · rintro i ⟨hi, hi'⟩
      rcases Nat.eq_or_lt_of_le hi with rfl | hlater
      -- The first attempt decides nothing: it may be retried and is not the last allowed.
      · rw [hfault] at hi'
        rcases hi' with hfinal | hlast
        · exact absurd hfinal (by rw [mayRetry, hretryable]; exact Bool.noConfusion)
        · omega
      · obtain ⟨j, rfl⟩ : ∃ j, i = j + 1 := ⟨i - 1, by omega⟩
        have hj : 1 ≤ j := Nat.le_of_lt_succ hlater
        refine Nat.succ_le_succ (hleast ⟨hj, ?_⟩)
        rw [outcomeAt_succ h network request options first hj]
        exact hi'.imp_right Nat.succ.inj
  length_waits := congrArg (· + 1) hrun.length_waits
  named := .cons hfault hseconds hpolicy hrun.named
  passed := .cons hpassed hrun.passed
  outward_of_logged hlogged := by
    rw [Traced.outward_after, h.outward_before_next network request options hlogged,
      hrun.outward_of_logged hlogged, sendings_cons]
    rfl
  outward_of_unlogged trouble hunlogged := by
    -- Nothing is retried after a request that could not be logged.
    have hlogged := logged_of_retryable (n := first) hfault hretryable
    rw [hlogged] at hunlogged
    cases hunlogged
  returned value hvalue := by
    obtain ⟨hk, -⟩ := hrun.least.1
    rw [← outcomeAt_succ h network request options first hk] at hvalue
    exact hrun.returned value hvalue
  raised later hlater := by
    obtain ⟨hk, -⟩ := hrun.least.1
    rw [← outcomeAt_succ h network request options first hk] at hlater
    exact hrun.raised later hlater

include hfault hretryable hseconds in
/-- An attempt after which the wait fails breaks the call off. -/
theorem IsBrokenOff.single (hallowed : 1 ≤ allowed)
    (hfailed : resting wait (Clock.firstLook (first + 1)) seconds = .error failure) :
    IsBrokenOff h wait network request options b (allowed + 1) first [] seconds failure
      ⟨.error failure.fault,
        (h.attempt network request options first).events ++ h.pause fault seconds⟩ where
  undecided i hi hi' := by
    obtain rfl : i = 1 := Nat.le_antisymm hi' hi
    rw [hfault]
    exact ⟨hretryable, by omega⟩
  named := by
    intro i hi
    obtain rfl : i = 0 := Nat.lt_one_iff.mp hi
    exact ⟨fault, hfault, hseconds⟩
  passed i hi := absurd hi (Nat.not_lt_zero i)
  failed := hfailed
  outward_eq :=
    h.outward_before_next network request options
      (logged_of_retryable (n := first) hfault hretryable) first fault seconds
  outcome_eq := rfl

include hfault hretryable hseconds hpolicy in
theorem IsBrokenOff.retried (hallowed : 1 ≤ allowed)
    (hpassed : resting wait (Clock.firstLook (first + 1)) seconds = .ok ())
    (hrun : IsBrokenOff h wait network request options b' allowed (first + 1) waits last failure
      x) :
    IsBrokenOff h wait network request options b (allowed + 1) first (seconds :: waits) last
      failure
      (x.after ((h.attempt network request options first).events ++ h.pause fault seconds)) where
  undecided i hi hi' := by
    rcases Nat.eq_or_lt_of_le hi with rfl | hlater
    · rw [hfault]
      exact ⟨hretryable, by omega⟩
    · obtain ⟨j, rfl⟩ : ∃ j, i = j + 1 := ⟨i - 1, by omega⟩
      have hj : 1 ≤ j := Nat.le_of_lt_succ hlater
      obtain ⟨hmay, hne⟩ := hrun.undecided j hj (Nat.le_of_succ_le_succ hi')
      rw [← outcomeAt_succ h network request options first hj]
      exact ⟨hmay, fun heq => hne (Nat.succ.inj heq)⟩
  named := .cons hfault hseconds hpolicy hrun.named
  passed := .cons hpassed hrun.passed
  failed := by
    have hlater := hrun.failed
    rwa [Nat.add_right_comm first 1 (waits.length + 1)] at hlater
  outward_eq := by
    rw [Traced.outward_after, h.outward_before_next network request options
      (logged_of_retryable (n := first) hfault hretryable), hrun.outward_eq, sendings_cons]
    exact congrArg _ (List.append_assoc _ _ _).symm
  outcome_eq := hrun.outcome_eq

end Retried

/-! ## All attempts -/

/-- A handler none of whose attempts ends in a fault that names a moment without a known clock. -/
def IsTimely (h : Handler) (network : Network) : Prop :=
  ∀ request options n fault,
    h.outcomeOfAttempt network request options n = .error fault → fault.IsTimely

theorem referenceRun_of_final {retryer : Retryer}
    (hfinal : mayRetry (h.outcomeAt network request options first 1) = false) :
    IsReferenceRun h wait network request options b allowed first 1 []
      (h.attempts wait network request options first retryer) := by
  rw [attempts_of_final (n := first) hfinal]
  refine .single (.inl hfinal) rfl ?_ ?_
  · intro value hvalue
    rw [outcome_attempt]
    exact hvalue
  · intro fault hfault
    rw [outcome_attempt]
    rw [hfault] at hfinal
    rw [exhausted_of_final hfinal]
    exact hfault

theorem referenceRun_of_exhausted {fault : Fault}
    (hfault : h.outcomeAt network request options first 1 = .error fault)
    (hretryable : fault.family.isRetryable = true) (hexhausted : b.isExhausted = true) :
    IsReferenceRun h wait network request options b 1 first 1 []
      (h.attempts wait network request options first (.backoff b)) := by
  have hnext := Retryer.next_backoff
    (Backoff.next_of_exhausted (h.clock.decidingAfter first) fault hexhausted)
  rw [attempts_of_exhausted (n := first) hfault hretryable hnext]
  refine .single (.inr rfl) rfl ?_ ?_
  · intro value hvalue
    rw [hfault] at hvalue
    cases hvalue
  · intro other hother
    obtain rfl : fault = other := Except.error.inj (hfault.symm.trans hother)
    rfl

/--
Attempts follow the reference run of as many attempts as the policy still allows, unless a wait
that fails breaks them off.
-/
theorem attempts_referenceRun {m : Nat} (hmax : b.maxAttempts = .whole m)
    (hfinite : m ≤ Binary64.lastGrowth + 1) (hnumeric : b.HasNumericWaits)
    (hnow : ∀ look, (h.clock.now look).IsAware) (htimely : h.IsTimely network)
    (hallowed : b.attempt + allowed = m) :
    (∃ k waits, IsReferenceRun h wait network request options b (allowed + 1) first k waits
      (h.attempts wait network request options first (.backoff b))) ∨
    ∃ waits last failure,
      IsBrokenOff h wait network request options b (allowed + 1) first waits last failure
        (h.attempts wait network request options first (.backoff b)) := by
  -- On the attempts that are left; each of them leaves a policy with one attempt less.
  induction allowed generalizing b first with
  | zero =>
      cases hmay : mayRetry (h.outcomeAt network request options first 1) with
      | false => exact Or.inl ⟨1, [], referenceRun_of_final hmay⟩
      | true =>
          obtain ⟨fault, hfault, hretryable⟩ := mayRetry_eq_true.mp hmay
          have hexhausted : b.isExhausted = true :=
            (Backoff.isExhausted_iff hmax).mpr (by omega)
          exact Or.inl ⟨1, [], referenceRun_of_exhausted hfault hretryable hexhausted⟩
  | succ allowed ih =>
      cases hmay : mayRetry (h.outcomeAt network request options first 1) with
      | false => exact Or.inl ⟨1, [], referenceRun_of_final hmay⟩
      | true =>
          obtain ⟨fault, hfault, hretryable⟩ := mayRetry_eq_true.mp hmay
          have hleft : b.isExhausted = false := by
            refine Bool.eq_false_iff.mpr ?_
            rw [Ne, Backoff.isExhausted_iff hmax]
            omega
          obtain ⟨seconds, slept, hseconds, hnext⟩ := Backoff.next_of_left hnumeric hleft
            (by omega) (hnow (Clock.firstLook first + 3)) (htimely _ _ _ _ hfault)
          have hpolicy : ∀ count,
              (({ b.advanced with sleptFor := slept } : Backoff).afterAttempts count).interval =
                (b.afterAttempts (count + 1)).interval := by
            intro count
            rw [Backoff.interval_afterAttempts_sleptFor, Backoff.afterAttempts_succ]
          cases hrest : resting wait (Clock.firstLook (first + 1)) seconds with
          | error failure =>
              refine Or.inr ⟨[], seconds, failure, ?_⟩
              rw [attempts_of_unrested (n := first) hfault hretryable
                (Retryer.next_backoff hnext) hrest]
              exact .single hfault hretryable hseconds (Nat.le_add_left 1 allowed) hrest
          | ok _ =>
              rw [attempts_of_retry (n := first) hfault hretryable (Retryer.next_backoff hnext)
                hrest]
              rcases @ih { b.advanced with sleptFor := slept } (first + 1) hmax
                ⟨hnumeric.period, hnumeric.maxPeriod⟩ (by change b.attempt + 1 + allowed = m; omega)
                with ⟨k, waits, hrun⟩ | ⟨waits, last, failure, hrun⟩
              · exact Or.inl ⟨k + 1, seconds :: waits, hrun.retried hfault hretryable hseconds
                  hpolicy (Nat.le_add_left 1 allowed) hrest⟩
              · exact Or.inr ⟨seconds :: waits, last, failure, hrun.retried hfault hretryable
                  hseconds hpolicy (Nat.le_add_left 1 allowed) hrest⟩

/-! ## Calls one after another -/

/-- A call as it is made: how time passes meanwhile, and the arguments. -/
structure Invocation where
  clock : Clock
  arguments : List Value

/-- A call that was made, with the number of the first request that it could send. -/
structure Turn where
  first : Nat
  invocation : Invocation
  result : Traced Value

/-- The handler while time passes in some way. -/
def atClock (h : Handler) (clock : Clock) : Handler :=
  { h with clock := clock }

/-- Calls one after another, of which each goes on with the number that the one before has left. -/
def invokeAll (h : Handler) (network : Network) : Nat → List Invocation → List Turn
  | _, [] => []
  | first, invocation :: rest =>
    let result := (h.atClock invocation.clock).invoke network first invocation.arguments
    ⟨first, invocation, result⟩ :: h.invokeAll network (first + result.sends) rest

theorem mem_invokeAll {h : Handler} {network : Network} {turn : Turn} {first : Nat}
    {invocations : List Invocation} (hturn : turn ∈ h.invokeAll network first invocations) :
    turn.invocation ∈ invocations ∧ turn.result =
      (h.atClock turn.invocation.clock).invoke network turn.first turn.invocation.arguments := by
  induction invocations generalizing first with
  | nil => cases hturn
  | cons invocation rest ih =>
      rcases List.mem_cons.mp hturn with rfl | hrest
      · exact ⟨List.mem_cons_self, rfl⟩
      · obtain ⟨hmem, hresult⟩ := ih hrest
        exact ⟨List.mem_cons_of_mem _ hmem, hresult⟩

/--
Every one of any number of calls follows its reference run. A call whose request cannot
be prepared sends nothing and does not wait. Otherwise one request is sent for each attempt
up to the decisive one, unless the request cannot be logged: then there is no other attempt
and nothing is sent. A wait that fails breaks the call off with its own fault. A fault of the
operating system counts as one of the transport.
-/
theorem invokeAll_referenceRun {h : Handler} {network : Network} {b : Backoff} {m : Nat}
    (hretryer : h.retryer = .backoff b) (hmax : b.maxAttempts = .whole m) (hpositive : 1 ≤ m)
    (hfinite : m ≤ Binary64.lastGrowth + 1) (hnumeric : b.HasNumericWaits)
    (first : Nat) (invocations : List Invocation)
    (hnow : ∀ invocation ∈ invocations, ∀ look, (invocation.clock.now look).IsAware)
    (htimely : ∀ invocation ∈ invocations, (h.atClock invocation.clock).IsTimely network) :
    ∀ turn ∈ h.invokeAll network first invocations,
      let running := h.atClock turn.invocation.clock
      match running.prepare turn.invocation.arguments with
      | .error fault => turn.result = Traced.fail fault
      | .ok (request, options) =>
        ((∃ k waits,
            IsReferenceRun running running.clock.sleep network request options b.fresh m
              turn.first k waits turn.result ∧
            turn.result.sends =
              if (running.log.request running.key request).outcome.toBool then k else 0) ∨
          ∃ waits last failure,
            IsBrokenOff running running.clock.sleep network request options b.fresh m turn.first
              waits last failure turn.result ∧
            turn.result.sends = waits.length + 1) ∧
        ∀ i fault, network (turn.first + (i - 1)) (h.transport.relay request) options =
            .error fault → fault.family.isOs = true →
          (running.log.request running.key request).outcome = .ok () →
          ∃ told, running.outcomeAt network request options turn.first i = .error told ∧
            told.family = .transport ∧ told.cause? = some fault := by
  intro turn hturn running
  obtain ⟨hmem, hresult⟩ := mem_invokeAll hturn
  rcases hprepare : running.prepare turn.invocation.arguments with fault | ⟨request, options⟩
  · exact hresult.trans (invoke_of_unprepared hprepare)
  have hattempts : turn.result = running.attempts running.clock.sleep network request options
      turn.first running.retryer.fresh :=
    hresult.trans (invoke_of_prepared hprepare)
  rw [hattempts]
  refine ⟨?_, ?_⟩
  · have hpolicy : running.retryer.fresh = .backoff b.fresh := by
      change h.retryer.fresh = _
      rw [hretryer]
      rfl
    have hruns := @attempts_referenceRun _ running running.clock.sleep network request options
      b.fresh (m - 1) turn.first m hmax hfinite ⟨hnumeric.period, hnumeric.maxPeriod⟩ (hnow _ hmem)
      (htimely _ hmem) (Nat.add_sub_cancel' hpositive)
    rw [Nat.sub_add_cancel hpositive, ← hpolicy] at hruns
    rcases hruns with ⟨k, waits, hrun⟩ | ⟨waits, last, failure, hrun⟩
    · exact Or.inl ⟨k, waits, hrun, hrun.sends_eq⟩
    · exact Or.inr ⟨waits, last, failure, hrun, hrun.sends_eq⟩
  · intro i fault hfault hos hlogged
    exact ⟨_, outcomeAt_of_os hlogged hfault hos, family_transportFault request fault,
      cause?_transportFault request hos⟩

end Runs

open scoped CommonCharsets

/-- Two attempts at the most, a second apart. -/
def twoAttempts : Backoff where
  period := .decimal 1 0
  maxPeriod := .decimal 1 0
  maxAttempts := .whole 2

/-- A network that resets the first connection and answers from then on. -/
def resettingNetwork : Network := fun n _ _ =>
  if n = 0 then .error (.runtime "ConnectionResetError")
  else .ok { status := 200, body := some (.ofOctets [0x6f, 0x6b]) }

/-- The handler of a method that reads octets in two attempts at the most. -/
def persistentFetching : Handler :=
  fetching { plainSettings .none with retryer := .backoff twoAttempts } .octets

theorem isTimely_persistentFetching (clock : Clock) :
    (persistentFetching.atClock clock).IsTimely resettingNetwork := by
  intro request options n fault hfault
  change (persistentFetching.atClock clock).outcomeOfAnswer (clock.sightOf n) request n
    (resettingNetwork n request options) = .error fault at hfault
  unfold resettingNetwork at hfault
  split at hfault
  next =>
    obtain rfl := Except.error.inj hfault
    intro moment hmoment
    cases hmoment
  next => cases hfault

theorem invokeAll_referenceRun_persistentFetching :
    let clock : Clock := .still ⟨0, some 0⟩
    let running := persistentFetching.atClock clock
    ∀ turn ∈ persistentFetching.invokeAll resettingNetwork 0 [⟨clock, []⟩, ⟨clock, []⟩],
      ∃ k waits,
        IsReferenceRun running clock.sleep resettingNetwork fetchingRequest (Options.toValue {})
          twoAttempts.fresh 2 turn.first k waits turn.result ∧
        turn.result.sends = k := by
  intro clock running turn hturn
  have hnumeric : twoAttempts.HasNumericWaits :=
    ⟨⟨_, rfl, Quantity.isReal_real _⟩, ⟨_, rfl, Quantity.isReal_real _⟩⟩
  have hnow : ∀ invocation ∈ [Invocation.mk clock [], ⟨clock, []⟩],
      ∀ look, (invocation.clock.now look).IsAware := by
    intro invocation hmem look
    obtain rfl : invocation = ⟨clock, []⟩ := by simpa using hmem
    rfl
  have hretryer : persistentFetching.retryer = .backoff twoAttempts := rfl
  have hmax : twoAttempts.maxAttempts = .whole (2 : Nat) := rfl
  have hall := invokeAll_referenceRun hretryer hmax (by decide) (by decide) hnumeric 0
    [⟨clock, []⟩, ⟨clock, []⟩] hnow
    (fun invocation _ => isTimely_persistentFetching invocation.clock) turn hturn
  obtain ⟨hmem, -⟩ := mem_invokeAll hturn
  obtain hinvocation : turn.invocation = ⟨clock, []⟩ := by simpa using hmem
  have hprepare : running.prepare [] = .ok (fetchingRequest, Options.toValue {}) :=
    prepare_fetching_of_unchanged rfl []
  rw [hinvocation] at hall
  change match running.prepare [] with
    | .error fault => _
    | .ok (request, options) => _ at hall
  rw [hprepare] at hall
  rcases hall.1 with hrun | ⟨waits, last, failure, hbroken, -⟩
  · exact hrun
  · cases (resting_of_rests (fun _ _ => rfl) _ _).symm.trans hbroken.failed

/-- A handler that logs bodies, and whose requests have one in a charset that is not known. -/
def illegibleFetching : Handler :=
  fetching
    { plainSettings .full with
      interceptors :=
        [⟨"Illegible", fun t => ((t.setBody (some [0x68])).withCharset (some "nope"), none)⟩]
      retryer := .backoff twoAttempts }
    .octets

/-- The request of such a method. -/
def illegibleRequest : Request :=
  { fetchingRequest with body := some [0x68], charset := "nope" }

/-- A single attempt that is decisive need not send anything. -/
theorem invoke_sends_nothing_illegibleFetching :
    illegibleFetching.prepare [] = .ok (illegibleRequest, Options.toValue {}) ∧
      IsLeast {i | 1 ≤ i ∧ (mayRetry (illegibleFetching.outcomeAt resettingNetwork illegibleRequest
        (Options.toValue {}) 0 i) = false ∨ i = 2)} 1 ∧
      (illegibleFetching.invoke resettingNetwork 0 []).sends ≠ 1 := by
  have hprepare : illegibleFetching.prepare [] = .ok (illegibleRequest, Options.toValue {}) := by
    unfold illegibleFetching
    rw [prepare_fetching]
    rfl
  have hunlogged : (illegibleFetching.log.request illegibleFetching.key illegibleRequest).outcome =
      .error (.runtime "LookupError") := by
    have hcharset : Charset.decodeNamed "nope" [0x68] = .error (.runtime "LookupError") := rfl
    rw [ExchangeLog.outcome_request, if_pos ((ExchangeLog.covers_full_iff _).mpr rfl)]
    change ((Charset.decodeNamed "nope" [0x68]).mapError Failure.fault).map (fun _ => ()) = _
    rw [hcharset]
    rfl
  have hfinal : mayRetry (illegibleFetching.outcomeOfAttempt resettingNetwork illegibleRequest
      (Options.toValue {}) 0) = false := mayRetry_of_unlogged hunlogged
  refine ⟨hprepare, ⟨⟨Nat.le_refl 1, .inl hfinal⟩, fun i hi => hi.1⟩, ?_⟩
  rw [invoke_of_prepared hprepare, attempts_of_final hfinal, Traced.sends_eq_countP_outward,
    outward_attempt_of_unlogged _ _ _ _ _ hunlogged]
  decide

end Handler

end HttpBinding
