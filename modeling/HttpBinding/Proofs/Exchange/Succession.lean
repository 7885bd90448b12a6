import HttpBinding.Proofs.Exchange.Attempt

/-!
# How attempts follow each other

An attempt is the last one if its outcome may not be retried, if the policy allows
no other or if the wait for the next one fails; otherwise the next attempt follows.
These four cases are all that is needed to reason about the attempts of a call, and
a principle of induction puts them together. A transport that suspends differs only
in its waits: its processes, when they are run, do what a transport that waits does
whose waits come out as theirs.
-/

namespace HttpBinding

/-- Whether an outcome is a fault after which another attempt may be made. -/
def mayRetry : Except Fault Value → Bool
  | .ok _ => false
  | .error fault => fault.family.isRetryable

theorem mayRetry_eq_true {outcome : Except Fault Value} :
    mayRetry outcome = true ↔
      ∃ fault, outcome = .error fault ∧ fault.family.isRetryable = true := by
  cases outcome with
  | ok value => simp [mayRetry]
  | error fault => simp [mayRetry]

namespace Handler

variable [Charsets] (h : Handler) (wait : Waiting) (network : Network) (request : Request)
  (options : Value)

/-! ## Attempts in order -/

section Order

variable {h wait network request options} {n : Nat} {retryer : Retryer}

/-- An attempt whose outcome may not be retried is the last one. -/
theorem attempts_of_final
    (hfinal : mayRetry (h.outcomeOfAttempt network request options n) = false) :
    h.attempts wait network request options n retryer = h.attempt network request options n := by
  rw [← outcome_attempt] at hfinal
  rw [attempts]
  split
  next => rfl
  next fault hfault =>
    rw [hfault] at hfinal
    change fault.family.isRetryable = false at hfinal
    rw [hfinal]
    rfl

/-- After a fault that may be retried the policy decides what follows. -/
theorem attempts_of_retryable {fault : Fault}
    (hfault : h.outcomeOfAttempt network request options n = .error fault)
    (hretryable : fault.family.isRetryable = true) :
    h.attempts wait network request options n retryer =
      match retryer.next (h.clock.decidingAfter n) fault with
      | (.error last, _) =>
          ⟨.error (h.exhausted last), (h.attempt network request options n).events⟩
      | (.ok seconds, retryer') =>
          (match resting wait (Clock.firstLook (n + 1)) seconds with
            | .ok () => h.attempts wait network request options (n + 1) retryer'
            | .error failure => Traced.fail failure.fault).after
              ((h.attempt network request options n).events ++ h.pause fault seconds) := by
  rw [← outcome_attempt] at hfault
  rw [attempts]
  split
  next value hvalue => rw [hfault] at hvalue; cases hvalue
  next other hother =>
    obtain rfl : fault = other := Except.error.inj (hfault.symm.trans hother)
    rw [hretryable, Bool.not_true, if_neg Bool.false_ne_true]
    -- The definition keeps the decision for its termination, the statement does not.
    split
    next heq => rewrite [heq]; rfl
    next heq => rewrite [heq]; rfl

/-- An attempt after which the policy allows no other is the last one. -/
theorem attempts_of_exhausted {fault last : Fault} {retryer' : Retryer}
    (hfault : h.outcomeOfAttempt network request options n = .error fault)
    (hretryable : fault.family.isRetryable = true)
    (hnext : retryer.next (h.clock.decidingAfter n) fault = (.error last, retryer')) :
    h.attempts wait network request options n retryer =
      ⟨.error (h.exhausted last), (h.attempt network request options n).events⟩ := by
  rw [attempts_of_retryable hfault hretryable, hnext]

section Allowed

variable {fault : Fault} {seconds : Quantity} {retryer' : Retryer}
  (hfault : h.outcomeOfAttempt network request options n = .error fault)
  (hretryable : fault.family.isRetryable = true)
  (hnext : retryer.next (h.clock.decidingAfter n) fault = (.ok seconds, retryer'))

include hfault hretryable hnext

/-- After a fault that may be retried and that the policy allows, the next attempt follows. -/
theorem attempts_of_retry (hrested : resting wait (Clock.firstLook (n + 1)) seconds = .ok ()) :
    h.attempts wait network request options n retryer =
      (h.attempts wait network request options (n + 1) retryer').after
        ((h.attempt network request options n).events ++ h.pause fault seconds) := by
  simp only [attempts_of_retryable hfault hretryable, hnext, hrested]

/-- An attempt is the last one if the wait for the next one fails. -/
theorem attempts_of_unrested {failure : Failure}
    (hunrested : resting wait (Clock.firstLook (n + 1)) seconds = .error failure) :
    h.attempts wait network request options n retryer =
      ⟨.error failure.fault,
        (h.attempt network request options n).events ++ h.pause fault seconds⟩ := by
  simp only [attempts_of_retryable hfault hretryable, hnext, hunrested]
  exact Traced.ext rfl (List.append_nil _)

end Allowed

end Order

/--
What holds of a last attempt, be it final, the last that the policy allows or the last for
want of a wait, and of an attempt with those that follow it whenever it holds of those, holds
of the attempts of every call.
-/
theorem attempts_induction {motive : Nat → Retryer → Traced Value → Prop}
    (hfinal : ∀ n retryer, mayRetry (h.outcomeOfAttempt network request options n) = false →
      motive n retryer (h.attempt network request options n))
    (hexhausted : ∀ n retryer fault last retryer',
      h.outcomeOfAttempt network request options n = .error fault →
      fault.family.isRetryable = true →
      retryer.next (h.clock.decidingAfter n) fault = (.error last, retryer') →
      motive n retryer
        ⟨.error (h.exhausted last), (h.attempt network request options n).events⟩)
    (hunrested : ∀ n retryer fault seconds retryer' failure,
      h.outcomeOfAttempt network request options n = .error fault →
      fault.family.isRetryable = true →
      retryer.next (h.clock.decidingAfter n) fault = (.ok seconds, retryer') →
      resting wait (Clock.firstLook (n + 1)) seconds = .error failure →
      motive n retryer ⟨.error failure.fault,
        (h.attempt network request options n).events ++ h.pause fault seconds⟩)
    (hretry : ∀ n retryer fault seconds retryer',
      h.outcomeOfAttempt network request options n = .error fault →
      fault.family.isRetryable = true →
      retryer.next (h.clock.decidingAfter n) fault = (.ok seconds, retryer') →
      resting wait (Clock.firstLook (n + 1)) seconds = .ok () →
      motive (n + 1) retryer' (h.attempts wait network request options (n + 1) retryer') →
      motive n retryer ((h.attempts wait network request options (n + 1) retryer').after
        ((h.attempt network request options n).events ++ h.pause fault seconds)))
    (n : Nat) (retryer : Retryer) :
    motive n retryer (h.attempts wait network request options n retryer) := by
  -- The measure of attempts itself: a policy that goes on has fewer attempts left.
  induction hleft : retryer.remaining using Nat.strongRecOn generalizing n retryer with
  | ind left ih =>
      cases houtcome : h.outcomeOfAttempt network request options n with
      | ok value =>
          have hlast : mayRetry (h.outcomeOfAttempt network request options n) = false := by
            rw [houtcome]
            rfl
          rw [attempts_of_final hlast]
          exact hfinal n retryer hlast
      | error fault =>
          cases hretryable : fault.family.isRetryable with
          | false =>
              have hlast : mayRetry (h.outcomeOfAttempt network request options n) = false := by
                rw [houtcome]
                exact hretryable
              rw [attempts_of_final hlast]
              exact hfinal n retryer hlast
          | true =>
              rcases hnext : retryer.next (h.clock.decidingAfter n) fault with ⟨decision, retryer'⟩
              cases decision with
              | error last =>
                  rw [attempts_of_exhausted houtcome hretryable hnext]
                  exact hexhausted n retryer fault last retryer' houtcome hretryable hnext
              | ok seconds =>
                  cases hrest : resting wait (Clock.firstLook (n + 1)) seconds with
                  | error failure =>
                      rw [attempts_of_unrested houtcome hretryable hnext hrest]
                      exact hunrested n retryer fault seconds retryer' failure houtcome
                        hretryable hnext hrest
                  | ok _ =>
                      have hless : retryer'.remaining < left := by
                        have hstep := @Retryer.remaining_next retryer (h.clock.decidingAfter n)
                          fault seconds (by rw [hnext])
                        rwa [hnext, hleft] at hstep
                      rw [attempts_of_retry houtcome hretryable hnext hrest]
                      exact hretry n retryer fault seconds retryer' houtcome hretryable hnext
                        hrest (ih _ hless (n + 1) retryer' rfl)

/-- What other parties see of an attempt that is logged and of the pause after it. -/
theorem outward_before_next (hlogged : (h.log.request h.key request).outcome = .ok ()) (n : Nat)
    (fault : Fault) (seconds : Quantity) :
    ((h.attempt network request options n).events ++ h.pause fault seconds).filter
        Event.isOutward =
      .sent (h.transport.relay request) options ::
        if (Quantity.whole 0).lt seconds then [.waited seconds] else [] := by
  have hfirst : (h.attempt network request options n).events.filter Event.isOutward =
      [.sent (h.transport.relay request) options] :=
    h.outward_attempt_of_logged network request options n hlogged
  rw [List.filter_append, hfirst, outward_pause]
  rfl

/-- What other parties see first of attempts is the request. -/
theorem outward_attempts_of_logged (hlogged : (h.log.request h.key request).outcome = .ok ())
    (n : Nat) (retryer : Retryer) :
    ∃ later, (h.attempts wait network request options n retryer).outward =
      .sent (h.transport.relay request) options :: later := by
  refine h.attempts_induction wait network request options
    (motive := fun _ _ x => ∃ later, x.outward = .sent (h.transport.relay request) options :: later)
    ?final ?exhausted ?unrested ?retry n retryer
  case final =>
    intro n retryer _
    exact ⟨[], h.outward_attempt_of_logged network request options n hlogged⟩
  case exhausted =>
    intro n retryer fault last retryer' _ _ _
    exact ⟨[], h.outward_attempt_of_logged network request options n hlogged⟩
  case unrested =>
    intro n retryer fault seconds retryer' failure _ _ _ _
    exact ⟨_, h.outward_before_next network request options hlogged n fault seconds⟩
  case retry =>
    intro n retryer fault seconds retryer' _ _ _ _ _
    rw [Traced.outward_after, h.outward_before_next network request options hlogged]
    exact ⟨_, rfl⟩

theorem one_le_sends_attempts (hlogged : (h.log.request h.key request).outcome = .ok ())
    (n : Nat) (retryer : Retryer) :
    1 ≤ (h.attempts wait network request options n retryer).sends := by
  obtain ⟨later, hfirst⟩ :=
    h.outward_attempts_of_logged wait network request options hlogged n retryer
  rw [Traced.sends_eq_countP_outward, hfirst, List.countP_cons]
  exact Nat.le_add_left 1 _

/-- Between the beginnings of two attempts one request is sent. -/
theorem countP_before_next (hlogged : (h.log.request h.key request).outcome = .ok ()) (n : Nat)
    (fault : Fault) (seconds : Quantity) :
    ((h.attempt network request options n).events ++ h.pause fault seconds).countP
      Event.isSent = 1 := by
  have hattempt : (h.attempt network request options n).sends = 1 := by
    rw [Traced.sends_eq_countP_outward,
      h.outward_attempt_of_logged network request options n hlogged]
    rfl
  have hpause : (h.pause fault seconds).countP Event.isSent = 0 := by
    refine List.countP_eq_zero.mpr ?_
    intro e he
    rcases h.mem_pause he with hline | rfl
    · simp [Event.isSent_of_isOutward (Event.isOutward_of_isLine hline)]
    · exact Bool.false_ne_true
  rw [List.countP_append, hpause]
  exact hattempt

/-! ## Attempts that suspend -/

/-- How a process goes on with the outcome of an attempt. -/
def proceeding (retryer : Retryer) : Except Fault Value → Process Value
  | .ok value => .finished (.ok value)
  | .error fault =>
    if !fault.family.isRetryable then .finished (.error fault)
    else
      .looking fun deciding =>
        match retryer.next (h.clock.now deciding) fault with
        | (.error last, _) => .finished (.error (h.exhausted last))
        | (.ok seconds, retryer') =>
          h.pauseProcess fault seconds (h.attemptsProcess request options retryer')

theorem attemptsProcess_eq (retryer : Retryer) :
    h.attemptsProcess request options retryer =
      (h.attemptProcess request options).followedBy (h.proceeding request options retryer) := by
  rw [attemptsProcess]
  congr 1
  funext outcome
  cases outcome with
  | ok value => rfl
  | error fault =>
      unfold proceeding
      dsimp only
      split
      next => rfl
      next =>
        congr 1
        funext deciding
        split
        next last _ heq => rw [heq]
        next seconds retryer' heq => rw [heq]

section Suspended

variable {h wait network request options} {n : Nat} {retryer : Retryer}

theorem proceeding_of_final {outcome : Except Fault Value} (hfinal : mayRetry outcome = false) :
    h.proceeding request options retryer outcome = .finished outcome := by
  cases outcome with
  | ok value => rfl
  | error fault =>
      change fault.family.isRetryable = false at hfinal
      rw [proceeding, hfinal]
      rfl

/-- An attempt takes three looks at the clocks, and the fourth is left to the policy. -/
theorem run_attemptProcess_of_logged
    (hlogged : (h.log.request h.key request).outcome = .ok ())
    (next : Except Fault Value → Process Value) :
    ((h.attemptProcess request options).followedBy next).run wait h.transport network n
        (Clock.firstLook n) =
      ((next (h.outcomeOfAttempt network request options n)).run wait h.transport network (n + 1)
        (Clock.firstLook n + 3)).after (h.attempt network request options n).events := by
  have houtcome : (h.receive (h.clock.sightOf n) n request
      (network n (h.transport.relay request) options)).outcome =
        h.outcomeOfAttempt network request options n := by
    rw [← outcome_attempt, attempt_of_logged h network request options n hlogged]
    rfl
  rw [attempt_of_logged h network request options n hlogged, ← houtcome]
  unfold attemptProcess Process.ofTraced
  rw [hlogged]
  simp only [Process.followedBy, Process.run, Traced.after_after, Traced.events_after,
    List.append_assoc]
  rfl

theorem run_attemptProcess_of_unlogged {fault : Fault} {look : Nat}
    (hunlogged : (h.log.request h.key request).outcome = .error fault)
    (next : Except Fault Value → Process Value) :
    ((h.attemptProcess request options).followedBy next).run wait h.transport network n look =
      ((next (.error fault)).run wait h.transport network n look).after
        (h.attempt network request options n).events := by
  rw [attempt_of_unlogged h network request options n hunlogged]
  unfold attemptProcess Process.ofTraced
  rw [hunlogged]
  rfl

omit [Charsets] in
theorem run_pauseProcess (fault : Fault) (seconds : Quantity) (next : Process Value) (look : Nat) :
    (h.pauseProcess fault seconds next).run wait h.transport network n look =
      (match resting wait look seconds with
        | .ok () => next.run wait h.transport network n look
        | .error failure => Traced.fail failure.fault).after (h.pause fault seconds) := by
  unfold pauseProcess pause resting
  simp only [Process.run]
  split
  · simp only [Process.run, Traced.after_after]
    cases wait look seconds <;> rfl
  · rw [List.append_nil]

/-- An attempt whose request cannot be logged is a last one. -/
theorem mayRetry_of_unlogged {fault : Fault}
    (hunlogged : (h.log.request h.key request).outcome = .error fault) :
    mayRetry (h.outcomeOfAttempt network request options n) = false := by
  unfold outcomeOfAttempt
  rw [hunlogged]
  exact ExchangeLog.isRetryable_of_request_error hunlogged

/-- Nothing is sent when the request cannot be logged. -/
theorem attempts_of_unlogged {fault : Fault}
    (hunlogged : (h.log.request h.key request).outcome = .error fault) :
    (h.attempts wait network request options n retryer).outward = [] := by
  rw [attempts_of_final (mayRetry_of_unlogged hunlogged)]
  exact outward_attempt_of_unlogged _ _ _ _ _ hunlogged

/-- The request of an attempt that may be retried was logged. -/
theorem logged_of_retryable {fault : Fault}
    (hfault : h.outcomeOfAttempt network request options n = .error fault)
    (hretryable : fault.family.isRetryable = true) :
    (h.log.request h.key request).outcome = .ok () := by
  cases hlog : (h.log.request h.key request).outcome with
  | ok _ => rfl
  | error other =>
      have hfinal : mayRetry (h.outcomeOfAttempt network request options n) = false :=
        mayRetry_of_unlogged hlog
      rw [hfault, mayRetry, hretryable] at hfinal
      cases hfinal

/-- A process whose attempt may be retried leaves it to the policy how it goes on. -/
theorem run_attemptsProcess_of_retryable {fault : Fault}
    (hfault : h.outcomeOfAttempt network request options n = .error fault)
    (hretryable : fault.family.isRetryable = true) :
    (h.attemptsProcess request options retryer).run wait h.transport network n
        (Clock.firstLook n) =
      (match retryer.next (h.clock.decidingAfter n) fault with
        | (.error last, _) => Traced.lift (.error (h.exhausted last))
        | (.ok seconds, retryer') =>
          (h.pauseProcess fault seconds (h.attemptsProcess request options retryer')).run wait
            h.transport network (n + 1) (Clock.firstLook (n + 1))).after
              (h.attempt network request options n).events := by
  rw [attemptsProcess_eq,
    run_attemptProcess_of_logged (logged_of_retryable hfault hretryable), hfault, proceeding,
    hretryable]
  simp only [Bool.not_true, Bool.false_eq_true, if_false, Process.run]
  unfold Clock.decidingAfter
  cases retryer.next (h.clock.now (Clock.firstLook n + 3)) fault with
  | mk decision retryer' => cases decision <;> rfl

end Suspended

/-- Attempts that suspend do the same as attempts that wait, if their waits come out alike. -/
theorem run_attemptsProcess (n : Nat) (retryer : Retryer) :
    (h.attemptsProcess request options retryer).run wait h.transport network n
        (Clock.firstLook n) =
      h.attempts wait network request options n retryer := by
  refine h.attempts_induction wait network request options
    (motive := fun n retryer x =>
      (h.attemptsProcess request options retryer).run wait h.transport network n
        (Clock.firstLook n) = x) ?final ?exhausted ?unrested ?retry n retryer
  case final =>
    intro n retryer hfinal
    rw [attemptsProcess_eq]
    -- A process that is finished by the log never asks the transport for anything.
    cases hlog : (h.log.request h.key request).outcome with
    | error fault =>
        have hlast : mayRetry (.error fault) = false :=
          ExchangeLog.isRetryable_of_request_error hlog
        rw [run_attemptProcess_of_unlogged hlog, proceeding_of_final hlast,
          attempt_of_unlogged h network request options n hlog]
        exact Traced.ext rfl (List.append_nil _)
    | ok _ =>
        rw [run_attemptProcess_of_logged hlog, proceeding_of_final hfinal, ← outcome_attempt]
        exact Traced.ext rfl (List.append_nil _)
  case exhausted =>
    intro n retryer fault last retryer' hfault hretryable hnext
    rw [run_attemptsProcess_of_retryable hfault hretryable, hnext]
    exact Traced.ext rfl (List.append_nil _)
  case unrested =>
    intro n retryer fault seconds retryer' failure hfault hretryable hnext hunrested
    rw [run_attemptsProcess_of_retryable hfault hretryable, hnext]
    dsimp only
    rw [run_pauseProcess, hunrested, Traced.after_after]
    exact Traced.ext rfl (List.append_nil _)
  case retry =>
    intro n retryer fault seconds retryer' hfault hretryable hnext hrested ih
    rw [run_attemptsProcess_of_retryable hfault hretryable, hnext]
    dsimp only
    rw [run_pauseProcess, hrested]
    dsimp only
    rw [ih, Traced.after_after]

/-! ## Calls -/

/-- What the waits of the calls of a handler come to. -/
def waits : Waiting :=
  if h.transport.isAsync then h.clock.suspend else h.clock.sleep

section Prepared

variable {h network request options} {n : Nat} {arguments : List Value}

theorem invoke_of_unprepared {fault : Fault} (hprepare : h.prepare arguments = .error fault) :
    h.invoke network n arguments = .fail fault := by
  unfold invoke
  rw [hprepare]

theorem invoke_of_prepared (hprepare : h.prepare arguments = .ok (request, options)) :
    h.invoke network n arguments =
      h.attempts h.clock.sleep network request options n h.retryer.fresh := by
  unfold invoke
  rw [hprepare]

theorem call_of_unprepared {fault : Fault} (hprepare : h.prepare arguments = .error fault) :
    h.call network n arguments = .fail fault := by
  unfold call
  split
  next =>
    unfold invokeSuspended invokeProcess
    rw [hprepare]
    rfl
  next => exact invoke_of_unprepared hprepare

/-- A call is its attempts on a transport of either kind, with the waits of that kind. -/
theorem call_of_prepared (hprepare : h.prepare arguments = .ok (request, options)) :
    h.call network n arguments =
      h.attempts h.waits network request options n h.retryer.fresh := by
  unfold call waits
  split
  next =>
    unfold invokeSuspended invokeProcess
    rw [hprepare]
    exact h.run_attemptsProcess h.clock.suspend network request options n h.retryer.fresh
  next => exact invoke_of_prepared hprepare

end Prepared

end Handler

end HttpBinding
