import HttpBinding.Client.Basic
import HttpBinding.Octets.Charset
import HttpBinding.Proofs.Exchange.Fetching
import HttpBinding.Proofs.Exchange.Succession
import HttpBinding.Proofs.Retryer.Decision

/-!
# Calls that are waited for

The same handler may be given a transport that waits or one that suspends. Its attempts are
then made by a loop or by a process that somebody runs, and the caller has the result at once
or waits for it. What happens in the course of a call is the same in both cases as long as the
waits come out alike, and so is what it comes to, but for one kind of fault that cannot leave a
process as it is. A wait that comes out differently is where two calls part.
-/

namespace HttpBinding

/-- What happens first in a run, and, if the wait that comes then fails, how the run ends. -/
structure Traced.ComesTo {α : Type} (x : Traced α) (events : List Event)
    (rest : Except Fault Unit) : Prop where
  begins : events <+: x.events
  ends : ∀ fault, rest = .error fault → x.events = events ∧ x.outcome = .error fault

theorem Traced.ComesTo.after {α : Type} {x : Traced α} {events : List Event}
    {rest : Except Fault Unit} (hx : x.ComesTo events rest) (earlier : List Event) :
    (x.after earlier).ComesTo (earlier ++ events) rest where
  begins := (List.prefix_append_right_inj earlier).mpr hx.begins
  ends fault hfault := by
    obtain ⟨hevents, houtcome⟩ := hx.ends fault hfault
    exact ⟨by rw [events_after, hevents], houtcome⟩

/-- Who waits for a run that fails with a wait is told of that as of any fault. -/
theorem Traced.ComesTo.awaited {α : Type} {x : Traced α} {events : List Event}
    {rest : Except Fault Unit} (hx : x.ComesTo events rest) :
    x.awaited.ComesTo events (rest.mapError Fault.leaving) where
  begins := hx.begins
  ends fault hfault := by
    cases rest with
    | ok _ => cases hfault
    | error cause =>
        obtain ⟨hevents, houtcome⟩ := hx.ends cause rfl
        refine ⟨hevents, ?_⟩
        rw [Traced.awaited, houtcome]
        exact congrArg Except.error (Except.error.inj hfault)

namespace Handler

theorem pause_of_lt (h : Handler) (fault : Fault) {seconds : Quantity}
    (htime : (Quantity.whole 0).lt seconds = true) :
    h.pause fault seconds = h.log.retry h.key fault seconds ++ [.waited seconds] := by
  rw [pause, htime, if_pos rfl]

theorem resting_of_lt (wait : Waiting) (look : Nat) {seconds : Quantity}
    (htime : (Quantity.whole 0).lt seconds = true) :
    resting wait look seconds = wait look seconds :=
  if_pos htime

/-- Two kinds of waits can differ in how a time passes only if it takes time. -/
theorem lt_of_resting_ne {wait wait' : Waiting} {look : Nat} {seconds : Quantity}
    (hdiffer : resting wait look seconds ≠ resting wait' look seconds) :
    (Quantity.whole 0).lt seconds = true := by
  by_contra hnone
  refine hdiffer ?_
  rw [resting, resting, if_neg hnone, if_neg hnone]

/-- The handler with a transport that suspends or waits and is otherwise its own. -/
def inMode (h : Handler) (isAsync : Bool) : Handler :=
  { h with transport := { h.transport with isAsync := isAsync } }

/--
Two runs of the same attempts with waits of two kinds: they are the same, or they part at a wait
that comes out differently.
-/
def SameOrPart (wait wait' : Waiting) (x x' : Traced Value) : Prop :=
  x = x' ∨ ∃ look seconds before, wait look seconds ≠ wait' look seconds ∧
    x.ComesTo (before ++ [.waited seconds]) ((wait look seconds).mapError Failure.fault) ∧
    x'.ComesTo (before ++ [.waited seconds]) ((wait' look seconds).mapError Failure.fault)

theorem SameOrPart.after {wait wait' : Waiting} {x x' : Traced Value}
    (hruns : SameOrPart wait wait' x x') (earlier : List Event) :
    SameOrPart wait wait' (x.after earlier) (x'.after earlier) := by
  rcases hruns with rfl | ⟨look, seconds, before, hdiffer, hx, hx'⟩
  · exact Or.inl rfl
  · refine Or.inr ⟨look, seconds, earlier ++ before, hdiffer, ?_, ?_⟩
    · rw [List.append_assoc]
      exact hx.after earlier
    · rw [List.append_assoc]
      exact hx'.after earlier

section Modes

variable [Charsets] {h : Handler} {wait : Waiting} {network : Network} {request : Request}
  {options : Value} {n : Nat} {arguments : List Value} {retryer : Retryer}

/-- Attempts that go on as far as a wait come to it, whatever it comes to. -/
theorem attempts_comesTo {fault : Fault} {seconds : Quantity} {retryer' : Retryer}
    (hfault : h.outcomeOfAttempt network request options n = .error fault)
    (hretryable : fault.family.isRetryable = true)
    (hnext : retryer.next (h.clock.decidingAfter n) fault = (.ok seconds, retryer'))
    (htime : (Quantity.whole 0).lt seconds = true) :
    (h.attempts wait network request options n retryer).ComesTo
      (((h.attempt network request options n).events ++ h.log.retry h.key fault seconds) ++
        [.waited seconds])
      ((wait (Clock.firstLook (n + 1)) seconds).mapError Failure.fault) := by
  have hpause : (h.attempt network request options n).events ++ h.pause fault seconds =
      ((h.attempt network request options n).events ++ h.log.retry h.key fault seconds) ++
        [.waited seconds] := by
    rw [pause_of_lt h fault htime, List.append_assoc]
  cases hwait : wait (Clock.firstLook (n + 1)) seconds with
  | ok _ =>
      rw [attempts_of_retry hfault hretryable hnext ((resting_of_lt wait _ htime).trans hwait),
        hpause]
      exact ⟨List.prefix_append _ _, fun _ habsurd => by cases habsurd⟩
  | error failure =>
      rw [attempts_of_unrested hfault hretryable hnext ((resting_of_lt wait _ htime).trans hwait),
        hpause]
      exact ⟨List.prefix_refl _, fun _ hfailure => ⟨rfl, congrArg _ (Except.error.inj hfailure)⟩⟩

/-- Attempts with waits of two kinds part where these come out differently. -/
theorem attempts_sameOrPart (h : Handler) (wait wait' : Waiting) (network : Network)
    (request : Request) (options : Value) (n : Nat) (retryer : Retryer) :
    SameOrPart wait wait' (h.attempts wait network request options n retryer)
      (h.attempts wait' network request options n retryer) := by
  -- A wait that comes out differently ends the induction, and so does one that fails alike.
  have hparts : ∀ {n retryer fault seconds retryer'},
      h.outcomeOfAttempt network request options n = .error fault →
      fault.family.isRetryable = true →
      retryer.next (h.clock.decidingAfter n) fault = (.ok seconds, retryer') →
      resting wait (Clock.firstLook (n + 1)) seconds ≠
        resting wait' (Clock.firstLook (n + 1)) seconds →
      SameOrPart wait wait' (h.attempts wait network request options n retryer)
        (h.attempts wait' network request options n retryer) := by
    intro n retryer fault seconds retryer' hfault hretryable hnext hdiffer
    have htime := lt_of_resting_ne hdiffer
    rw [resting_of_lt wait _ htime, resting_of_lt wait' _ htime] at hdiffer
    exact Or.inr ⟨_, seconds, _, hdiffer, attempts_comesTo hfault hretryable hnext htime,
      attempts_comesTo hfault hretryable hnext htime⟩
  refine h.attempts_induction wait network request options
    (motive := fun n retryer _ => SameOrPart wait wait'
      (h.attempts wait network request options n retryer)
      (h.attempts wait' network request options n retryer)) ?final ?exhausted ?unrested ?retry n
    retryer
  case final =>
    intro n retryer hfinal
    rw [attempts_of_final hfinal, attempts_of_final hfinal]
    exact Or.inl rfl
  case exhausted =>
    intro n retryer fault last retryer' hfault hretryable hnext
    rw [attempts_of_exhausted hfault hretryable hnext, attempts_of_exhausted hfault hretryable hnext]
    exact Or.inl rfl
  case unrested =>
    intro n retryer fault seconds retryer' failure hfault hretryable hnext hunrested
    by_cases hsame : resting wait (Clock.firstLook (n + 1)) seconds =
        resting wait' (Clock.firstLook (n + 1)) seconds
    · rw [attempts_of_unrested hfault hretryable hnext hunrested,
        attempts_of_unrested hfault hretryable hnext (hsame.symm.trans hunrested)]
      exact Or.inl rfl
    · exact hparts hfault hretryable hnext hsame
  case retry =>
    intro n retryer fault seconds retryer' hfault hretryable hnext hrested ih
    by_cases hsame : resting wait (Clock.firstLook (n + 1)) seconds =
        resting wait' (Clock.firstLook (n + 1)) seconds
    · rw [attempts_of_retry hfault hretryable hnext hrested,
        attempts_of_retry hfault hretryable hnext (hsame.symm.trans hrested)]
      exact ih.after _
    · exact hparts hfault hretryable hnext hsame

/-- No attempt asks how its transport works. -/
theorem attempts_inMode (isAsync : Bool) (n : Nat) (retryer : Retryer) :
    (h.inMode isAsync).attempts wait network request options n retryer =
      h.attempts wait network request options n retryer := by
  refine h.attempts_induction wait network request options
    (motive := fun n retryer x =>
      (h.inMode isAsync).attempts wait network request options n retryer = x)
    ?final ?exhausted ?unrested ?retry n retryer
  case final =>
    intro n retryer hfinal
    exact attempts_of_final (h := h.inMode isAsync) hfinal
  case exhausted =>
    intro n retryer fault last retryer' hfault hretryable hnext
    exact attempts_of_exhausted (h := h.inMode isAsync) hfault hretryable hnext
  case unrested =>
    intro n retryer fault seconds retryer' failure hfault hretryable hnext hunrested
    exact attempts_of_unrested (h := h.inMode isAsync) hfault hretryable hnext hunrested
  case retry =>
    intro n retryer fault seconds retryer' hfault hretryable hnext hrested ih
    rw [attempts_of_retry (h := h.inMode isAsync) hfault hretryable hnext hrested, ih]
    rfl

theorem call_inMode_of_prepared (isAsync : Bool)
    (hprepare : h.prepare arguments = .ok (request, options)) :
    (h.inMode isAsync).call network n arguments =
      h.attempts (h.inMode isAsync).waits network request options n h.retryer.fresh := by
  have hprepared : (h.inMode isAsync).prepare arguments = .ok (request, options) := hprepare
  rw [call_of_prepared hprepared]
  exact attempts_inMode isAsync n h.retryer.fresh

/-- Calls on transports of the two kinds are the same or part at a wait. -/
theorem call_sameOrPart (h : Handler) (network : Network) (n : Nat) (arguments : List Value) :
    SameOrPart h.clock.sleep h.clock.suspend ((h.inMode false).call network n arguments)
      ((h.inMode true).call network n arguments) := by
  cases hprepare : h.prepare arguments with
  | error fault =>
      have hprepared : ∀ isAsync, (h.inMode isAsync).prepare arguments = .error fault :=
        fun _ => hprepare
      rw [call_of_unprepared (hprepared false), call_of_unprepared (hprepared true)]
      exact Or.inl rfl
  | ok prepared =>
      rw [call_inMode_of_prepared false hprepare, call_inMode_of_prepared true hprepare]
      exact h.attempts_sameOrPart h.clock.sleep h.clock.suspend network _ _ n h.retryer.fresh

/-- What a call comes to for who waits for its result. -/
def awaitedCall (h : Handler) (network : Network) (n : Nat) (arguments : List Value) :
    Traced Value :=
  (Client.send h network n arguments).andThen Client.Reply.await

/-- On a transport that waits there is nothing more to wait for. -/
theorem awaitedCall_of_waiting (hwaits : h.transport.isAsync = false) :
    h.awaitedCall network n arguments = h.call network n arguments := by
  unfold awaitedCall Client.send
  rw [hwaits]
  cases houtcome : (h.call network n arguments).outcome with
  | error fault =>
      refine Traced.ext ?_ ?_ <;> simp [Traced.andThen, houtcome]
  | ok value =>
      refine Traced.ext ?_ ?_ <;>
        simp [Traced.andThen, houtcome, Client.Reply.await, Traced.ofValue]

theorem awaitedCall_of_suspending (hsuspends : h.transport.isAsync = true) :
    h.awaitedCall network n arguments = (h.call network n arguments).awaited := by
  unfold awaitedCall Client.send
  rw [hsuspends]
  rfl

/--
A call does the same on a transport that suspends as on one that waits: the same events happen
in the same order, and it comes to the same value or fault. Only a fault that says that nothing
more follows leaves it as a fault of the run-time system that was raised from it. The two calls
part at a wait that is not the same for who waits and for who suspends: up to that wait the same
events happen, and who fails to wait ends there with that failure.
-/
theorem awaitedCall_inMode (h : Handler) (network : Network) (n : Nat) (arguments : List Value) :
    (((h.inMode true).awaitedCall network n arguments).events =
        ((h.inMode false).awaitedCall network n arguments).events ∧
      ((h.inMode true).awaitedCall network n arguments).outcome =
        match ((h.inMode false).awaitedCall network n arguments).outcome with
        | .ok value => .ok value
        | .error fault =>
          .error (if fault.family.kin = .stop then
            (Fault.runtime "RuntimeError").raisedFrom fault else fault)) ∨
    ∃ look seconds before, h.clock.sleep look seconds ≠ h.clock.suspend look seconds ∧
      ((h.inMode false).awaitedCall network n arguments).ComesTo (before ++ [.waited seconds])
        ((h.clock.sleep look seconds).mapError Failure.fault) ∧
      ((h.inMode true).awaitedCall network n arguments).ComesTo (before ++ [.waited seconds])
        ((h.clock.suspend look seconds).mapError fun failure => failure.fault.leaving) := by
  rw [awaitedCall_of_waiting (h := h.inMode false) rfl,
    awaitedCall_of_suspending (h := h.inMode true) rfl]
  rcases h.call_sameOrPart network n arguments with
    hsame | ⟨look, seconds, before, hdiffer, hwaiting, hsuspending⟩
  · rw [← hsame]
    refine Or.inl ⟨rfl, ?_⟩
    unfold Traced.awaited Fault.leaving
    cases ((h.inMode false).call network n arguments).outcome <;> rfl
  · refine Or.inr ⟨look, seconds, before, hdiffer, hwaiting, ?_⟩
    have hawaited := hsuspending.awaited
    cases hwait : h.clock.suspend look seconds with
    | ok _ =>
        rw [hwait] at hawaited
        exact hawaited
    | error failure =>
        rw [hwait] at hawaited
        exact hawaited

end Modes

/-! ## A fault that does not leave as it is, and a wait that is not the same -/

open scoped CommonCharsets

/-- The fault that says that nothing more follows. -/
def stop : Fault :=
  .foreign "StopIteration" "stop"

/-- A handler with an interceptor that fails in this way. -/
def stopping : Handler :=
  fetching { plainSettings .none with
    interceptors := [⟨"StoppingInterceptor", fun t => (t, some stop)⟩] } .any

theorem call_stopping (isAsync : Bool) (network : Network) (n : Nat) (arguments : List Value) :
    (stopping.inMode isAsync).call network n arguments = .fail stop := by
  refine call_of_unprepared ?_
  change stopping.prepare arguments = _
  unfold stopping
  rw [prepare_fetching]
  rfl

/-- A network that never answers. -/
def unreachable : Network := fun _ _ _ => .error (.runtime "ConnectionError")

/--
Waits of a run-time system that counts the nanoseconds of a wait in 63 bits, unless others go on
meanwhile.
-/
def nanosecondClock : Clock :=
  { Clock.still ⟨0, some 0⟩ with
    sleep := fun _ seconds =>
      if (Quantity.whole 0x225C17D04).lt seconds then .error (.runtime "OverflowError") else .ok () }

/-- A wait of more than three hundred years. -/
def centuries : Quantity :=
  .whole 10000000000

/-- Two attempts at the most, centuries apart. -/
def twoAttemptsApart : Backoff where
  period := .int 10000000000
  maxPeriod := .int 10000000000
  maxAttempts := .whole 2

/-- A handler that makes the second attempt after such a time. -/
def lingering : Handler :=
  fetching { plainSettings .none with
    retryer := .backoff twoAttemptsApart
    clock := nanosecondClock } .any

/-- The fault of an attempt that nobody answers. -/
def unanswered : Fault :=
  transportFault fetchingRequest (.runtime "ConnectionError")

theorem next_twoAttemptsApart (now : Moment) : ∃ slept,
    twoAttemptsApart.next now unanswered =
      (.ok centuries, { twoAttemptsApart.advanced with sleptFor := slept }) := by
  have hleft : twoAttemptsApart.isExhausted = false := by decide +kernel
  have hnamed : twoAttemptsApart.advanced.nextInterval = .ok centuries := by decide +kernel
  have hinterval : twoAttemptsApart.advanced.interval now unanswered = .ok centuries := hnamed
  have hreal : centuries.IsReal := by
    unfold Quantity.IsReal
    decide +kernel
  obtain ⟨slept, hslept⟩ := @Backoff.waiting_eq_ok twoAttemptsApart.advanced centuries hreal
  refine ⟨slept, ?_⟩
  unfold Backoff.next
  rw [hleft, hinterval]
  simp only [Bool.false_eq_true, if_false, hslept]

theorem outcomeOfAttempt_lingering (n : Nat) :
    lingering.outcomeOfAttempt unreachable fetchingRequest (Options.toValue {}) n =
      .error unanswered := by
  have hlogged : (lingering.log.request lingering.key fetchingRequest).outcome = .ok () := by
    rw [ExchangeLog.outcome_request]
    rfl
  unfold outcomeOfAttempt
  rw [hlogged]
  rfl

theorem call_lingering (isAsync : Bool) :
    (lingering.inMode isAsync).call unreachable 0 [] =
      lingering.attempts (lingering.inMode isAsync).waits unreachable fetchingRequest
        (Options.toValue {}) 0 (.backoff twoAttemptsApart) :=
  call_inMode_of_prepared isAsync (prepare_fetching_of_unchanged rfl [])

theorem outcome_call_lingering_waiting :
    ((lingering.inMode false).call unreachable 0 []).outcome =
      .error (.runtime "OverflowError") := by
  obtain ⟨slept, hnext⟩ := next_twoAttemptsApart (lingering.clock.decidingAfter 0)
  have hfailed : resting lingering.clock.sleep (Clock.firstLook 1) centuries =
      .error (.runtime "OverflowError") := by decide +kernel
  rw [call_lingering]
  change (lingering.attempts lingering.clock.sleep _ _ _ _ _).outcome = _
  rw [attempts_of_unrested (outcomeOfAttempt_lingering 0) rfl (Retryer.next_backoff hnext) hfailed]
  rfl

theorem outcome_call_lingering_suspending :
    ((lingering.inMode true).call unreachable 0 []).outcome = .error unanswered := by
  obtain ⟨slept, hnext⟩ := next_twoAttemptsApart (lingering.clock.decidingAfter 0)
  have hpassed : resting lingering.clock.suspend (Clock.firstLook 1) centuries = .ok () := by
    decide +kernel
  have hlast := Backoff.next_of_exhausted (b := { twoAttemptsApart.advanced with sleptFor := slept })
    (lingering.clock.decidingAfter 1) unanswered rfl
  rw [call_lingering]
  change (lingering.attempts lingering.clock.suspend _ _ _ _ _).outcome = _
  rw [attempts_of_retry (outcomeOfAttempt_lingering 0) rfl (Retryer.next_backoff hnext) hpassed,
    attempts_of_exhausted (outcomeOfAttempt_lingering 1) rfl (Retryer.next_backoff hlast)]
  rfl

/--
Whether the transport suspends decides which fault leaves the call where nothing more follows, and
whether there is a second attempt after a time that only a process lets pass.
-/
theorem awaitedCall_inMode_stopping :
    (((stopping.inMode false).awaitedCall unreachable 0 []).outcome = .error stop ∧
      ((stopping.inMode true).awaitedCall unreachable 0 []).outcome =
        .error ((Fault.runtime "RuntimeError").raisedFrom stop) ∧
      (Fault.runtime "RuntimeError").raisedFrom stop ≠ stop) ∧
    ((lingering.inMode false).awaitedCall unreachable 0 []).outcome =
        .error (.runtime "OverflowError") ∧
      ((lingering.inMode true).awaitedCall unreachable 0 []).outcome = .error unanswered ∧
      unanswered ≠ .runtime "OverflowError" := by
  rw [awaitedCall_of_waiting (h := stopping.inMode false) rfl,
    awaitedCall_of_suspending (h := stopping.inMode true) rfl, call_stopping, call_stopping,
    awaitedCall_of_waiting (h := lingering.inMode false) rfl,
    awaitedCall_of_suspending (h := lingering.inMode true) rfl]
  refine ⟨⟨rfl, rfl, by decide⟩, outcome_call_lingering_waiting, ?_, by decide⟩
  rw [Traced.awaited, outcome_call_lingering_suspending]
  rfl

end Handler

end HttpBinding
