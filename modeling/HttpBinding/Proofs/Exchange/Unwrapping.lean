import HttpBinding.Octets.Charset
import HttpBinding.Proofs.Exchange.ReferenceRun

/-!
# Which fault leaves a call

A client that unwraps faults is told what lies under the fault of the last attempt. When the
attempts are used up that is so: the fault that the retry policy gives up on is left out, and
the one it was raised from leaves the call. A fault of a decoder is not taken apart, though:
the handler adds nothing to it, and it leaves the call as the decoder raised it, be it of the
decoder's own making or raised from another fault.
-/

namespace HttpBinding

theorem Fault.cause?_ne {fault cause : Fault} (hcause : fault.cause? = some cause) :
    fault ≠ cause := by
  rintro rfl
  unfold cause? at hcause
  split at hcause
  next => cases hcause
  next trouble rest hcauses =>
    have hlength := congrArg (fun fault => fault.causes.length) (Option.some.inj hcause)
    rw [hcauses] at hlength
    exact absurd hlength (by simp)

/-- A policy that goes on counts one more attempt and stays as it is otherwise. -/
theorem Backoff.next_eq_ok {b b' : Backoff} {now : Moment} {fault : Fault} {seconds : Quantity}
    (hnext : b.next now fault = (.ok seconds, b')) :
    b' = { b.advanced with sleptFor := b'.sleptFor } := by
  unfold next at hnext
  split at hnext
  · cases hnext
  · split at hnext
    next wait _ =>
      split at hnext
      next waited hwaited =>
        obtain ⟨-, rfl⟩ := Prod.mk.inj hnext
        exact eq_of_waiting hwaited
      next => cases hnext
    next => cases hnext

/-- Whether a policy allows no attempt after a number of attempts besides the first one. -/
def Retryer.isExhaustedAfter : Retryer → Nat → Bool
  | never, _ => true
  | backoff b, count => (b.afterAttempts count).isExhausted

theorem Retryer.next_of_isExhaustedAfter {r : Retryer} (now : Moment) (fault : Fault)
    (hexhausted : r.isExhaustedAfter 0 = true) : (r.next now fault).1 = .error fault := by
  cases r with
  | never => rfl
  | backoff b =>
      have hnone : b.isExhausted = true := hexhausted
      rw [next_backoff (Backoff.next_of_exhausted now fault hnone)]

theorem Retryer.isExhaustedAfter_next {r r' : Retryer} {now : Moment} {fault : Fault}
    {seconds : Quantity} (hnext : r.next now fault = (.ok seconds, r')) (count : Nat) :
    r'.isExhaustedAfter count = r.isExhaustedAfter (count + 1) := by
  cases r with
  | never => cases hnext
  | backoff b =>
      rcases hb : b.next now fault with ⟨decision, b'⟩
      rw [next_backoff hb] at hnext
      obtain ⟨rfl, rfl⟩ := Prod.mk.inj hnext
      change (b'.afterAttempts count).isExhausted = (b.afterAttempts (count + 1)).isExhausted
      rw [Backoff.next_eq_ok hb, Backoff.afterAttempts_succ]
      rfl

namespace Handler

section Calls

variable [Charsets]

/-- The last attempt of a call, which sends the request as number `k`, ends in a fault. -/
structure EndsIn (h : Handler) (network : Network) (n : Nat) (arguments : List Value) (k : Nat)
    (request : Request) (options : Value) (fault : Fault) : Prop where
  prepared : h.prepare arguments = .ok (request, options)
  failed : h.outcomeOfAttempt network request options k = .error fault
  first_le : n ≤ k
  last : (h.call network n arguments).sends = k + 1 - n

/-- The decoder of a handler fails on the answer to the request that is sent as number `k`. -/
structure FailsInDecoder (h : Handler) (network : Network) (request : Request) (options : Value)
    (k : Nat) (fault : Fault) : Prop where
  decoded : ∃ response logged, network k (h.transport.relay request) options = .ok response ∧
    (h.log.response h.key k (h.clock.sightOf k).elapsed (heldBy k response)).outcome = .ok logged ∧
    h.decodes logged.status = .ok true ∧
    h.decoder.decode (logged.answering request) h.plan.returns = .error fault
  returnsValue : h.plan.returns.isNull = false
  returnsNoResponse : h.plan.returns.isResponse = false

variable {h : Handler} {wait : Waiting} {network : Network} {request : Request} {options : Value}
  {n k : Nat} {arguments : List Value} {fault cause : Fault}

theorem sends_attempt_le (h : Handler) (network : Network) (request : Request) (options : Value)
    (n : Nat) : (h.attempt network request options n).sends ≤ 1 := by
  cases hlog : (h.log.request h.key request).outcome with
  | ok _ =>
      rw [Traced.sends_eq_countP_outward,
        h.outward_attempt_of_logged network request options n hlog]
      exact Nat.le_refl 1
  | error trouble =>
      rw [Traced.sends_eq_countP_outward,
        h.outward_attempt_of_unlogged network request options n hlog]
      exact Nat.zero_le 1

/--
Attempts of which the one with number `k` is the last come to its fault, or to what is under it if
that is to be told, as long as a fault that may be retried is the last that the policy allows.
-/
theorem outcome_attempts_of_last (hle : n ≤ k)
    (hfault : h.outcomeOfAttempt network request options k = .error fault) (retryer : Retryer)
    (hexhausted : fault.family.isRetryable = true → retryer.isExhaustedAfter (k - n) = true)
    (hlast : (h.attempts wait network request options n retryer).sends = k + 1 - n) :
    (h.attempts wait network request options n retryer).outcome =
      .error (h.exhausted fault) := by
  -- Every attempt before the last one sends a request and uses up one that the policy allows.
  refine h.attempts_induction wait network request options
    (motive := fun n retryer x => n ≤ k →
      (fault.family.isRetryable = true → retryer.isExhaustedAfter (k - n) = true) →
      x.sends = k + 1 - n → x.outcome = .error (h.exhausted fault))
    ?final ?exhausted ?unrested ?retry n retryer hle hexhausted hlast
  case final =>
    intro n retryer hfinal hle _ hlast
    have hsends := h.sends_attempt_le network request options n
    obtain rfl : k = n := by omega
    rw [hfault] at hfinal
    rw [outcome_attempt, hfault, exhausted_of_final hfinal]
  case exhausted =>
    intro n retryer fault' last retryer' hfault' hretryable hnext hle hexhausted hlast
    have hsends := h.sends_attempt_le network request options n
    change (h.attempt network request options n).sends = k + 1 - n at hlast
    obtain rfl : k = n := by omega
    obtain rfl : fault = fault' := Except.error.inj (hfault.symm.trans hfault')
    rw [Nat.sub_self] at hexhausted
    have hgiven := Retryer.next_of_isExhaustedAfter (h.clock.decidingAfter k) fault
      (hexhausted hretryable)
    rw [hnext] at hgiven
    obtain rfl : last = fault := Except.error.inj hgiven
    rfl
  case unrested =>
    -- A wait is named only by a policy that allows another attempt.
    intro n retryer fault' seconds retryer' failure hfault' hretryable hnext _ hle hexhausted hlast
    have hlogged := logged_of_retryable hfault' hretryable
    have hone := h.countP_before_next network request options hlogged n fault' seconds
    obtain rfl : k = n := by
      have hsends := hone.symm.trans hlast
      omega
    obtain rfl : fault = fault' := Except.error.inj (hfault.symm.trans hfault')
    rw [Nat.sub_self] at hexhausted
    have hgiven := Retryer.next_of_isExhaustedAfter (h.clock.decidingAfter k) fault
      (hexhausted hretryable)
    rw [hnext] at hgiven
    cases hgiven
  case retry =>
    intro n retryer fault' seconds retryer' hfault' hretryable hnext _ ih hle hexhausted hlast
    have hlogged := logged_of_retryable hfault' hretryable
    rw [Traced.sends_after, h.countP_before_next network request options hlogged] at hlast
    have hmore := h.one_le_sends_attempts wait network request options hlogged (n + 1) retryer'
    refine ih (by omega) ?_ (by omega)
    intro hmay
    rw [Retryer.isExhaustedAfter_next hnext, show k - (n + 1) + 1 = k - n by omega]
    exact hexhausted hmay

/-- The last attempt of a call has sent its request, and so the request was logged. -/
theorem EndsIn.logged (hends : h.EndsIn network n arguments k request options fault) :
    (h.log.request h.key request).outcome = .ok () := by
  cases hlog : (h.log.request h.key request).outcome with
  | ok _ => rfl
  | error trouble =>
      have hlast := hends.last
      have hfirst := hends.first_le
      rw [call_of_prepared hends.prepared, Traced.sends_eq_countP_outward,
        attempts_of_unlogged hlog] at hlast
      change 0 = k + 1 - n at hlast
      omega

theorem outcome_call_of_endsIn
    (hends : h.EndsIn network n arguments k request options fault)
    (hexhausted : fault.family.isRetryable = true →
      h.retryer.fresh.isExhaustedAfter (k - n) = true) :
    (h.call network n arguments).outcome = .error (h.exhausted fault) := by
  have hlast := hends.last
  rw [call_of_prepared hends.prepared] at hlast ⊢
  exact outcome_attempts_of_last hends.first_le hends.failed _ hexhausted hlast

/-- A handler that unwraps faults adds nothing to the one that its decoder raises. -/
theorem outcomeOfAttempt_of_failsInDecoder (hpolicy : h.policy = .unwrap)
    (hlogged : (h.log.request h.key request).outcome = .ok ())
    (hfails : h.FailsInDecoder network request options k fault) :
    h.outcomeOfAttempt network request options k = .error fault := by
  obtain ⟨response, logged, hanswer, hread, hdecodes, hdecode⟩ := hfails.decoded
  have hjudge : (h.judge (h.clock.sightOf k).now request (logged.answering request)).1 =
      .error fault := by
    have hraised : h.decode request (logged.answering request) = .error fault := by
      unfold decode
      rw [hdecode, hpolicy]
      simp
    have hstatus : h.decodes (logged.answering request).status = .ok true := hdecodes
    unfold judge
    rw [hfails.returnsNoResponse, hstatus, hfails.returnsValue, hraised]
    rfl
  unfold outcomeOfAttempt
  rw [hlogged, hanswer]
  change (h.log.response h.key k (h.clock.sightOf k).elapsed (heldBy k response)).outcome.bind _ = _
  rw [hread]
  exact hjudge

/--
The fault that ends a call of a client that unwraps faults is the one that the fault of the last
attempt was raised from just in case the latter may be retried, so that the attempts are used up.
What the system reports of a lost connection leaves the call in that way. A fault that may not be
retried leaves the call as it is, and if a decoder raised it, it is the fault of the decoder itself.
-/
theorem outcome_call_of_unwrap (hpolicy : h.policy = .unwrap)
    (hends : h.EndsIn network n arguments k request options fault)
    (hexhausted : fault.family.isRetryable = true →
      h.retryer.fresh.isExhaustedAfter (k - n) = true)
    (hcause : fault.cause? = some cause) :
    ((h.call network n arguments).outcome = .error cause ↔ fault.family.isRetryable = true) ∧
      (fault.family.isRetryable = false → (h.call network n arguments).outcome = .error fault) ∧
      (∀ raised, h.FailsInDecoder network request options k raised → fault = raised) ∧
      ∀ lost, network k (h.transport.relay request) options = .error lost →
        lost.family.isOs = true →
        cause = lost ∧ (h.call network n arguments).outcome = .error lost := by
  have houtcome := outcome_call_of_endsIn hends hexhausted
  have hretried : fault.family.isRetryable = true →
      (h.call network n arguments).outcome = .error cause := by
    intro hretryable
    rw [houtcome, exhausted, hpolicy, hretryable, hcause]
    rfl
  have hfinal : fault.family.isRetryable = false →
      (h.call network n arguments).outcome = .error fault := by
    intro hfinal
    rw [houtcome, exhausted_of_final hfinal]
  refine ⟨⟨?_, hretried⟩, hfinal, ?_, ?_⟩
  · intro hsurfaces
    by_contra hother
    rw [hfinal (Bool.not_eq_true _ ▸ hother)] at hsurfaces
    exact Fault.cause?_ne hcause (Except.error.inj hsurfaces)
  · intro raised hfails
    have hraised := outcomeOfAttempt_of_failsInDecoder hpolicy hends.logged hfails
    exact Except.error.inj (hends.failed.symm.trans hraised)
  · intro lost hlost hos
    have htold : h.outcomeAt network request options k 1 = .error (transportFault request lost) :=
      outcomeAt_of_os hends.logged hlost hos
    obtain rfl : fault = transportFault request lost :=
      Except.error.inj (hends.failed.symm.trans htold)
    rw [cause?_transportFault request hos] at hcause
    obtain rfl : lost = cause := Option.some.inj hcause
    refine ⟨rfl, hretried ?_⟩
    rw [family_transportFault]
    rfl

end Calls

open scoped CommonCharsets

/-! ## A lost connection and an illegible number -/

/-- The handler of a method that reads a whole number from JSON, in two attempts at the most. -/
def countFetching : Handler :=
  { fetching { plainSettings .none with retryer := .backoff twoAttempts, policy := .unwrap } .int with
    decoder := .json (Schema.adapters []) }

/-- A network that loses every connection. -/
def losing : Network := fun _ _ _ => .error (.runtime "ConnectionResetError")

/-- A network that answers with a letter. -/
def lettering : Network := fun _ _ _ =>
  .ok { status := 200, body := some (.ofOctets [0x78]) }

theorem prepare_countFetching : countFetching.prepare [] =
    .ok (fetchingRequest, Options.toValue {}) :=
  @prepare_fetching_of_unchanged
    { plainSettings .none with retryer := .backoff twoAttempts, policy := .unwrap } .int _ rfl []

/-- The fault of the decoder, and what it was raised from. -/
def noCount : Fault :=
  (Decoder.refusal { status := 200, request := some fetchingRequest }
    "Response body is not a valid int: <detail>").raisedFrom (.runtime "ValidationError")

theorem failsInDecoder_lettering (k : Nat) :
    countFetching.FailsInDecoder lettering fetchingRequest (Options.toValue {}) k noCount where
  decoded := by
    have hletter : JsonValue.ofOctets? [0x78] = none :=
      Option.isNone_iff_eq_none.mp (by decide +kernel)
    have hbelow : isBelow 200 (.int 300) = .ok true := by decide +kernel
    refine ⟨_, _, rfl, rfl, ?_, ?_⟩
    · unfold decodes
      change (isBelow 200 (.int 300) >>= _) = _
      rw [hbelow]
      rfl
    · change ((Schema.loadJson [] .int [0x78]).mapError _) = _
      unfold Schema.loadJson
      rw [hletter]
      rfl
  returnsValue := rfl
  returnsNoResponse := rfl

theorem logged_countFetching :
    (countFetching.log.request countFetching.key fetchingRequest).outcome = .ok () := by
  rw [ExchangeLog.outcome_request]
  rfl

/-- What the decoder raised its fault from does not leave the call, although faults are unwrapped. -/
theorem call_wraps_noCount :
    countFetching.policy = .unwrap ∧
      countFetching.EndsIn lettering 0 [] 0 fetchingRequest (Options.toValue {}) noCount ∧
      countFetching.FailsInDecoder lettering fetchingRequest (Options.toValue {}) 0 noCount ∧
      noCount.cause? = some (.runtime "ValidationError") ∧
      (countFetching.call lettering 0 []).outcome ≠ .error (.runtime "ValidationError") := by
  have hfailed := outcomeOfAttempt_of_failsInDecoder rfl logged_countFetching
    (failsInDecoder_lettering 0)
  have hfinal : mayRetry (countFetching.outcomeOfAttempt lettering fetchingRequest
      (Options.toValue {}) 0) = false := by
    rw [hfailed]
    rfl
  have hcall : countFetching.call lettering 0 [] =
      countFetching.attempt lettering fetchingRequest (Options.toValue {}) 0 := by
    rw [call_of_prepared prepare_countFetching, attempts_of_final hfinal]
  refine ⟨rfl, ⟨prepare_countFetching, hfailed, Nat.le_refl 0, ?_⟩, failsInDecoder_lettering 0, rfl, ?_⟩
  · rw [hcall, Traced.sends_eq_countP_outward,
      outward_attempt_of_logged _ _ _ _ _ logged_countFetching]
    rfl
  · have hcause : noCount.cause? = some (.runtime "ValidationError") := rfl
    rw [hcall, outcome_attempt, hfailed]
    exact fun habsurd => Fault.cause?_ne hcause (Except.error.inj habsurd)

theorem failed_losing (k : Nat) :
    countFetching.outcomeOfAttempt losing fetchingRequest (Options.toValue {}) k =
      .error (transportFault fetchingRequest (.runtime "ConnectionResetError")) := by
  unfold outcomeOfAttempt
  rw [logged_countFetching]
  rfl

theorem endsIn_losing :
    countFetching.EndsIn losing 0 [] 1 fetchingRequest (Options.toValue {})
      (transportFault fetchingRequest (.runtime "ConnectionResetError")) where
  prepared := prepare_countFetching
  failed := failed_losing 1
  first_le := Nat.zero_le 1
  last := by
    have hnumeric : twoAttempts.HasNumericWaits :=
      ⟨⟨_, rfl, Quantity.isReal_real _⟩, ⟨_, rfl, Quantity.isReal_real _⟩⟩
    obtain ⟨seconds, slept, -, hfirst⟩ := @Backoff.next_of_left twoAttempts
      (countFetching.clock.decidingAfter 0)
      (transportFault fetchingRequest (.runtime "ConnectionResetError")) hnumeric
      (by decide +kernel) (by decide) rfl (fun moment hmoment => by cases hmoment)
    have hsecond := Backoff.next_of_exhausted (b := { twoAttempts.advanced with sleptFor := slept })
      (countFetching.clock.decidingAfter 1)
      (transportFault fetchingRequest (.runtime "ConnectionResetError")) rfl
    have hfresh : countFetching.retryer.fresh = .backoff twoAttempts := rfl
    have hrests : ∀ look seconds, countFetching.waits look seconds = .ok () := fun _ _ => rfl
    rw [call_of_prepared prepare_countFetching, hfresh,
      attempts_of_retry (failed_losing 0) rfl (Retryer.next_backoff hfirst)
        (resting_of_rests hrests _ _),
      attempts_of_exhausted (failed_losing 1) rfl (Retryer.next_backoff hsecond),
      Traced.sends_after, countP_before_next _ _ _ _ logged_countFetching]
    change 1 + (countFetching.attempt losing fetchingRequest (Options.toValue {}) 1).sends = 2
    rw [Traced.sends_eq_countP_outward,
      outward_attempt_of_logged _ _ _ _ _ logged_countFetching]
    rfl

/-- A lost connection is told as the system reports it once the attempts are used up. -/
theorem outcome_call_of_unwrap_losing :
    (countFetching.call losing 0 []).outcome = .error (.runtime "ConnectionResetError") :=
  (outcome_call_of_unwrap rfl endsIn_losing (fun _ => rfl) rfl).1.mpr rfl

end Handler

end HttpBinding
