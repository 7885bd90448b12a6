import HttpBinding.Proofs.Exchange.Succession
import Mathlib.Data.List.TakeWhile

/-!
# No response is left open

The body of a response is closed before anything else is sent and before the call
ends. There is one way to keep a body open: the decoder of a result may hold on
to it, if the client says so, and then the call ends with that result. Logging
bodies leaves no such way, since then decoders read a copy.
-/

namespace HttpBinding

/--
In the course of events every body that is received is closed before the next request is
sent. Bodies of the given requests may stay open when nothing is sent any more.
-/
def Releases (mayStay : Nat → Prop) (events : List Event) : Prop :=
  ∀ before n after, events = before ++ .received n true :: after →
    .closed (.stream n) ∈ after.takeWhile (!·.isSent) ∨
      mayStay n ∧ ∀ e ∈ after, e.isSent = false

namespace Releases

variable {mayStay : Nat → Prop}

theorem mono {mayStay' : Nat → Prop} {events : List Event} (hle : ∀ n, mayStay n → mayStay' n)
    (hevents : Releases mayStay events) : Releases mayStay' events := by
  intro before n after heq
  exact (hevents before n after heq).imp_right fun hopen => ⟨hle n hopen.1, hopen.2⟩

/-- Without responses there is nothing to close. -/
theorem of_forall {events : List Event} (hnone : ∀ e ∈ events, ∀ n, e ≠ .received n true) :
    Releases mayStay events := by
  intro before n after heq
  have hmem : Event.received n true ∈ events := by
    rw [heq]
    exact List.mem_append_right _ List.mem_cons_self
  exact absurd rfl (hnone _ hmem n)

/-- A response is accounted for on its own when no other one follows. -/
theorem cons {n : Nat} {hasBody : Bool} {after : List Event}
    (hnone : ∀ e ∈ after, ∀ m, e ≠ .received m true)
    (hafter : hasBody = true → .closed (.stream n) ∈ after.takeWhile (!·.isSent) ∨
      mayStay n ∧ ∀ e ∈ after, e.isSent = false) :
    Releases mayStay (.received n hasBody :: after) := by
  intro before m rest heq
  cases before with
  | nil =>
      obtain ⟨hhead, rfl⟩ := List.cons.inj heq
      obtain ⟨rfl, hbody⟩ := Event.received.inj hhead
      exact hafter hbody
  | cons first before =>
      obtain ⟨-, rfl⟩ := List.cons.inj heq
      exact absurd rfl (hnone _ (List.mem_append_right _ List.mem_cons_self) m)

/-- Events that leave nothing open may be followed by others. -/
theorem append {first second : List Event} (hfirst : Releases (fun _ => False) first)
    (hsecond : Releases mayStay second) : Releases mayStay (first ++ second) := by
  intro before n after heq
  rcases List.append_eq_append_iff.mp heq with ⟨middle, rfl, hrest⟩ | ⟨middle, hbefore, hrest⟩
  · exact hsecond middle n after hrest
  · cases middle with
    | nil => exact hsecond [] n after hrest.symm
    | cons received middle =>
        obtain ⟨rfl, rfl⟩ := List.cons.inj hrest
        rcases hfirst before n middle hbefore with hclosed | ⟨habsurd, -⟩
        · refine Or.inl ?_
          change _ ∈ (middle ++ second).takeWhile _
          rw [List.takeWhile_append]
          split
          · exact List.mem_append_left _ ((List.takeWhile_sublist _).subset hclosed)
          · exact hclosed
        · exact habsurd.elim

end Releases

namespace Handler

variable (h : Handler) (wait : Waiting) (network : Network) (request : Request) (options : Value)

/--
The body of the response to the request that was sent as number `n` is left to the decoder.
This takes a client that does not close what it decodes, a method with a result, a
response with a status that is decoded, and a decoder that comes to the outcome.
-/
structure LeavesOpen (outcome : Except Fault Value) (n : Nat) : Prop where
  unbuffered : h.log.covers .full = false
  keeps : h.closeAfterDecode.isOn = false
  returnsSomething : h.plan.returns.isNull = false
  returnsNoResponse : h.plan.returns.isResponse = false
  decoded : ∃ response value,
    network n (h.transport.relay request) options = .ok response ∧
    h.decodes response.status = .ok true ∧
    h.decoder.decode ((heldBy n response).answering request) h.plan.returns = .ok value ∧
    outcome = .ok value

variable {h wait network request options} {now : Moment}

theorem decode_eq_ok {response : Response} {value : Value}
    (hdecode : h.decode request response = .ok value) :
    h.decoder.decode response h.plan.returns = .ok value := by
  unfold decode at hdecode
  split at hdecode
  next other hother => rw [hother, Except.ok.inj hdecode]
  next => split at hdecode <;> cases hdecode

/-- A body stays open only if the decoder came to a result. -/
theorem judge_keepsOpen {response : Response} (hkeeps : (h.judge now request response).2 = true) :
    h.closeAfterDecode.isOn = false ∧ h.plan.returns.isNull = false ∧
      h.plan.returns.isResponse = false ∧ h.decodes response.status = .ok true ∧
      ∃ value, h.decoder.decode response h.plan.returns = .ok value ∧
        (h.judge now request response).1 = .ok value := by
  unfold judge at hkeeps ⊢
  -- Of these ways only the one that decodes a result may keep the body open.
  split at hkeeps
  next => cases hkeeps
  next hresponse =>
    rw [if_neg hresponse]
    split at hkeeps
    next => cases hkeeps
    next => cases hkeeps
    next hdecodes =>
      rw [hdecodes]
      split at hkeeps
      next => cases hkeeps
      next hnull =>
        rw [if_neg hnull]
        split at hkeeps
        next value hvalue =>
          refine ⟨?_, Bool.eq_false_iff.mpr hnull, Bool.eq_false_iff.mpr hresponse, rfl, value,
            decode_eq_ok hvalue, rfl⟩
          simpa using hkeeps
        next => cases hkeeps

/-! ## One response -/

theorem ne_received_of_isLine {e : Event} (hline : e.isLine = true) (n : Nat) (hasBody : Bool) :
    e ≠ .received n hasBody := by
  rintro rfl
  cases hline

variable [Charsets]

/-- The body of a response is closed on every way through an attempt but one. -/
theorem closed_or_leavesOpen (sight : Sight) {n : Nat} {response : Response}
    (hanswer : network n (h.transport.relay request) options = .ok response)
    (hbody : response.body.isSome = true) :
    .closed (.stream n) ∈
        (h.log.response h.key n sight.elapsed (heldBy n response) >>=
          h.settle sight.now request).events ∨
      h.LeavesOpen network request options (h.outcomeOfAnswer sight request n (.ok response))
        n := by
  have hholder : .stream n ∈ (heldBy n response).holders := by
    obtain ⟨body, hsome⟩ := Option.isSome_iff_exists.mp hbody
    simp [heldBy, Response.holders, hsome]
  cases hfull : h.log.covers .full with
  | true =>
      -- The stream is closed before its copy is logged, whatever comes of that.
      exact Or.inl (Traced.mem_events_bind_left _
        (ExchangeLog.closed_mem_response hfull hholder))
  | false =>
      have hlogged : (h.log.response h.key n sight.elapsed (heldBy n response)).outcome =
          .ok (heldBy n response) := by
        rw [ExchangeLog.outcome_response, hfull]
        rfl
      rw [Traced.bind_of_ok hlogged, Traced.events_after, events_settle]
      cases hkeeps : (h.judge sight.now request ((heldBy n response).answering request)).2 with
      | false =>
          exact Or.inl (List.mem_append_right _ (List.mem_map.mpr ⟨_, hholder, rfl⟩))
      | true =>
          obtain ⟨hoff, hnull, hresponse, hdecodes, value, hvalue, houtcome⟩ :=
            judge_keepsOpen hkeeps
          refine Or.inr ⟨hfull, hoff, hnull, hresponse, response, value, hanswer, hdecodes,
            hvalue, ?_⟩
          rw [outcomeOfAnswer, hlogged]
          exact houtcome

theorem releases_receive (sight : Sight) (n : Nat) :
    Releases (h.LeavesOpen network request options
        (h.receive sight n request (network n (h.transport.relay request) options)).outcome)
      (h.receive sight n request (network n (h.transport.relay request) options)).events := by
  rw [outcome_receive]
  cases hanswer : network n (h.transport.relay request) options with
  | error fault =>
      exact .of_forall fun e he m =>
        ne_received_of_isLine (h.isLine_of_mem_receive_error sight request n he) m true
  | ok response =>
      rw [receive_ok]
      refine .cons ?_ ?_
      · intro e he m
        rcases h.mem_answered_events sight request n he with hline | ⟨holder, rfl⟩
        · exact ne_received_of_isLine hline m true
        · exact Event.noConfusion
      · intro hbody
        have hunsent : ∀ e ∈ (h.log.response h.key n sight.elapsed (heldBy n response) >>=
            h.settle sight.now request).events, e.isSent = false := by
          intro e he
          rcases h.mem_answered_events sight request n he with hline | ⟨holder, rfl⟩
          · exact Event.isSent_of_isOutward (Event.isOutward_of_isLine hline)
          · rfl
        rw [List.takeWhile_eq_self_iff.mpr fun e he => by rw [hunsent e he]; rfl]
        exact (closed_or_leavesOpen sight hanswer hbody).imp_right fun hopen => ⟨hopen, hunsent⟩

/-! ## All attempts -/

theorem releases_attempt (n : Nat) :
    Releases (h.LeavesOpen network request options (h.attempt network request options n).outcome)
      (h.attempt network request options n).events := by
  have hlines : ∀ e ∈ (h.log.request h.key request).events, ∀ m, e ≠ .received m true :=
    fun e he m => ne_received_of_isLine (ExchangeLog.isLine_of_mem_request he) m true
  cases hlog : (h.log.request h.key request).outcome with
  | error fault =>
      rw [attempt_of_unlogged h network request options n hlog]
      exact .of_forall hlines
  | ok _ =>
      rw [attempt_of_logged h network request options n hlog]
      refine .append (.of_forall ?_) (h.releases_receive (h.clock.sightOf n) n)
      intro e he m
      rcases List.mem_append.mp he with hline | hsent
      · exact hlines e hline m
      · rw [List.mem_singleton.mp hsent]
        exact Event.noConfusion

/-- An attempt that ends in a fault leaves nothing open. -/
theorem releases_attempt_of_error {n : Nat} {fault : Fault}
    (hfault : h.outcomeOfAttempt network request options n = .error fault) :
    Releases (fun _ => False) (h.attempt network request options n).events := by
  refine (releases_attempt n).mono ?_
  intro m hopen
  obtain ⟨response, value, -, -, -, hvalue⟩ := hopen.decoded
  rw [outcome_attempt, hfault] at hvalue
  cases hvalue

omit [Charsets] in
theorem releases_pause (fault : Fault) (seconds : Quantity) :
    Releases (fun _ => False) (h.pause fault seconds) := by
  refine .of_forall ?_
  intro e he m
  rcases h.mem_pause he with hline | rfl
  · exact ne_received_of_isLine hline m true
  · exact Event.noConfusion

theorem releases_attempts (n : Nat) (retryer : Retryer) :
    Releases
      (h.LeavesOpen network request options
        (h.attempts wait network request options n retryer).outcome)
      (h.attempts wait network request options n retryer).events := by
  refine h.attempts_induction wait network request options
    (motive := fun _ _ x => Releases (h.LeavesOpen network request options x.outcome) x.events)
    ?final ?exhausted ?unrested ?retry n retryer
  case final =>
    intro n retryer _
    exact releases_attempt n
  case exhausted =>
    intro n retryer fault last retryer' hfault _ _
    exact (releases_attempt_of_error hfault).mono fun _ habsurd => habsurd.elim
  case unrested =>
    intro n retryer fault seconds retryer' failure hfault _ _ _
    exact ((releases_attempt_of_error hfault).append (releases_pause fault seconds)).mono
      fun _ habsurd => habsurd.elim
  case retry =>
    intro n retryer fault seconds retryer' hfault _ _ _ ih
    rw [Traced.events_after, List.append_assoc]
    exact (releases_attempt_of_error hfault).append ((releases_pause fault seconds).append ih)

/--
In every call, on a transport of either kind, every body is closed before the next request
is sent and before the call ends, unless it is left to the decoder whose result the call
ends with.
-/
theorem call_releases (h : Handler) (network : Network) (n : Nat) (arguments : List Value) :
    Releases
      (fun m => ∃ request options, h.prepare arguments = .ok (request, options) ∧
        h.LeavesOpen network request options (h.call network n arguments).outcome m)
      (h.call network n arguments).events := by
  rcases hprepare : h.prepare arguments with fault | ⟨request, options⟩
  · rw [call_of_unprepared hprepare]
    exact .of_forall fun e he => absurd he List.not_mem_nil
  · rw [call_of_prepared hprepare]
    exact (releases_attempts n h.retryer.fresh).mono fun m hopen => ⟨request, options, rfl, hopen⟩

end Handler

end HttpBinding
