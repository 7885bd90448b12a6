import HttpBinding.Exchange.Suspended
import HttpBinding.Proofs.Exchange.Logging

/-!
# One attempt

An attempt logs its request, sends it and makes something of the answer. Its
outcome is that of the first of these steps that fails, and of the last one if
none does. Other parties see one request of it, unless the request could not
even be logged, and they never see it wait.
-/

namespace HttpBinding

/-- The response with the request that it answers. -/
def Response.answering (r : Response) (request : Request) : Response :=
  { r with request := some (r.request.getD request) }

namespace Handler

variable (h : Handler) (sight : Sight) (network : Network) (request : Request)
  (options : Value) (n : Nat)

@[simp]
theorem read_heldBy (response : Response) : (heldBy n response).read = response.read := by
  unfold heldBy Response.read
  cases response.body <;> rfl

/-! ## Faults of the operating system -/

theorem transportFault_of_transport {fault : Fault} (hfamily : fault.family = .transport) :
    transportFault request fault = fault :=
  if_pos hfamily

theorem family_transportFault (fault : Fault) :
    (transportFault request fault).family = .transport := by
  unfold transportFault
  split
  next hfamily => exact hfamily
  next => rfl

theorem cause?_transportFault {fault : Fault} (hos : fault.family.isOs = true) :
    (transportFault request fault).cause? = some fault := by
  have hother : fault.family ≠ .transport := by
    intro heq
    rw [heq] at hos
    cases hos
  unfold transportFault
  rw [if_neg hother]
  exact Fault.cause?_raisedFrom _ fault

/-! ## Settling and pausing -/

theorem settle_eq (now : Moment) (response : Response) :
    h.settle now request response =
      if (h.judge now request (response.answering request)).2 then
        Traced.lift (h.judge now request (response.answering request)).1
      else
        (Traced.lift (h.judge now request (response.answering request)).1).ending
          (closing (response.answering request)) := by
  unfold settle Response.answering
  dsimp only
  rcases h.judge now request _ with ⟨outcome, keepsOpen⟩
  cases keepsOpen <;> rfl

theorem outcome_settle (now : Moment) (response : Response) :
    (h.settle now request response).outcome =
      (h.judge now request (response.answering request)).1 := by
  rw [settle_eq]
  split
  next => rfl
  next => rfl

/-- The body of a response is closed in the end unless the decoder may go on reading it. -/
theorem events_settle (now : Moment) (response : Response) :
    (h.settle now request response).events =
      if (h.judge now request (response.answering request)).2 then []
      else response.holders.map .closed := by
  rw [settle_eq]
  split
  next => rfl
  next => rfl

theorem mem_pause {fault : Fault} {seconds : Quantity} {e : Event}
    (he : e ∈ h.pause fault seconds) : e.isLine = true ∨ e = .waited seconds := by
  rcases List.mem_append.mp he with hline | hwait
  · exact Or.inl (ExchangeLog.isLine_of_mem_lineAt hline)
  · split at hwait
    · exact Or.inr (List.mem_singleton.mp hwait)
    · cases hwait

/-- What other parties see of the time between two attempts. -/
theorem outward_pause (fault : Fault) (seconds : Quantity) :
    (h.pause fault seconds).filter Event.isOutward =
      if (Quantity.whole 0).lt seconds then [.waited seconds] else [] := by
  have hlog : (h.log.retry h.key fault seconds).filter Event.isOutward = [] := by
    refine List.filter_eq_nil_iff.mpr ?_
    intro e he
    simp [Event.isOutward_of_isLine (ExchangeLog.isLine_of_mem_lineAt he)]
  rw [pause, List.filter_append, hlog, List.nil_append]
  split <;> rfl

variable [Charsets]

/-! ## Outcomes -/

/--
What an answer of the transport comes to. A fault of the operating system counts as one
of the transport; a response is logged and then decoded, as a result or as an error.
-/
def outcomeOfAnswer : Except Fault Response → Except Fault Value
  | .error fault => .error (if fault.family.isOs then transportFault request fault else fault)
  | .ok response => do
    let logged ← (h.log.response h.key n sight.elapsed (heldBy n response)).outcome
    (h.judge sight.now request (logged.answering request)).1

/-- What the attempt that sends the request as number `n` comes to. -/
def outcomeOfAttempt : Except Fault Value := do
  (h.log.request h.key request).outcome
  h.outcomeOfAnswer (h.clock.sightOf n) request n
    (network n (h.transport.relay request) options)

theorem outcomeOfAnswer_ok (response : Response) :
    h.outcomeOfAnswer sight request n (.ok response) =
      (h.log.response h.key n sight.elapsed (heldBy n response)).outcome.bind fun logged =>
        (h.judge sight.now request (logged.answering request)).1 := rfl

/-! ## Answers -/

theorem receive_error (fault : Fault) :
    h.receive sight n request (.error fault) =
      if fault.family = .transport || fault.family.isOs then
        (Traced.fail (transportFault request fault)).after
          (h.log.transportFault h.key fault sight.elapsed)
      else Traced.fail fault := rfl

theorem receive_ok (response : Response) :
    h.receive sight n request (.ok response) =
      (h.log.response h.key n sight.elapsed (heldBy n response) >>=
        h.settle sight.now request).after [.received n response.body.isSome] := rfl

theorem outcome_receive (answer : Except Fault Response) :
    (h.receive sight n request answer).outcome = h.outcomeOfAnswer sight request n answer := by
  cases answer with
  | error fault =>
      rw [receive_error]
      by_cases hfamily : fault.family = .transport
      · simp [outcomeOfAnswer, hfamily, transportFault_of_transport, Traced.fail]
      · cases hos : fault.family.isOs <;> simp [outcomeOfAnswer, hfamily, hos, Traced.fail]
  | ok response =>
      rw [receive_ok, Traced.outcome_after, Traced.outcome_bind]
      simp only [outcome_settle]
      rfl

/-- What follows a response is logged, or it is the closing of a body. -/
theorem mem_answered_events {response : Response} {e : Event}
    (he : e ∈ (h.log.response h.key n sight.elapsed response >>=
      h.settle sight.now request).events) :
    e.isLine = true ∨ ∃ holder, e = .closed holder := by
  rcases Traced.mem_events_bind he with hlog | ⟨logged, -, hsettle⟩
  · rcases ExchangeLog.mem_response_events hlog with hline | ⟨holder, -, rfl⟩
    · exact Or.inl hline
    · exact Or.inr ⟨holder, rfl⟩
  · rw [events_settle] at hsettle
    split at hsettle
    · cases hsettle
    · obtain ⟨holder, -, rfl⟩ := List.mem_map.mp hsettle
      exact Or.inr ⟨holder, rfl⟩

theorem isLine_of_mem_receive_error {fault : Fault} {e : Event}
    (he : e ∈ (h.receive sight n request (.error fault)).events) : e.isLine = true := by
  rw [receive_error] at he
  split at he
  · rcases List.mem_append.mp he with hline | hnone
    · exact ExchangeLog.isLine_of_mem_lineAt hline
    · cases hnone
  · cases he

theorem isOutward_of_mem_receive {answer : Except Fault Response} {e : Event}
    (he : e ∈ (h.receive sight n request answer).events) : e.isOutward = false := by
  cases answer with
  | error fault => exact Event.isOutward_of_isLine (h.isLine_of_mem_receive_error sight request n he)
  | ok response =>
      rw [receive_ok] at he
      rcases List.mem_cons.mp he with rfl | he
      · rfl
      rcases h.mem_answered_events sight request n he with hline | ⟨holder, rfl⟩
      · exact Event.isOutward_of_isLine hline
      · rfl

/-! ## Attempts -/

theorem isOutward_of_mem_log {e : Event} (he : e ∈ (h.log.request h.key request).events) :
    e.isOutward = false :=
  Event.isOutward_of_isLine (ExchangeLog.isLine_of_mem_request he)

/-- An attempt whose request is logged sends it. -/
theorem attempt_of_logged (hlogged : (h.log.request h.key request).outcome = .ok ()) :
    h.attempt network request options n =
      (h.receive (h.clock.sightOf n) n request
          (network n (h.transport.relay request) options)).after
        ((h.log.request h.key request).events ++ [.sent (h.transport.relay request) options]) := by
  unfold attempt
  rw [Traced.bind_of_ok hlogged, Traced.note_bind, Traced.after_after]

/-- An attempt whose request cannot be logged ends before the request is sent. -/
theorem attempt_of_unlogged {fault : Fault}
    (hunlogged : (h.log.request h.key request).outcome = .error fault) :
    h.attempt network request options n =
      ⟨.error fault, (h.log.request h.key request).events⟩ := by
  unfold attempt
  exact Traced.bind_of_error hunlogged _

theorem outcome_attempt :
    (h.attempt network request options n).outcome =
      h.outcomeOfAttempt network request options n := by
  unfold outcomeOfAttempt
  cases hlog : (h.log.request h.key request).outcome with
  | error fault =>
      rw [attempt_of_unlogged h network request options n hlog]
      rfl
  | ok _ =>
      rw [attempt_of_logged h network request options n hlog, Traced.outcome_after,
        outcome_receive]
      rfl

theorem outward_attempt_of_logged
    (hlogged : (h.log.request h.key request).outcome = .ok ()) :
    (h.attempt network request options n).outward =
      [.sent (h.transport.relay request) options] := by
  have hlog : (h.log.request h.key request).events.filter Event.isOutward = [] :=
    Traced.outward_eq_nil fun e he => h.isOutward_of_mem_log request he
  have hreceive : (h.receive (h.clock.sightOf n) n request
      (network n (h.transport.relay request) options)).outward = [] :=
    Traced.outward_eq_nil fun e he => h.isOutward_of_mem_receive _ request n he
  rw [attempt_of_logged h network request options n hlogged, Traced.outward_after, hreceive,
    List.append_nil, List.filter_append, hlog]
  rfl

theorem outward_attempt_of_unlogged {fault : Fault}
    (hunlogged : (h.log.request h.key request).outcome = .error fault) :
    (h.attempt network request options n).outward = [] := by
  rw [attempt_of_unlogged h network request options n hunlogged]
  exact Traced.outward_eq_nil fun e he => h.isOutward_of_mem_log request he

end Handler

end HttpBinding
