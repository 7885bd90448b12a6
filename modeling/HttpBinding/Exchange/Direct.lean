import HttpBinding.Exchange.Handler

/-!
# Attempts that wait

With a transport that waits for the answer, attempts simply follow each other: as
long as an attempt ends in a fault that may be retried and the policy allows it,
another one is made. Requests are numbered as they are sent, from the number that
the call begins with, and looks at the clocks with them.
-/

namespace HttpBinding.Handler

variable [Charsets]

/-- One attempt, which sends the request as number `n`. -/
def attempt (h : Handler) (network : Network) (request : Request) (options : Value) (n : Nat) :
    Traced Value := do
  h.log.request h.key request
  Traced.note [.sent (h.transport.relay request) options]
  h.receive (h.clock.sightOf n) n request (network n (h.transport.relay request) options)

/--
Attempts until one of them decides the call; the first sends the request as number `n`. A wait
between two of them that fails ends the call.
-/
def attempts (h : Handler) (wait : Waiting) (network : Network) (request : Request)
    (options : Value) (n : Nat) (retryer : Retryer) : Traced Value :=
  let tried := h.attempt network request options n
  match tried.outcome with
  | .ok _ => tried
  | .error fault =>
    if !fault.family.isRetryable then tried
    else
      match _h : retryer.next (h.clock.decidingAfter n) fault with
      | (.error last, _) => ⟨.error (h.exhausted last), tried.events⟩
      | (.ok seconds, retryer') =>
        let next :=
          match resting wait (Clock.firstLook (n + 1)) seconds with
          | .ok () => h.attempts wait network request options (n + 1) retryer'
          | .error failure => Traced.fail failure.fault
        next.after (tried.events ++ h.pause fault seconds)
termination_by retryer.remaining
decreasing_by
  have hless := @Retryer.remaining_next retryer (h.clock.decidingAfter n) fault seconds (by rw [_h])
  rw [_h] at hless
  exact hless

/-- A call on a transport that waits; its first request is sent as number `n`. -/
def invoke (h : Handler) (network : Network) (n : Nat) (arguments : List Value) : Traced Value :=
  match h.prepare arguments with
  | .error fault => Traced.fail fault
  | .ok (request, options) =>
    h.attempts h.clock.sleep network request options n h.retryer.fresh

end HttpBinding.Handler
