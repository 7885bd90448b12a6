import HttpBinding.Exchange.Direct

/-!
# Attempts that suspend

With a transport that suspends, a call is not carried out at once: it is a
process that looks at the clocks, asks for requests to be sent and for time to
pass, and says how it goes on after each. Whoever runs the process answers it.
-/

namespace HttpBinding

/--
The fault that leaves a process. One that says that nothing more follows would be taken for
the end of the process; it leaves as a fault of the run-time system that was raised from it.
-/
def Fault.leaving (fault : Fault) : Fault :=
  if fault.family.kin = .stop then (runtime "RuntimeError").raisedFrom fault
  else fault

/-- A pending action as it is seen by who waits for it. -/
def Traced.awaited {α : Type} (x : Traced α) : Traced α :=
  { x with outcome := x.outcome.mapError Fault.leaving }

/-- A process that comes to a value or a fault. -/
inductive Process (α : Type) where
  | finished (outcome : Except Fault α)
  /-- Events happen before the process goes on. -/
  | noted (events : List Event) (next : Process α)
  /-- The process goes on with the number of the request and the answer to it. -/
  | sending (request : Request) (options : Value) (next : Nat → Except Fault Response → Process α)
  /-- The process goes on with the number of its look at the clocks. -/
  | looking (next : Nat → Process α)
  /-- The process goes on with what its wait came to. -/
  | sleeping (seconds : Quantity) (next : Except Failure Unit → Process α)

namespace Process

variable {α β : Type}

/-- The process that lets the events of an action happen and comes to its outcome. -/
def ofTraced (x : Traced α) : Process α :=
  .noted x.events (.finished x.outcome)

/-- Goes on with what a process comes to, be it a value or a fault. -/
def followedBy (next : Except Fault α → Process β) : Process α → Process β
  | finished outcome => next outcome
  | noted events rest => .noted events (followedBy next rest)
  | sending request options resume =>
    .sending request options fun n answer => followedBy next (resume n answer)
  | looking resume => .looking fun look => followedBy next (resume look)
  | sleeping seconds resume => .sleeping seconds fun outcome => followedBy next (resume outcome)

/--
Runs a process on a transport with waits that come out in some way. The next request is sent
as number `n`, and the next look at the clocks has the number `look`.
-/
def run (wait : Waiting) (transport : Transport) (network : Network) (n look : Nat) :
    Process α → Traced α
  | finished outcome => Traced.lift outcome
  | noted events rest => (run wait transport network n look rest).after events
  | sending request options resume =>
    (run wait transport network (n + 1) look
      (resume n (network n (transport.relay request) options))).after
        [.sent (transport.relay request) options]
  | looking resume => run wait transport network n (look + 1) (resume look)
  | sleeping seconds resume =>
    (run wait transport network n look (resume (wait look seconds))).after [.waited seconds]

end Process

namespace Handler

variable [Charsets]

/-- One attempt as a process. -/
def attemptProcess (h : Handler) (request : Request) (options : Value) : Process Value :=
  (Process.ofTraced (h.log.request h.key request)).followedBy fun
    | .error fault => .finished (.error fault)
    | .ok () =>
      .looking fun start => .sending request options fun n answer =>
        .looking fun answered => .looking fun decoding =>
          .ofTraced (h.receive (h.clock.sight start answered decoding) n request answer)

/-- The time between two attempts as a process that goes on with the next one if it passes. -/
def pauseProcess (h : Handler) (fault : Fault) (seconds : Quantity) (next : Process Value) :
    Process Value :=
  .noted (h.log.retry h.key fault seconds)
    (if (Quantity.whole 0).lt seconds then
      .sleeping seconds fun
        | .ok () => next
        | .error failure => .finished (.error failure.fault)
    else next)

/-- Attempts as a process, until one of them decides the call. -/
def attemptsProcess (h : Handler) (request : Request) (options : Value) (retryer : Retryer) :
    Process Value :=
  (h.attemptProcess request options).followedBy fun
    | .ok value => .finished (.ok value)
    | .error fault =>
      if !fault.family.isRetryable then .finished (.error fault)
      else
        .looking fun deciding =>
          match _h : retryer.next (h.clock.now deciding) fault with
          | (.error last, _) => .finished (.error (h.exhausted last))
          | (.ok seconds, retryer') =>
            h.pauseProcess fault seconds (h.attemptsProcess request options retryer')
termination_by retryer.remaining
decreasing_by
  have hless := @Retryer.remaining_next retryer (h.clock.now deciding) fault seconds (by rw [_h])
  rw [_h] at hless
  exact hless

/-- A call on a transport that suspends, as a process. -/
def invokeProcess (h : Handler) (arguments : List Value) : Process Value :=
  match h.prepare arguments with
  | .error fault => .finished (.error fault)
  | .ok (request, options) => h.attemptsProcess request options h.retryer.fresh

/-- A call on a transport that suspends, run to its end. -/
def invokeSuspended (h : Handler) (network : Network) (n : Nat) (arguments : List Value) :
    Traced Value :=
  (h.invokeProcess arguments).run h.clock.suspend h.transport network n (Clock.firstLook n)

/-- A call, in the way that the transport works. -/
def call (h : Handler) (network : Network) (n : Nat) (arguments : List Value) : Traced Value :=
  if h.transport.isAsync then h.invokeSuspended network n arguments
  else h.invoke network n arguments

end Handler

end HttpBinding
