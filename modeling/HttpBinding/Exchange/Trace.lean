import HttpBinding.Message.Response
import HttpBinding.Number.Binary64
import HttpBinding.Value

/-!
# Traces

What a call does besides coming to a result is kept as a list of events in the
order in which they happen: the lines it logs, what it sends and receives, the
bodies it closes and the time it waits. Two calls can so be compared by their
traces.
-/

namespace HttpBinding

/-- Something that happens in the course of a call. -/
inductive Event where
  | logged (logger line : String)
  /-- A request handed to the transport, with the options that the caller gave or the usual ones. -/
  | sent (request : Request) (options : Value)
  /-- The response to the request that was sent as number `n`, with or without a body. -/
  | received (n : Nat) (hasBody : Bool)
  | closed (holder : Holder)
  | waited (seconds : Quantity)

namespace Event

/-- Whether an event is a request that was sent. -/
def isSent : Event → Bool
  | sent .. => true
  | _ => false

/-- Whether a body is closed in the course of events. -/
def areClosing (events : List Event) (holder : Holder) : Bool :=
  events.any fun
    | closed other => other == holder
    | _ => false

end Event

/-- What an action comes to, and what happened on the way. -/
structure Traced (α : Type) where
  outcome : Except Fault α
  events : List Event := []

namespace Traced

variable {α β : Type}

/-- Comes to a value; nothing happens. -/
def ofValue (a : α) : Traced α :=
  ⟨.ok a, []⟩

/-- Comes to a fault; nothing happens. -/
def fail (fault : Fault) : Traced α :=
  ⟨.error fault, []⟩

/-- Comes to what is given; nothing happens. -/
def lift (outcome : Except Fault α) : Traced α :=
  ⟨outcome, []⟩

/-- Events happen. -/
def note (events : List Event) : Traced Unit :=
  ⟨.ok (), events⟩

/-- Goes on with the value of an action unless the action failed. -/
def andThen (x : Traced α) (next : α → Traced β) : Traced β :=
  match x.outcome with
  | .ok a => ⟨(next a).outcome, x.events ++ (next a).events⟩
  | .error fault => ⟨.error fault, x.events⟩

/-- Lets events happen after an action, whatever it came to. -/
def ending (x : Traced α) (events : List Event) : Traced α :=
  ⟨x.outcome, x.events ++ events⟩

/-- Lets events happen before an action. -/
def after (events : List Event) (x : Traced α) : Traced α :=
  ⟨x.outcome, events ++ x.events⟩

instance : Monad Traced where
  pure := ofValue
  bind := andThen

/-- The number of requests that were sent. -/
def sends (x : Traced α) : Nat :=
  x.events.countP Event.isSent

end Traced

end HttpBinding
