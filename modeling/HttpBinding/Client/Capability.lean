import HttpBinding.Exchange.Handler
import HttpBinding.Plan.Contract

/-!
# Capabilities

A capability changes the components of a client while it is built. Every
component passes through all capabilities in the order in which they were added;
when one puts another component in the place of what it was given, that is
logged.
-/

namespace HttpBinding

/-- What a capability makes of a component. -/
inductive Enriched (α : Type) where
  /-- The same component, perhaps with changes to it. -/
  | kept (component : α)
  /-- Another component in its place. -/
  | replaced (component : α)

/-- What a capability does to components of a kind. -/
abbrev Hook (α : Type) := α → Enriched α

/-- What a capability does to the components of a client. -/
structure Capability where
  name : String
  transport : Hook Transport := .kept
  retryer : Hook Retryer := .kept
  interceptor : Hook Interceptor := .kept
  logger : Hook (Option String) := .kept
  contract : Hook Contract := .kept
  options : Hook HttpBinding.Options := .kept
  encoder : Hook Encoder := .kept
  decoder : Hook Decoder := .kept
  queryMapEncoder : Hook QueryMapEncoder := .kept
  errorDecoder : Hook ErrorDecoder := .kept
  factory : Hook HandlerSettings := .kept

namespace Capability

/-- The logger of what capabilities do. -/
def loggerName : String :=
  "reqline.client.capability"

/-- The line about a component that a capability replaced. -/
def replacedLine (capability hook component : String) : Event :=
  .logged loggerName (capability ++ "." ++ hook ++ " replaced " ++ component)

variable {α : Type}

/-- Passes a component through the hooks of capabilities. -/
def enrich (hookName : String) (hook : Capability → Hook α) (name : α → String) :
    List Capability → α → Traced α
  | [], component => Traced.ofValue component
  | capability :: rest, component =>
    match hook capability component with
    | .kept component => enrich hookName hook name rest component
    | .replaced other =>
      (enrich hookName hook name rest other).after
        [replacedLine capability.name hookName (name component)]

end Capability

end HttpBinding
