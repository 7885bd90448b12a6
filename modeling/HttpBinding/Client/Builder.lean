import HttpBinding.Client.Capability
import HttpBinding.Config
import HttpBinding.Exchange.Wire

/-!
# Builders

A builder holds the components and settings of clients; what has not been chosen
comes from the configuration or is the usual component. Before a client is put
together, all of its components pass through the capabilities.
-/

namespace HttpBinding

/-- The components and settings of clients to be built. -/
structure Builder where
  config : ClientConfig := {}
  contract : Contract
  transport : Option Transport := none
  retryer : Option Retryer := none
  options : Option HttpBinding.Options := none
  encoder : Encoder
  decoder : Decoder
  queryMapEncoder : QueryMapEncoder
  errorDecoder : ErrorDecoder
  interceptors : List Interceptor := []
  logger : Option String := none
  capabilities : List Capability := []

namespace Builder

/-- A builder for which nothing has been chosen. -/
def usual [Charsets] (adapters : Adapters) : Builder where
  contract := .usual
  encoder := .usual
  decoder := .usual
  queryMapEncoder := .usual adapters
  errorDecoder := .usual

/-- A setting that must be the name of something. -/
def named {α : Type} (ofName? : String → Option α) (setting : Value) : Except Fault α :=
  match setting with
  | .text s =>
    match ofName? s with
    | some a => .ok a
    | none => .error (.runtime "ValueError")
  | _ => .error (.runtime "ValueError")

/-- The log level that a setting names. -/
def levelOf (setting : Value) : Except Fault LogLevel :=
  named LogLevel.ofName? setting

/-- The propagation policy that a setting names. -/
def policyOf (setting : Value) : Except Fault PropagationPolicy :=
  named PropagationPolicy.ofName? setting

/-- Chooses the log level, which must be the name of one. -/
def setLogLevel (b : Builder) (setting : Value) : Except Fault Builder := do
  let level ← levelOf setting
  .ok { b with config := { b.config with logLevel := .text level.name } }

/-- Chooses the propagation policy, which must be the name of one. -/
def setPolicy (b : Builder) (setting : Value) : Except Fault Builder := do
  let policy ← policyOf setting
  .ok { b with config := { b.config with propagationPolicy := .text policy.name } }

/-- The retry policy of a configuration. -/
def retryerOf (config : ClientConfig) : Except Fault Retryer :=
  (Backoff.make config.retryPeriod config.retryMaxPeriod config.retryMaxAttempts).map .backoff

/-- The transport of clients that have been given none. -/
def usualTransport : Transport :=
  Wire.transport false

/-- The name of the class of a logger. -/
def loggerClass (logger : Option String) : String :=
  if logger.isSome then "Logger" else "NoneType"

/-- The settings that the handlers of a client share. -/
def settings (b : Builder) (clock : Clock) : Traced HandlerSettings := do
  let transport ← Capability.enrich "enrich_transport" Capability.transport Transport.name
    b.capabilities (b.transport.getD usualTransport)
  let chosen ← Traced.lift (match b.retryer with
    | some retryer => .ok retryer
    | none => retryerOf b.config)
  let retryer ← Capability.enrich "enrich_retryer" Capability.retryer Retryer.name
    b.capabilities chosen
  let interceptors ← b.interceptors.mapM (Capability.enrich "enrich_interceptor"
    Capability.interceptor Interceptor.name b.capabilities)
  let logger ← Capability.enrich "enrich_logger" Capability.logger loggerClass
    b.capabilities b.logger
  let level ← Traced.lift (levelOf b.config.logLevel)
  let policy ← Traced.lift (policyOf b.config.propagationPolicy)
  Capability.enrich "enrich_method_handler_factory" Capability.factory
    (fun _ => "MethodHandlerFactory") b.capabilities
    { transport := transport, retryer := retryer, interceptors := interceptors
      log := ⟨level, logger⟩, decode404 := b.config.decode404
      closeAfterDecode := b.config.closeAfterDecode, policy := policy
      errorThreshold := b.config.errorStatusThreshold, clock := clock }

/-- The components that plans and handlers are made with. -/
structure Parts where
  contract : Contract
  options : HttpBinding.Options
  encoder : Encoder
  decoder : Decoder
  queryMapEncoder : QueryMapEncoder
  errorDecoder : ErrorDecoder
  settings : HandlerSettings

/-- All components of a client, after every capability. -/
def parts (b : Builder) (clock : Clock) : Traced Parts := do
  let settings ← b.settings clock
  let contract ← Capability.enrich "enrich_contract" Capability.contract Contract.name
    b.capabilities b.contract
  let options ← Capability.enrich "enrich_options" Capability.options (fun _ => "Options")
    b.capabilities (b.options.getD b.config.options)
  let encoder ← Capability.enrich "enrich_encoder" Capability.encoder Encoder.name
    b.capabilities b.encoder
  let decoder ← Capability.enrich "enrich_decoder" Capability.decoder Decoder.name
    b.capabilities b.decoder
  let queryMapEncoder ← Capability.enrich "enrich_query_map_encoder" Capability.queryMapEncoder
    QueryMapEncoder.name b.capabilities b.queryMapEncoder
  let errorDecoder ← Capability.enrich "enrich_error_decoder" Capability.errorDecoder
    ErrorDecoder.name b.capabilities b.errorDecoder
  return ⟨contract, options, encoder, decoder, queryMapEncoder, errorDecoder, settings⟩

/-- The target of an interface: with an address it is fixed, without one it is empty. -/
def targetOf (api : String) (url name : Option String) : Except Fault Target :=
  match url.getD "" with
  | "" =>
    let given := name.getD ""
    .ok (.empty api (if given.isEmpty then "empty" else given))
  | address => Target.ofUrl api address name

end Builder

end HttpBinding
