import HttpBinding.Codec.Decoder
import HttpBinding.Codec.ErrorDecoder
import HttpBinding.Exchange.Log
import HttpBinding.Interceptor
import HttpBinding.Message.Options
import HttpBinding.Plan.Filling
import HttpBinding.Retryer
import HttpBinding.Target

/-!
# Handlers

A handler carries out the calls of one method. It prepares the request once, and
every attempt sends the same one. This module holds what comes before an attempt
is sent and what comes after: a response is either decoded, or decoded as an
error, and its body is closed unless a decoder may go on reading it. How attempts
follow each other is told elsewhere, once for transports that wait and once for
those that suspend.
-/

namespace HttpBinding

/-- Which fault leaves a call when a decoder fails or attempts run out. -/
inductive PropagationPolicy where
  /-- The fault as it is. -/
  | none
  /-- The fault that it was raised from. -/
  | unwrap
  deriving DecidableEq, Repr

namespace PropagationPolicy

/-- The name of a policy. -/
def name : PropagationPolicy → String
  | none => "none"
  | unwrap => "unwrap"

/-- The policy with a name. -/
def ofName? (text : String) : Option PropagationPolicy :=
  [none, unwrap].find? (·.name == text)

end PropagationPolicy

/-- What waits of some seconds come to, by the number of the look at the clocks that follows. -/
abbrev Waiting := Nat → Quantity → Except Failure Unit

/--
How time passes in the course of calls. The looks at the clocks are numbered in their order; a
clock may show anything at any of them.
-/
structure Clock where
  /-- The time of day at a look. -/
  now : Nat → Moment
  /-- The whole milliseconds from one look to another. -/
  elapsed : Nat → Nat → Nat
  /-- What waits come to of who can do nothing else meanwhile. -/
  sleep : Waiting
  /-- What waits come to of who lets others go on meanwhile. -/
  suspend : Waiting

/-- What an attempt sees of the clocks. -/
structure Sight where
  /-- The whole milliseconds between the request and its answer. -/
  elapsed : Nat
  /-- The time of day when an error is decoded. -/
  now : Moment

namespace Clock

/-- A clock that stands still, and waits that are over at once. -/
def still (now : Moment) : Clock where
  now _ := now
  elapsed _ _ := 0
  sleep _ _ := .ok ()
  suspend _ _ := .ok ()

/-- What is seen by looks at the start, at the answer and at the decoding of an error. -/
def sight (clock : Clock) (start answered decoding : Nat) : Sight :=
  ⟨clock.elapsed start answered, clock.now decoding⟩

/--
The number of the first look of the attempt that sends the request as number `n`. Every attempt
has four: when it starts, when it is answered, when an error is decoded and when the policy decides.
-/
def firstLook (n : Nat) : Nat :=
  4 * n

/-- What the attempt that sends the request as number `n` sees. -/
def sightOf (clock : Clock) (n : Nat) : Sight :=
  clock.sight (firstLook n) (firstLook n + 1) (firstLook n + 2)

/-- The time of day when the policy decides after the request that was sent as number `n`. -/
def decidingAfter (clock : Clock) (n : Nat) : Moment :=
  clock.now (firstLook n + 3)

end Clock

/-- What sends requests, under the name of its class. -/
structure Transport where
  name : String
  /-- Whether the transport suspends instead of waiting. -/
  isAsync : Bool := false
  /-- The request that leaves for the one that it is given. -/
  relay : Request → Request := id

/-- What is at the other end: the answer to the request that is sent as number `n`. -/
abbrev Network := Nat → Request → Value → Except Fault Response

/-- What the handlers of a client have in common. -/
structure HandlerSettings where
  transport : Transport
  retryer : Retryer
  interceptors : List Interceptor
  log : ExchangeLog
  decode404 : Value
  closeAfterDecode : Value
  policy : PropagationPolicy
  /-- The status from which on a response reports an error. -/
  errorThreshold : Value
  clock : Clock

/-- What carries out the calls of one method. -/
structure Handler extends HandlerSettings where
  target : Target
  plan : Plan
  encoder : Encoder
  queryMapEncoder : QueryMapEncoder
  options : HttpBinding.Options
  decoder : Decoder
  errorDecoder : ErrorDecoder

namespace Handler

/-- The key of the method. -/
def key (h : Handler) : String :=
  h.plan.key

/-- The name of the class of a handler. -/
def className (h : Handler) : String :=
  if h.transport.isAsync then "AsyncMethodHandler" else "SynchronousMethodHandler"

/-- A handler in words. -/
def describe (h : Handler) : String :=
  h.className ++ "(" ++ h.key ++ ")"

/-- Runs the interceptors on a template. -/
def intercept (h : Handler) (t : Template) : Except Fault Template :=
  match Interceptor.applyAll h.interceptors t with
  | (t, none) => .ok t
  | (_, some fault) => .error fault

/-- The options of a call: those that an argument gives, or those of the client. -/
def callOptions (h : Handler) (arguments : List Value) : Except Fault Value :=
  match h.plan.optionsIndex with
  | none => .ok h.options.toValue
  | some index => do
    let value ← Plan.argument arguments index
    if value.isNull then .ok h.options.toValue else .ok value

/-- The request that a call sends, and its options. -/
def prepare [Charsets] (h : Handler) (arguments : List Value) :
    Except Fault (Request × Value) := do
  let t ← h.plan.fill h.encoder h.queryMapEncoder arguments
  let t ← h.intercept t
  let request ← (h.target.apply t).2
  let options ← h.callOptions arguments
  .ok (request, options)

/-- Whether a status is below a threshold, which must be a number. -/
def isBelow (status : Int) (threshold : Value) : Except Fault Bool :=
  match threshold.quantity? with
  | some q => .ok ((Quantity.whole status).lt q)
  | none => .error (.runtime "TypeError")

/-- Whether a response with a status is decoded into a result. -/
def decodes (h : Handler) (status : Int) : Except Fault Bool := do
  if ← isBelow status h.errorThreshold then .ok true
  else .ok (h.decode404.isOn && status == 404 && !h.plan.returns.isNull)

/-- A fault of a decoder, told together with the request. -/
def decodeFault (response : Response) (request : Request) (fault : Fault) : Fault :=
  let message := fault.name ++ " reading " ++ request.summary ++ ": " ++ fault.wording
  (Decoder.refusal response message).raisedFrom fault

/-- The result of decoding a response to a request. -/
def decode (h : Handler) (request : Request) (response : Response) : Except Fault Value :=
  match h.decoder.decode response h.plan.returns with
  | .ok value => .ok value
  | .error fault =>
    if fault.family.isOwn || !fault.family.isError || h.policy = .unwrap then .error fault
    else .error (decodeFault response (response.request.getD request) fault)

/-- What the error decoder makes of a response. -/
def decodeError (h : Handler) (now : Moment) (response : Response) : Fault :=
  match h.errorDecoder.decode now h.key response with
  | .ok fault => fault
  | .error fault => fault

/-- The closings of the body of a response. -/
def closing (response : Response) : List Event :=
  response.holders.map .closed

/-- The outcome of a response, and whether its body stays open. -/
def judge (h : Handler) (now : Moment) (request : Request) (response : Response) :
    Except Fault Value × Bool :=
  if h.plan.returns.isResponse then (response.buffered.map .response, false)
  else
    match h.decodes response.status with
    | .error fault => (.error fault, false)
    | .ok false => (.error (h.decodeError now response), false)
    | .ok true =>
      if h.plan.returns.isNull then (.ok .null, false)
      else
        match h.decode request response with
        | .ok value => (.ok value, !h.closeAfterDecode.isOn)
        | .error fault => (.error fault, false)

/-- Comes to the outcome of a response and closes its body unless it stays open. -/
def settle (h : Handler) (now : Moment) (request : Request) (response : Response) :
    Traced Value :=
  let response := { response with request := some (response.request.getD request) }
  match h.judge now request response with
  | (outcome, true) => Traced.lift outcome
  | (outcome, false) => (Traced.lift outcome).ending (closing response)

/-- The fault of the transport that stands for a fault of the operating system. -/
def transportFault (request : Request) (fault : Fault) : Fault :=
  if fault.family = .transport then fault
  else
    let message := fault.name ++ " executing " ++ request.summary ++ ": " ++ fault.wording
    { family := .transport, message := some message, request := some request : Fault }.raisedFrom
      fault

/-- The response with its body under the number of the request that it answers. -/
def heldBy (n : Nat) (response : Response) : Response :=
  { response with body := response.body.map fun body => { body with holder := .stream n } }

/-- What follows when the transport answers the request that was sent as number `n`. -/
def receive [Charsets] (h : Handler) (sight : Sight) (n : Nat) (request : Request) :
    Except Fault Response → Traced Value
  | .error fault =>
    if fault.family = .transport || fault.family.isOs then
      (Traced.fail (transportFault request fault)).after
        (h.log.transportFault h.key fault sight.elapsed)
    else Traced.fail fault
  | .ok response => do
    Traced.note [.received n response.body.isSome]
    let response ← h.log.response h.key n sight.elapsed (heldBy n response)
    h.settle sight.now request response

/-- The fault that leaves a call when the retry policy allows no further attempt. -/
def exhausted (h : Handler) (fault : Fault) : Fault :=
  if h.policy = .unwrap && fault.family.isRetryable then fault.cause?.getD fault else fault

/-- The events between an attempt that failed and the next one. -/
def pause (h : Handler) (fault : Fault) (seconds : Quantity) : List Event :=
  h.log.retry h.key fault seconds
    ++ if (Quantity.whole 0).lt seconds then [.waited seconds] else []

/-- What the time between two attempts comes to: nobody waits for no time. -/
def resting (wait : Waiting) (look : Nat) (seconds : Quantity) : Except Failure Unit :=
  if (Quantity.whole 0).lt seconds then wait look seconds else .ok ()

end Handler

end HttpBinding
