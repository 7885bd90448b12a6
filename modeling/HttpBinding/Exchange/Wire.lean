import HttpBinding.Exchange.Handler

/-!
# The wire

Requests leave the library as calls of a connection, which speaks HTTP. A
connection answers with a status, a reason, headers in the order of arrival and
octets, or it fails. Failures on the way are faults of the transport, and other
failures of the request end the exchange; what has nothing to do with the
request is passed on. A connection that waits leaves the body open to be read
later, one that suspends hands it over in memory.
-/

namespace HttpBinding.Wire

/-- How long the parts of an exchange may take. -/
structure Timeouts where
  connect : Value
  read : Value
  write : Value
  pool : Value

/--
The time to connect has a limit of its own; the other limits are the same, unless the
options give all limits together in a tuple.
-/
def Timeouts.ofOptions (o : HttpBinding.Options) : Timeouts :=
  match o.readTimeout with
  | .tuple (connect :: read :: others) =>
    ⟨connect, read, others[0]?.getD .null, others[1]?.getD .null⟩
  | limit => ⟨o.connectTimeout, limit, limit, limit⟩

/-- A call of a connection. -/
structure Call where
  method : String
  url : String
  headers : List (String × String)
  content : Option Octets
  timeouts : Timeouts
  followRedirects : Value
  /-- Whether the body is left open. -/
  isStreamed : Bool

/-- The call for a request. -/
def Call.ofRequest (isAsync : Bool) (r : Request) (o : HttpBinding.Options) : Call where
  method := r.method.name
  url := r.url
  headers := r.headerItems
  content := r.body
  timeouts := .ofOptions o
  followRedirects := o.followRedirects
  isStreamed := !isAsync

/-- Where an exchange fails, by what the transports catch. -/
inductive Side where
  /-- On the way to the other end. -/
  | way
  /-- Above the network, but with the request. -/
  | request
  /-- Elsewhere. -/
  | other
  deriving DecidableEq, Repr

/-- What a connection answers. -/
inductive Answer where
  | reply (status : Int) (reason : String) (headers : List (String × String)) (body : Octets)
  | failure (side : Side) (failure : Failure)
  deriving DecidableEq, Repr

/-- The fault that a failure comes to: what has nothing to do with the request is passed on. -/
def faultOf (r : Request) (side : Side) (failure : Failure) : Fault :=
  let told (family : Family) : Fault :=
    let text := failure.name ++ " executing " ++ r.summary ++ ": " ++ failure.fault.wording
    { family := family, message := some text, request := some r : Fault }.raisedFrom failure.fault
  match side with
  | .way => told .transport
  | .request => told .exchange
  | .other => failure.fault

/-- Headers from the pairs of a connection: the values of a name come together. -/
def groupHeaders (pairs : List (String × String)) : Headers :=
  pairs.foldl (fun headers pair => headers.extend pair.1 [pair.2]) []

/-- Where the body of a response is held. -/
def holderOf (isAsync : Bool) : Holder :=
  if isAsync then .memory else .stream 0

/-- The response that an answer comes to. -/
def responseOf (isAsync : Bool) (r : Request) : Answer → Except Fault Response
  | .reply status reason headers body =>
    .ok ⟨status, reason, groupHeaders headers, some ⟨holderOf isAsync, .octets body⟩, some r⟩
  | .failure side failure => .error (faultOf r side failure)

/-- The transport that speaks to a connection. -/
def transport (isAsync : Bool) : Transport where
  name := if isAsync then "AsyncHttpxTransport" else "HttpxTransport"
  isAsync := isAsync

/-- The network that a connection makes, by its answers to calls. -/
def network (isAsync : Bool) (connection : Call → Answer) : Network := fun _ r options =>
  match Options.ofValue? options with
  | some o => responseOf isAsync r (connection (.ofRequest isAsync r o))
  | none => .error (.runtime "AttributeError")

end HttpBinding.Wire
