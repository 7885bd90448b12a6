import HttpBinding.Message.Response
import HttpBinding.Moment.HttpDate

/-!
# Error decoders

An error decoder makes a fault from a response that reports an error. The usual
one tells status, reason, request and the beginning of the body; when the
response says after which time to try again, the fault may be retried.
-/

namespace HttpBinding

/-- An error decoder under the name of its class, which may look at the clock and fail itself. -/
structure ErrorDecoder where
  name : String
  decode : Moment → String → Response → Except Fault Fault

namespace ErrorDecoder

/-- How many octets of a body are quoted in a message. -/
def quotedOctets : Nat := 400

/-- The moment some seconds after now. -/
def momentAfter (now : Moment) (seconds : Int) : Except Fault Moment :=
  if HttpDate.maxDuration ≤ seconds then .error (.runtime "OverflowError")
  else
    match now.addSeconds? seconds with
    | some moment => .ok moment
    | none => .error (.runtime "OverflowError")

/-- A moment whose clock is known; one that tells no offset is universal time. -/
def withOffset (m : Moment) : Moment :=
  { m with offset := some (m.offset.getD 0) }

/-- The moment that the values of a header name: seconds from now, or a date. -/
def retryAfter (now : Moment) (values : List String) : Except Fault (Option Moment) :=
  match values with
  | [] => .ok none
  | value :: _ =>
    let word := Text.trim value.toList
    if Text.isDigits word then
      match Number.readInt? (String.ofList word) with
      | some seconds => (momentAfter now seconds).map some
      | none => .error (.runtime "ValueError")
    else
      match HttpDate.read (String.ofList word) with
      | .moment m => .ok (some (withOffset m))
      | .notADate => .ok none
      | .outOfRange => .error (.runtime "OverflowError")

/-- The request in the message of a fault. -/
def requestPart : Option Request → String
  | some r => " during [" ++ r.method.name ++ "] to [" ++ r.url ++ "]"
  | none => ""

/-- The fault that a response reports. -/
def decodeUsual [Charsets] (now : Moment) (key : String) (response : Response) :
    Except Fault Fault := do
  let body ← response.read
  let snippet ← decodeOctets response.charset (body.take quotedOctets)
  let message := "[" ++ Number.intText response.status ++ "] " ++ response.reason
    ++ requestPart response.request ++ " [" ++ key ++ "]: [" ++ snippet ++ "]"
  let moment ← retryAfter now (response.header "Retry-After")
  .ok
    { family := if moment.isSome then .retryableResponse else .response
      message := some message
      status := response.status
      reason := response.reason
      request := response.request
      body := body
      headers := response.headers
      retryAfter := moment }

/-- The usual error decoder. -/
def usual [Charsets] : ErrorDecoder :=
  ⟨"DefaultErrorDecoder", decodeUsual⟩

end ErrorDecoder

end HttpBinding
