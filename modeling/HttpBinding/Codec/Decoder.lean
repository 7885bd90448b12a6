import HttpBinding.Codec.Adapters
import HttpBinding.Message.Response

/-!
# Response decoders

A decoder makes a result of the declared type from a response. The plain
decoders know text and octets; the JSON decoder reads a value by the declared
type. Where there is nothing to decode, the result is the empty value of the
type.
-/

namespace HttpBinding

/-- The empty value of a type: the empty container of a container type, otherwise null. -/
def Ty.emptyValue : Ty → Value
  | .container .list _ => .list []
  | .container .tuple _ => .tuple []
  | .container .set _ => .set []
  | .container .frozenset _ => .frozenset []
  | .container .dict _ => .dict []
  | .octets => .octets []
  | _ => .null

/-- A response decoder under the name of its class. -/
structure Decoder where
  name : String
  decode : Response → Ty → Except Fault Value

namespace Decoder

/-- A fault of decoding a response. -/
def refusal (response : Response) (message : String) : Fault :=
  { family := .decode, message := some message, status := response.status
    request := response.request }

/-- Whether text is a value of a type. -/
def takesText : Ty → Bool
  | .text => true
  | .any => true
  | .object => true
  | _ => false

/-- Decodes text and nothing else. -/
def decodeText [Charsets] (response : Response) (declared : Ty) : Except Fault Value :=
  if takesText declared then response.text.map Value.text
  else
    .error (refusal response (declared.resultName ++ " is not a type supported by this decoder."))

/-- The decoder of text. -/
def string [Charsets] : Decoder :=
  ⟨"StringDecoder", decodeText⟩

/-- Whether a status says that there is nothing to decode. -/
def isEmptyStatus (status : Int) : Bool :=
  status == 404 || status == 204

/-- Decodes nothing, text and octets. -/
def decodeUsual [Charsets] (response : Response) (declared : Ty) : Except Fault Value :=
  if declared.isNull then .ok .null
  else if isEmptyStatus response.status then .ok declared.emptyValue
  else if response.body.isNone then .ok .null
  else if declared.isOctets then response.read.map Value.octets
  else decodeText response declared

/-- The usual decoder. -/
def usual [Charsets] : Decoder :=
  ⟨"DefaultDecoder", decodeUsual⟩

/-- Whether octets are blank throughout. -/
def areBlank (octets : Octets) : Bool :=
  octets.all fun b => Text.isAsciiBlank b.toNat

/-- What a failure of adapters leads to: a body that is refused cannot be decoded. -/
def unread (response : Response) (declared : Ty) (failure : Failure) : Fault :=
  if failure.name == Adapters.loadRefusal then
    (refusal response
      ("Response body is not a valid " ++ declared.resultName ++ ": "
        ++ failure.fault.wording)).raisedFrom failure.fault
  else failure.fault

/-- Reads a value of a declared type from JSON octets. -/
def readJson (adapters : Adapters) (response : Response) (declared : Ty) (octets : Octets) :
    Except Fault Value :=
  (adapters.load declared octets).mapError (unread response declared)

/-- Decodes JSON. A blank body is null, and octets are not looked into. -/
def decodeJson (adapters : Adapters) (response : Response) (declared : Ty) : Except Fault Value :=
  if declared.isNull then .ok .null
  else if isEmptyStatus response.status then .ok declared.emptyValue
  else do
    let octets ← response.read
    if areBlank octets then .ok .null
    else if declared.isOctets then .ok (.octets octets)
    else readJson adapters response declared octets

/-- The JSON decoder. -/
def json (adapters : Adapters) : Decoder :=
  ⟨"JsonDecoder", decodeJson adapters⟩

/-- A decoder that decodes what a mapper makes of the response. -/
def mapped (mapper : Response → Ty → Except Fault Response) (inner : Decoder) : Decoder where
  name := "ResponseMappingDecoder"
  decode response declared := do
    let mappedResponse ← mapper response declared
    inner.decode mappedResponse declared

end Decoder

end HttpBinding
