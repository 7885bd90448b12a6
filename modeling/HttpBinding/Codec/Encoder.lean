import HttpBinding.Codec.Adapters
import HttpBinding.Codec.Form
import HttpBinding.Template.Basic

/-!
# Body encoders

An encoder writes a value into the body of a template. It is told the declared
type of the value, or that the value is a form. The usual encoder takes text,
octets and forms and refuses everything else; the JSON encoder writes a value by
its declared type. Both set a content type where none is set, the first one for
forms only.
-/

namespace HttpBinding

/-- The declared type that marks a form. -/
def Ty.form : Ty :=
  .container .mapping [.text, .any]

/-- Whether a declared type marks a form. -/
def Ty.isForm (ty : Ty) : Bool :=
  ty.same .form

/-- A body encoder under the name of its class. -/
structure Encoder where
  name : String
  encode : Value → Ty → Template → Template × Option Fault

namespace Encoder

/-- The content type of forms. -/
def formType : String :=
  "application/x-www-form-urlencoded; charset=UTF-8"

/-- Sets the content type unless the template has one. -/
def withContentType (contentType : String) (t : Template) : Template :=
  if (t.headerValues "Content-Type").isEmpty then t.header "Content-Type" [contentType] else t

/-- Writes a form and its content type. -/
def encodeForm [Charsets] (value : Value) (t : Template) : Template × Option Fault :=
  match Form.ofValue value with
  | .error fault => (t, some fault)
  | .ok text =>
    match t.setBodyText text with
    | (t, none) => (withContentType formType t, none)
    | (t, some fault) => (t, some fault)

/-- The octet that a member of a sequence of octets is. -/
def octetOf : Value → Except Fault UInt8
  | .int n => if 0 ≤ n && n < 256 then .ok n.toNat.toUInt8 else .error (.runtime "ValueError")
  | .bool b => .ok (if b then 1 else 0)
  | _ => .error (.runtime "TypeError")

/--
As many zero octets as a number says. The number must be one that a size can be,
and there must be room for them.
-/
def zeroOctets (n : Int) : Except Fault Octets :=
  if n < -0x8000000000000000 || 0x8000000000000000 - 33 ≤ n then .error (.runtime "OverflowError")
  else if n < 0 then .error (.runtime "ValueError")
  else if 0x800000000000 ≤ n then .error (.runtime "MemoryError")
  else .ok (List.replicate n.toNat 0)

/-- The octets that a value is turned into: a number is that many zeros, a sequence its members. -/
def octetsOf : Value → Except Fault Octets
  | .octets o => .ok o
  | .octetBuffer o => .ok o
  | .int n => zeroOctets n
  | .bool b => zeroOctets (Value.boolInt b)
  | .text _ => .error (.runtime "TypeError")
  | value =>
    match value.elements? with
    | some items => items.mapM octetOf
    | none => .error (.runtime "TypeError")

/-- Whether a value is octets already. -/
def isOctets : Value → Bool
  | .octets _ => true
  | .octetBuffer _ => true
  | _ => false

/-- Whether a value is text. -/
def isText : Value → Bool
  | .text _ => true
  | _ => false

/-- Writes forms, text and octets; null writes nothing, and every other value is refused. -/
def encodeUsual [Charsets] (value : Value) (declared : Ty) (t : Template) :
    Template × Option Fault :=
  if declared.isForm then encodeForm value t
  else if declared.isText || isText value then t.setBodyText value.plainText
  else if declared.isOctets || isOctets value then
    match octetsOf value with
    | .ok octets => (t.setBody (some octets), none)
    | .error fault => (t, some fault)
  else if value.isNull then (t, none)
  else (t, some (.encode (value.typeName ++ " is not a type supported by this encoder.")))

/-- The usual encoder. -/
def usual [Charsets] : Encoder :=
  ⟨"DefaultEncoder", encodeUsual⟩

/-- What a failure of adapters leads to: a value that is refused cannot be encoded. -/
def unwritten (value : Value) (failure : Failure) : Fault :=
  if failure.name == Adapters.dumpRefusal then
    (Fault.encode ("Unable to serialize " ++ value.typeName ++ " as JSON: "
      ++ failure.fault.wording)).raisedFrom failure.fault
  else failure.fault

/-- The JSON octets of a value by a declared type; a form has no type of its own. -/
def jsonOctets (adapters : Adapters) (value : Value) (declared : Ty) : Except Fault Octets :=
  let written := if declared.isForm || declared.isNull then .any else declared
  (adapters.dump written value).mapError (unwritten value)

/-- The JSON encoder, with the content type it sets. -/
def json (adapters : Adapters) (contentType : String) : Encoder where
  name := "JsonEncoder"
  encode value declared t :=
    match jsonOctets adapters value declared with
    | .ok octets => (withContentType contentType (t.setBody (some octets)), none)
    | .error fault => (t, some fault)

/-- The content type that the JSON encoder sets unless told otherwise. -/
def jsonType : String :=
  "application/json"

end Encoder

end HttpBinding
