import HttpBinding.Client.Basic
import HttpBinding.Client.Capability

/-!
# Ready-made capabilities

Small capabilities that decorate one component: a transport that marks every
request with a header, decoders whose results are changed, and handlers that
decode a missing resource as an empty result.
-/

namespace HttpBinding

namespace Transport

/-- A request with one value for a header, which replaces those it had, and the usual charset. -/
def mark (name value : String) (r : Request) : Request :=
  { r with headers := r.headers.put name [value], charset := "utf-8" }

/-- A transport that marks every request before it leaves. -/
def tracing (name value : String) (t : Transport) : Transport where
  name := if t.isAsync then "AsyncTracingTransport" else "TracingTransport"
  isAsync := t.isAsync
  relay r := t.relay (mark name value r)

end Transport

namespace Decoder

/-- A decoder whose results are changed. -/
def changed (name : String) (change : Value → Except Fault Value) (inner : Decoder) : Decoder where
  name := name
  decode response declared := do
    let result ← inner.decode response declared
    change result

/-- Appends to a text. -/
def append (ending : String) : Value → Except Fault Value
  | .text s => .ok (.text (s ++ ending))
  | _ => .error (.runtime "TypeError")

end Decoder

namespace Capability

/-- A capability that leaves everything as it is. -/
def passive : Capability where
  name := "Passive"

/-- Marks every request with a header. -/
def tracing (header value : String) : Capability where
  name := "Tracing"
  transport t := .replaced (t.tracing header value)

/-- Turns results into upper case. -/
def upper : Capability where
  name := "Upper"
  decoder d := .replaced (d.changed "UpperDecoder" Client.upperCase)

/-- Appends to results. -/
def suffix (ending : String) : Capability where
  name := "Suffix"
  decoder d := .replaced (d.changed "SuffixDecoder" (Decoder.append ending))

/-- Decodes a missing resource as an empty result. -/
def factory404 : Capability where
  name := "Factory404"
  factory settings := .kept { settings with decode404 := .bool true }

/-- Puts another logger in the place of the one there is, unless they are the same. -/
def swapLogger (name : String) : Capability where
  name := "Swap"
  logger old := if old = some name then .kept old else .replaced (some name)

end Capability

end HttpBinding
