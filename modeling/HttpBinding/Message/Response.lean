import HttpBinding.Charsets
import HttpBinding.Text.Blank
import HttpBinding.Text.Case
import HttpBinding.Text.Quoted
import HttpBinding.Text.Split

/-!
# Responses

A response may have a body. Reading a body gives the same octets every time, or
fails every time. A body that is still open elsewhere has to be closed; where it
is held says which one that is.
-/

namespace HttpBinding

/-- Where the octets of a body are held, and so what closing it releases. -/
inductive Holder where
  /-- The open stream of the response to the request sent as number `n`. -/
  | stream (n : Nat)
  /-- The copy in memory that was taken from that stream before it was decoded. -/
  | copy (n : Nat)
  /-- Memory that no one else refers to. -/
  | memory
  deriving DecidableEq, Repr

/-- What reading a body comes to. -/
inductive Content where
  | octets (o : Octets)
  | broken (f : Fault)
  deriving DecidableEq, Repr

/-- The body of a response. -/
structure Body where
  holder : Holder
  content : Content
  deriving DecidableEq, Repr

/-- A body in memory. -/
def Body.ofOctets (octets : Octets) : Body :=
  ⟨.memory, .octets octets⟩

/-- The octets of a body. -/
def Body.read (b : Body) : Except Fault Octets :=
  match b.content with
  | .octets o => .ok o
  | .broken f => .error f

/-- What a transport hands back. -/
structure Response where
  status : Int
  reason : String := ""
  headers : Entries String (List String) := []
  body : Option Body := none
  request : Option Request := none
  deriving DecidableEq, Repr

namespace Response

/-- The values of the first header whose name is the given one, without regard to case. -/
def header (r : Response) (name : String) : List String :=
  ((r.headers.find? fun entry => Text.sameName entry.1 name).map Prod.snd).getD []

/-- The charset that one parameter of a content type tells. -/
def charsetOfParameter? (part : List Char) : Option String :=
  match Text.cut '=' (Text.trim part) with
  | (key, some value) =>
    if Text.lower key == "charset".toList && !value.isEmpty then
      some (String.ofList (Text.trimBy (· == '"') value))
    else none
  | (_, none) => none

/-- The first charset that the content types of a response tell; UTF-8 when none does. -/
def charset (r : Response) : String :=
  let parameters := (r.header "Content-Type").flatMap fun value =>
    (Text.splitOn ';' value.toList).drop 1
  (parameters.findSome? charsetOfParameter?).getD "utf-8"

/-- The octets of the body; none without a body. -/
def read (r : Response) : Except Fault Octets :=
  match r.body with
  | some body => body.read
  | none => .ok []

/-- The text of the body in the charset of the response. -/
def text [Charsets] (r : Response) : Except Fault String := do
  let octets ← r.read
  decodeOctets r.charset octets

/-- What closing the response releases. -/
def holders (r : Response) : List Holder :=
  match r.body with
  | some body => [body.holder]
  | none => []

/-- The response with its body read into the given place. The body it had is closed either way. -/
def bufferedIn (holder : Holder) (r : Response) : Except Fault Response := do
  let octets ← r.read
  .ok { r with body := some ⟨holder, .octets octets⟩ }

/-- The response with its body in memory. -/
def buffered (r : Response) : Except Fault Response :=
  r.bufferedIn .memory

/-- Status and reason of a response. -/
def describe (r : Response) : String :=
  "Response(status=" ++ Number.intText r.status ++ ", reason=" ++ Text.quoted r.reason ++ ")"

end Response

end HttpBinding
