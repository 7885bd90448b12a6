/-!
# Request methods

The nine methods of HTTP, by their names on the wire.
-/

namespace HttpBinding

/-- A request method. -/
inductive Method where
  | get
  | head
  | post
  | put
  | delete
  | connect
  | options
  | trace
  | patch
  deriving DecidableEq, Repr

namespace Method

/-- The name of a method on the wire. -/
def name : Method → String
  | get => "GET"
  | head => "HEAD"
  | post => "POST"
  | put => "PUT"
  | delete => "DELETE"
  | connect => "CONNECT"
  | options => "OPTIONS"
  | trace => "TRACE"
  | patch => "PATCH"

/-- All methods. -/
def all : List Method :=
  [get, head, post, put, delete, connect, options, trace, patch]

/-- The method of a name, which must be spelled exactly. -/
def ofName? (text : String) : Option Method :=
  all.find? (·.name == text)

end Method

end HttpBinding
