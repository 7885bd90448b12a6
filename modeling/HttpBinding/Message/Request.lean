import HttpBinding.Entries
import HttpBinding.Message.Method
import HttpBinding.Octets.Utf8

/-!
# Requests

A request is complete: nothing in it is left to be filled in. Headers keep
their order and the order of their values.
-/

namespace HttpBinding

/-- What a transport sends. -/
structure Request where
  method : Method
  url : String
  headers : Entries String (List String) := []
  body : Option Octets := none
  charset : String := "utf-8"
  deriving DecidableEq, Repr

namespace Request

/-- The pairs of a header name and one value. -/
def headerItems (r : Request) : List (String × String) :=
  r.headers.flatMap fun (name, values) => values.map fun value => (name, value)

/-- Method and address. -/
def summary (r : Request) : String :=
  r.method.name ++ " " ++ r.url

/-- The first line of the request. -/
def line (r : Request) : String :=
  r.summary ++ " HTTP/1.1"

end Request

end HttpBinding
