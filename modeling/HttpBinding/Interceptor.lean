import HttpBinding.Octets.Base64
import HttpBinding.Template.Resolve

/-!
# Interceptors

Interceptors run in the order they were registered, on the resolved template
and before it becomes a request. Each may change the template, and the first
that fails ends the preparation of the request.
-/

namespace HttpBinding

/-- A change to resolved templates, under the name of its class. -/
structure Interceptor where
  name : String
  apply : Template → Template × Option Fault

namespace Interceptor

/-- The value of an authorization header for a user and a password. -/
def basicCredentials [Charsets] (user password charset : String) : Except Fault String := do
  let octets ← encodeText charset (user ++ ":" ++ password)
  .ok ("Basic " ++ String.ofList (Base64.encode octets))

/-- Sets the authorization header. The credentials are encoded once, when the interceptor is made. -/
def basicAuth [Charsets] (user password charset : String) : Except Fault Interceptor := do
  let credentials ← basicCredentials user password charset
  .ok ⟨"BasicAuthInterceptor", fun t => (t.header "Authorization" [credentials], none)⟩

/-- The interceptor for a user, a password and perhaps a charset. Users and passwords of any
kind go by their plain text; a charset has to be a name. -/
def ofCredentials [Charsets] : List Value → Except Fault Interceptor
  | [user, password] => basicAuth user.plainText password.plainText "utf-8"
  | [user, password, .text charset] => basicAuth user.plainText password.plainText charset
  | _ => .error (.runtime "TypeError")

/-- Runs interceptors one after another, up to the first that fails. -/
def applyAll : List Interceptor → Template → Template × Option Fault
  | [], t => (t, none)
  | interceptor :: rest, t =>
    match interceptor.apply t with
    | (t, none) => applyAll rest t
    | (t, some fault) => (t, some fault)

end Interceptor

end HttpBinding
