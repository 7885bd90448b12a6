import HttpBinding.Template.Resolve

/-!
# Targets

A target is where the calls on an interface go. A fixed target has a base
address, which applies to a template that has none of its own; an empty target
has none, so that every template must bring an absolute address.
-/

namespace HttpBinding

/-- The interface whose calls are sent, and where they are sent to. -/
inductive Target where
  | fixed (api url name : String)
  | empty (api name : String)
  deriving DecidableEq, Repr

namespace Target

/-- A target with a base address, which must not be empty. The name defaults to the address. -/
def ofUrl (api url : String) (name : Option String) : Except Fault Target :=
  if url.isEmpty then .error (.foreign "ValueError" "url must not be empty")
  else
    let base := String.ofList (Template.dropSlashes url.toList)
    let given := name.getD ""
    .ok (fixed api base (if given.isEmpty then base else given))

/-- The interface of a target. -/
def api : Target → String
  | fixed api _ _ => api
  | empty api _ => api

/-- The name of a target. -/
def name : Target → String
  | fixed _ _ name => name
  | empty _ name => name

/-- The base address, which an empty target does not have. -/
def url : Target → Except Fault String
  | fixed _ url _ => .ok url
  | empty _ _ => .error (.foreign "ValueError" "EmptyTarget has no url")

/-- A target in words. -/
def describe : Target → String
  | fixed api url name =>
    let name := if name == url then "" else ", name=" ++ name
    "HardCodedTarget(type=" ++ api ++ name ++ ", url=" ++ url ++ ")"
  | empty api name => "EmptyTarget(type=" ++ api ++ ", name=" ++ name ++ ")"

/-- Whether an address is one that a request can be sent to on its own. -/
def isAbsolute (address : String) : Bool :=
  Template.startsWith "http" address

/-- Turns a resolved template into a request. The template may get its base address from the target. -/
def apply (target : Target) (t : Template) : Template × Except Fault Request :=
  match target with
  | fixed _ url _ =>
    let t := if isAbsolute t.base then t else t.target url
    (t, t.request)
  | empty _ _ =>
    if isAbsolute t.base || isAbsolute t.path then (t, t.request)
    else
      (t, .error (.foreign "ValueError"
        ("Request with non-absolute URL not supported with empty target: " ++ t.url)))

end Target

end HttpBinding
