import HttpBinding.Plan.Basic
import HttpBinding.Text.Blank

/-!
# Contracts

A contract knows directives and markers and says what each of them does to a
plan. What it does not know on an interface is passed over, what it does not
know on a method is a warning, and a marker that it does not know means nothing.
The usual contract knows request lines, headers, bodies and ignored methods, and
parameters that are variables, query maps or header maps.
-/

namespace HttpBinding

/-- A change to a plan. -/
abbrev Revision := Plan → Except BuildFault Plan

/-- What directives and markers mean, under the name of a class of contracts. -/
structure Contract where
  name : String
  onInterface : Directive → Option Revision
  onMethod : Directive → Option Revision
  /-- A marker is told the position and the name of its parameter. -/
  onParameter : Marker → Option (Nat → String → Revision)

namespace Contract

/-- A text without the blanks around it. -/
def trimmed (chars : List Char) : String :=
  String.ofList (Text.trim chars)

/-- The name and the value of a header line. -/
def headerOfLine (place : Place) (line : String) : Except BuildFault (String × String) :=
  match Text.cut ':' line.toList with
  | (name, some value) =>
    if (Text.trim name).isEmpty then .error (.malformedHeader line place)
    else .ok (trimmed name, trimmed value)
  | (_, none) => .error (.malformedHeader line place)

/-- The headers of several lines; values of the same name come together. -/
def headersOfLines (place : Place) (lines : List String) : Except BuildFault Headers := do
  let pairs ← lines.mapM (headerOfLine place)
  .ok (pairs.foldl (fun headers pair => headers.extend pair.1 [pair.2]) [])

/-- Replaces headers of the template by those of a directive. -/
def setHeaders (place : Place) (lines : List String) (plan : Plan) : Except BuildFault Plan := do
  let headers ← headersOfLines place lines
  let template := headers.foldl (fun t entry => t.header entry.1 entry.2) plan.template
  .ok { plan with template := template }

/-- Headers on an interface. -/
def interfaceHeaders (lines : List String) : Revision := fun plan =>
  if lines.isEmpty then .error (.emptyHeaders (.interface plan.api))
  else setHeaders (.interface plan.key) lines plan

/-- Headers on a method. -/
def methodHeaders (lines : List String) : Revision := fun plan =>
  if lines.isEmpty then .error (.emptyHeaders (.method plan.key))
  else setHeaders (.method plan.key) lines plan

/-- Whether a character may stand in a verb. -/
def isVerbChar (c : Char) : Bool :=
  'A' ≤ c && c ≤ 'Z'

/-- The verb and the address of a request line, which must be a single line. -/
def splitRequestLine? (line : List Char) : Option (List Char × List Char) :=
  let verb := line.takeWhile isVerbChar
  let address := (line.dropWhile isVerbChar).dropWhile (· == ' ')
  if verb.isEmpty || address.contains '\n' then none else some (verb, address)

/-- A request line on a method. -/
def requestLine (text : String) (decodeSlash : Bool) (format : CollectionFormat) : Revision :=
  fun plan =>
    let line := Text.trim text.toList
    if line.isEmpty then .error (.emptyRequestLine plan.key)
    else
      match splitRequestLine? line with
      | none => .error (.malformedRequestLine plan.key)
      | some (verb, address) =>
        match Method.ofName? (String.ofList verb) with
        | none => .error (.unknownVerb (String.ofList verb) plan.key)
        | some method =>
          let template := { plan.template with method := some method }.uri (String.ofList address) false
          .ok { plan with
            template := { template with decodeSlash := decodeSlash, format := format } }

/-- A body on a method: with an opening brace in it, it is filled in by every call. -/
def body [Charsets] (text : String) : Revision := fun plan =>
  if text.isEmpty then .error (.emptyBody plan.key)
  else if text.toList.contains '\x7b' then
    .ok { plan with template := plan.template.setBodyTemplate text }
  else .ok { plan with template := (plan.template.setBodyText text).1 }

/-- A method that is not handled. -/
def ignore : Revision := fun plan =>
  .ok { plan with ignored := true }

/-- A parameter that is a variable. A variable that no placeholder uses belongs to the form. -/
def param (given : String) (expander : Option Expander) (index : Nat) (parameter : String) :
    Revision := fun plan =>
  let name := if given.isEmpty then parameter else given
  if name.isEmpty then .error (.emptyName index)
  else
    let plan := plan.bindName name index
    let plan :=
      match expander with
      | some expander => { plan with expanders := plan.expanders.put index expander }
      | none => plan
    if plan.template.hasVariable name || plan.isFormName name then .ok plan
    else .ok { plan with formNames := plan.formNames ++ [.text name] }

/-- A parameter whose entries become query parameters. -/
def queryMap (encoded : Bool) (index : Nat) : Revision := fun plan =>
  if plan.queryMapIndex.isSome then .error (.manyMaps .query plan.key)
  else .ok { plan with queryMapIndex := some index, queryMapEncoded := encoded }

/-- A parameter whose entries become headers. -/
def headerMap (index : Nat) : Revision := fun plan =>
  if plan.headerMapIndex.isSome then .error (.manyMaps .header plan.key)
  else .ok { plan with headerMapIndex := some index }

/-- A contract that knows nothing yet. -/
def declarative : Contract where
  name := "DeclarativeContract"
  onInterface _ := none
  onMethod _ := none
  onParameter _ := none

/-- The usual contract. -/
def usual [Charsets] : Contract where
  name := "DefaultContract"
  onInterface
    | .headers lines => some (interfaceHeaders lines)
    | _ => none
  onMethod
    | .requestLine text decodeSlash format => some (requestLine text decodeSlash format)
    | .headers lines => some (methodHeaders lines)
    | .body text => some (body text)
    | .ignore => some ignore
    | .custom .. => none
  onParameter
    | .param name expander => some (param name expander)
    | .queryMap encoded => some fun index _ => queryMap encoded index
    | .headerMap => some fun index _ => headerMap index
    | .custom .. | .remark => none

/-- Adds to what a contract knows; what is added comes first. -/
def register (contract : Contract) (onInterface onMethod : Directive → Option Revision)
    (onParameter : Marker → Option (Nat → String → Revision)) : Contract where
  name := contract.name
  onInterface directive := (onInterface directive).or (contract.onInterface directive)
  onMethod directive := (onMethod directive).or (contract.onMethod directive)
  onParameter marker := (onParameter marker).or (contract.onParameter marker)

end Contract

end HttpBinding
