import HttpBinding.Codec.Encoder
import HttpBinding.Codec.QueryMap
import HttpBinding.Plan.Basic
import HttpBinding.Template.Resolve

/-!
# Filling a template

A call fills a copy of the template of its plan: the address first, then the
variables, with a form or a body encoded before the placeholders are filled,
then the query map and the header map. Entries of a query map replace query
parameters of the same name, entries of a header map are added to the headers.
An argument that is null is left out, except that the address and the body must
be there.
-/

namespace HttpBinding

/-- What the arguments of a call have to do with the body. -/
inductive Strategy where
  /-- The body, if any, comes from the template. -/
  | plain
  /-- Variables that no placeholder uses are the body as a form. -/
  | form
  /-- An argument is the body. -/
  | body
  deriving DecidableEq, Repr

namespace Strategy

/-- The name of the class of a strategy. -/
def name : Strategy → String
  | plain => "BuildTemplateByResolvingArgs"
  | form => "BuildFormEncodedTemplateFromArgs"
  | body => "BuildEncodedTemplateFromArgs"

end Strategy

namespace Template

/-- The text of one value of a query parameter; null has none. -/
def queryText (encoded : Bool) (value : Value) : Option String :=
  if value.isNull then none
  else some (if encoded then value.plainText else Percent.encode value.plainText)

/-- The texts of the values that a value of a query map stands for. -/
def queryTexts (encoded : Bool) (value : Value) : List (Option String) :=
  match value.members? with
  | some items => items.map (queryText encoded)
  | none => [queryText encoded value]

/-- The name of a query parameter that a key of a query map stands for. -/
def queryName (encoded : Bool) (key : Value) : String :=
  if encoded then key.plainText else Percent.encode key.plainText

/-- Sets a query parameter for each entry of a query map. -/
def addQueryMap (t : Template) (encoded : Bool) (entries : ValueEntries) : Template :=
  entries.foldl (fun t entry => t.query (queryName encoded entry.1) (queryTexts encoded entry.2)) t

/-- The texts of the values that a value of a header map stands for. -/
def headerTexts (value : Value) : List String :=
  match value.members? with
  | some items => (items.filter (!·.isNull)).map Value.plainText
  | none => if value.isNull then [] else [value.plainText]

/-- Adds the values of one entry of a header map. A name that is not text cannot be looked for. -/
def addHeaderEntry (t : Template) (key value : Value) : Except Fault Template :=
  match key, headerTexts value with
  | _, [] => .ok t
  | .text name, values => .ok (t.addHeader name values)
  | _, _ => .error (.runtime "AttributeError")

/-- Adds the headers of the entries of a header map. -/
def addHeaderMap (t : Template) (entries : ValueEntries) : Except Fault Template :=
  entries.foldlM (fun t entry => t.addHeaderEntry entry.1 entry.2) t

end Template

namespace Plan

/-- What the arguments of a call have to do with the body. -/
def strategy (plan : Plan) : Strategy :=
  if !plan.formNames.isEmpty && plan.template.bodyText.isNone then .form
  else if plan.hasBody then .body
  else .plain

/-- The argument at a position. -/
def argument (arguments : List Value) (index : Nat) : Except Fault Value :=
  match arguments[index]? with
  | some value => .ok value
  | none => .error (.runtime "IndexError")

/-- The argument at a position counted from the end when it is negative. -/
def argumentFrom (arguments : List Value) (position : Int) : Except Fault Value :=
  let index := if position < 0 then position + arguments.length else position
  if index < 0 then .error (.runtime "IndexError") else argument arguments index.toNat

/-- The argument at a position that is given as a value, which must be a whole number. -/
def argumentAt (arguments : List Value) : Value → Except Fault Value
  | .int n => argumentFrom arguments n
  | .bool b => argumentFrom arguments (Value.boolInt b)
  | _ => .error (.runtime "TypeError")

/-- An argument that must not be null. -/
def required (what : String) (arguments : List Value) (position : Value) : Except Fault Value := do
  let value ← argumentAt arguments position
  if value.isNull then
    .error (.foreign "ValueError" (what ++ " parameter " ++ position.plainText ++ " was null"))
  else .ok value

/-- Takes over the address that an argument gives. -/
def setAddress (plan : Plan) (arguments : List Value) (t : Template) : Except Fault Template :=
  match plan.urlIndex with
  | none => .ok t
  | some index => do
    let value ← required "URI" arguments (.int index)
    .ok (t.target value.plainText)

/-- What an expander makes of a value: without an expander, its text. -/
def expandOne (expander : Option Expander) (value : Value) : Except Fault Value :=
  match expander with
  | some expander => expander.expand value
  | none => .ok (.text value.plainText)

/-- What the argument at a position becomes: each of its members that is not null, or itself. -/
def expand (plan : Plan) (index : Nat) (value : Value) : Except Fault Value :=
  let expander := plan.expanders.lookup index
  match value.members? with
  | some items => ((items.filter (!·.isNull)).mapM (expandOne expander)).map Value.list
  | none => expandOne expander value

/-- Binds the arguments at several positions to their variables. -/
def bindFrom (plan : Plan) (arguments : List Value) (done : Bindings) :
    Entries Nat (List String) → Except Fault Bindings
  | [] => .ok done
  | (index, names) :: rest => do
    let value ← argument arguments index
    if value.isNull then bindFrom plan arguments done rest
    else
      let value ← plan.expand index value
      bindFrom plan arguments (names.foldl (fun done name => done.put name value) done) rest

/-- The variables of a call. -/
def bindings (plan : Plan) (arguments : List Value) : Except Fault Bindings :=
  bindFrom plan arguments [] plan.names

/-- Wraps an error of an encoder, unless it says already that something cannot be encoded. -/
def encodeFault (what : String) (fault : Fault) : Fault :=
  if fault.family = .encode || !fault.family.isError then fault
  else (Fault.encode ("Failed to encode " ++ what ++ ": " ++ fault.wording)).raisedFrom fault

/-- Lets an encoder write the body. -/
def encodeBody (encoder : Encoder) (what : String) (value : Value) (ty : Ty) (t : Template) :
    Except Fault Template :=
  match encoder.encode value ty t with
  | (t, none) => .ok t
  | (_, some fault) => .error (encodeFault what fault)

/-- The variables that belong to the form, as a mapping. -/
def formOf (plan : Plan) (bindings : Bindings) : Value :=
  .dict ((bindings.filter fun entry => plan.isFormName entry.1).map fun (name, value) =>
    (.text name, value))

/-- Writes the body that the arguments make, if they make one. -/
def setBody (plan : Plan) (encoder : Encoder) (arguments : List Value) (bindings : Bindings)
    (t : Template) : Except Fault Template :=
  match plan.strategy with
  | .form =>
    encodeBody encoder ("form parameters of " ++ plan.key) (plan.formOf bindings) .form t
  | .body => do
    let value ← required "Body" arguments plan.bodyIndex
    encodeBody encoder ("body of " ++ plan.key) value (plan.bodyType.getD .null) t
  | .plain => .ok t

/-- Fills the placeholders of a template. -/
def resolveWith [Charsets] (bindings : Bindings) (t : Template) : Except Fault Template :=
  match t.resolve bindings with
  | (t, none) => .ok t
  | (_, some fault) => .error fault

/-- The entries of a value that has to be a mapping. -/
def entriesOf (value : Value) : Except Fault ValueEntries :=
  match value.entries? with
  | some entries => .ok entries
  | none => .error (.runtime "AttributeError")

/-- The entries of the argument that is a query map, or of the mapping that an encoder makes of it. -/
def queryEntries (encoder : QueryMapEncoder) (value : Value) : Except Fault ValueEntries :=
  if value.isMapping then entriesOf value
  else do
    let mapping ← (encoder.encode value).mapError (encodeFault "query map argument")
    entriesOf mapping

/-- Sets the query parameters of the query map. -/
def addQueryMap (plan : Plan) (encoder : QueryMapEncoder) (arguments : List Value)
    (t : Template) : Except Fault Template :=
  match plan.queryMapIndex with
  | none => .ok t
  | some index => do
    let value ← argument arguments index
    let entries ← queryEntries encoder value
    .ok (t.addQueryMap plan.queryMapEncoded entries)

/-- Adds the headers of the header map, which may be null. -/
def addHeaderMap (plan : Plan) (arguments : List Value) (t : Template) : Except Fault Template :=
  match plan.headerMapIndex with
  | none => .ok t
  | some index => do
    let value ← argument arguments index
    if value.isNull then .ok t
    else
      let entries ← entriesOf value
      t.addHeaderMap entries

/-- The template of a plan filled with the arguments of a call. -/
def fill [Charsets] (plan : Plan) (encoder : Encoder) (queryMapEncoder : QueryMapEncoder)
    (arguments : List Value) : Except Fault Template := do
  let t ← plan.setAddress arguments plan.template
  let bindings ← plan.bindings arguments
  let t ← plan.setBody encoder arguments bindings t
  let t ← resolveWith bindings t
  let t ← plan.addQueryMap queryMapEncoder arguments t
  plan.addHeaderMap arguments t

end Plan

end HttpBinding
