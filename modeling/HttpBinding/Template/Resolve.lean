import HttpBinding.Template.Basic

/-!
# Resolving templates

Resolving fills the placeholders of a template from bindings: the path, then
the query, then the headers, then the body. A query value or header value whose
placeholders are all unbound goes away, and with its last value the entry. When
a value cannot be written as text, the parts before it stay resolved.
-/

namespace HttpBinding.Template

/-- The values that one value of a query parameter becomes. -/
def resolveQueryValue (t : Template) (bindings : Bindings) :
    Option String → Except Fault (List (Option String))
  | none => .ok []
  | some value =>
    match solePlaceholder? value with
    | some name =>
      match bindings.lookup name with
      | some bound => do
        let filling ← Filling.ofValue bound
        match filling with
        | .one text => .ok [some (Percent.encodeQuery text)]
        | .many texts =>
          let encoded := texts.map Percent.encodeQuery
          match t.format.separator? with
          | none => .ok (encoded.map some)
          | some separator =>
            if encoded.isEmpty then .ok []
            else
              let mark := if separator = ',' then "," else Percent.encode (String.ofList [separator])
              .ok [some (mark.intercalate encoded)]
      | none => .ok []
    | none => do
      let filled ← fillIfBound bindings Percent.encodeQuery value
      .ok (filled.map some).toList

/-- The values that the values of a query parameter become. -/
def resolveQueryValues (t : Template) (bindings : Bindings) :
    List (Option String) → Except Fault (List (Option String))
  | [] => .ok []
  | value :: rest => do
    let first ← resolveQueryValue t bindings value
    let others ← resolveQueryValues t bindings rest
    .ok (first ++ others)

/-- Resolves query parameters one after another, adding each to those already resolved. -/
def resolveQueriesFrom (t : Template) (bindings : Bindings) (done : Queries) :
    Queries → Except Fault Queries
  | [] => .ok done
  | (name, values) :: rest => do
    match ← fillIfBound bindings id name with
    | none => resolveQueriesFrom t bindings done rest
    | some filledName =>
      let filled ← resolveQueryValues t bindings values
      if !filled.isEmpty || values == [none] then
        let present := if filled.isEmpty then [none] else filled
        resolveQueriesFrom t bindings (done.extend filledName present) rest
      else resolveQueriesFrom t bindings done rest

/-- The query parameters with their placeholders filled. -/
def resolveQueries (t : Template) (bindings : Bindings) : Except Fault Queries :=
  resolveQueriesFrom t bindings [] t.queries

/-- The values that one header value becomes. -/
def resolveHeaderValue (bindings : Bindings) (value : String) : Except Fault (List String) :=
  match solePlaceholder? value with
  | some name =>
    match bindings.lookup name with
    | some bound => do
      let filling ← Filling.ofValue bound
      .ok filling.texts
    | none => .ok []
  | none => do
    let filled ← fillIfBound bindings id value
    .ok filled.toList

/-- The values that the values of a header become. -/
def resolveHeaderValues (bindings : Bindings) : List String → Except Fault (List String)
  | [] => .ok []
  | value :: rest => do
    let first ← resolveHeaderValue bindings value
    let others ← resolveHeaderValues bindings rest
    .ok (first ++ others)

/-- The headers with their placeholders filled; one without values goes away. -/
def resolveHeaders (bindings : Bindings) : Headers → Except Fault Headers
  | [] => .ok []
  | (name, values) :: rest => do
    let filled ← resolveHeaderValues bindings values
    let others ← resolveHeaders bindings rest
    .ok (if filled.isEmpty then others else (name, filled) :: others)

/-- The body that a body text becomes, in the charset of the template. -/
def resolveBody [Charsets] (t : Template) (bindings : Bindings) (text : String) :
    Except Fault Octets := do
  let filled ← fill bindings id text
  encodeText t.charset filled

/-- Resolves a template in place, up to the first part that cannot be resolved. -/
def resolve [Charsets] (t : Template) (bindings : Bindings) : Template × Option Fault :=
  match fill bindings (Percent.encodePath t.decodeSlash) t.path with
  | .error fault => (t, some fault)
  | .ok path =>
    let t := { t with path := path }
    match resolveQueries t bindings with
    | .error fault => (t, some fault)
    | .ok queries =>
      let t := { t with queries := queries }
      match resolveHeaders bindings t.headers with
      | .error fault => (t, some fault)
      | .ok headers =>
        let t := { t with headers := headers }
        match t.bodyText with
        | none => ({ t with resolved := true }, none)
        | some text =>
          match resolveBody t bindings text with
          | .error fault => (t, some fault)
          | .ok octets => ({ t with body := some octets, bodyText := none, resolved := true }, none)

end HttpBinding.Template
