import HttpBinding.Octets.Percent
import HttpBinding.Template.Placeholder

/-!
# Request templates

A template is a request in the making: a path, a query and headers in which
placeholders may stand, and a body or a text that will become one. Setting a
query parameter or a header finds the entry that means the same name, for a
query by its decoded name and for a header without regard to case.
-/

namespace HttpBinding

/-- How several values of one query placeholder are written. -/
inductive CollectionFormat where
  | exploded
  | csv
  | ssv
  | tsv
  | pipes
  deriving DecidableEq, Repr

namespace CollectionFormat

/-- The name of a format. -/
def name : CollectionFormat → String
  | exploded => "exploded"
  | csv => "csv"
  | ssv => "ssv"
  | tsv => "tsv"
  | pipes => "pipes"

/-- All formats. -/
def all : List CollectionFormat :=
  [exploded, csv, ssv, tsv, pipes]

/-- The format with a name. -/
def ofName? (text : String) : Option CollectionFormat :=
  all.find? (·.name == text)

/-- What stands between values that share one parameter; exploded values do not. -/
def separator? : CollectionFormat → Option Char
  | exploded => none
  | csv => some ','
  | ssv => some ' '
  | tsv => some '\t'
  | pipes => some '|'

end CollectionFormat

/-- Query parameters: a name and its values, where a value may be missing. -/
abbrev Queries := Entries String (List (Option String))

/-- Headers: a name and its values. -/
abbrev Headers := Entries String (List String)

/-- A request with placeholders. -/
structure Template where
  method : Option Method := none
  charset : String := "utf-8"
  decodeSlash : Bool := true
  format : CollectionFormat := .exploded
  resolved : Bool := false
  /-- The base address, without a query. -/
  base : String := ""
  path : String := ""
  queries : Queries := []
  headers : Headers := []
  body : Option Octets := none
  bodyText : Option String := none
  deriving DecidableEq, Repr

namespace Template

/-- Whether a text begins with another. -/
def startsWith (start text : String) : Bool :=
  start.toList.isPrefixOf text.toList

/-- The name and value of one part of a query. A part without `=` has a name only. -/
def queryPair (part : List Char) : String × Option String :=
  match Text.cut '=' part with
  | (name, value) => (String.ofList name, value.map String.ofList)

/-- The pairs of a query text. Empty parts are none. -/
def splitQuery (query : List Char) : List (String × Option String) :=
  ((Text.splitOn '&' query).filter (!·.isEmpty)).map queryPair

/-- Adds pairs to the query parameters, each to the values of its name. -/
def addPairs (pairs : List (String × Option String)) (queries : Queries) : Queries :=
  pairs.foldl (fun queries pair => queries.extend pair.1 [pair.2]) queries

/-- A path given as a template gets a leading slash unless it starts with one, a placeholder or `http`. -/
def rooted (path : String) : String :=
  if path.isEmpty || ["/", "\x7b", "http"].any (startsWith · path) then path else "/" ++ path

/-- Sets the path, or appends to it, and adds the query of the text to the parameters. -/
def uri (t : Template) (text : String) (append : Bool) : Template :=
  let (path, query) := Text.cut '?' text.toList
  let path := rooted (String.ofList path)
  { t with
    path := if append then t.path ++ path else path
    queries := addPairs (splitQuery (query.getD [])) t.queries }

/-- A text without slashes at its end. -/
def dropSlashes (text : List Char) : List Char :=
  (text.reverse.dropWhile (· == '/')).reverse

/-- Sets the base address and adds the query of the text to the parameters. -/
def target (t : Template) (url : String) : Template :=
  let (base, query) := Text.cut '?' url.toList
  { t with
    base := String.ofList (dropSlashes base)
    queries := addPairs (splitQuery (query.getD [])) t.queries }

/-- Whether two query names mean the same parameter: they are equal, or equal once decoded. -/
def sameQuery (a b : String) : Bool :=
  a == b || Percent.decode a == Percent.decode b

/-- The first query name that means the same parameter. -/
def queryKey? (queries : Queries) (name : String) : Option String :=
  (queries.find? fun entry => sameQuery entry.1 name).map Prod.fst

/--
Replaces the values of a query parameter, or removes it when there are none. The
entry keeps its place and takes the spelling of the new name.
-/
def query (t : Template) (name : String) (values : List (Option String)) : Template :=
  let queries :=
    match queryKey? t.queries name with
    | none => if values.isEmpty then t.queries else t.queries.put name values
    | some key =>
      if values.isEmpty then t.queries.erase key
      else if key = name then t.queries.put name values
      else
        Entries.ofPairs (t.queries.map fun entry =>
          if entry.1 = key then (name, values) else entry)
  { t with queries := queries }

/-- The parts of one query parameter: one for each value, or the bare name when all are missing. -/
def queryParts (name : String) (values : List (Option String)) : List String :=
  match values.filterMap id with
  | [] => [name]
  | present => present.map fun value => name ++ "=" ++ value

/-- The query as text. -/
def queryLine (t : Template) : String :=
  "&".intercalate (t.queries.flatMap fun (name, values) => queryParts name values)

/-- The first header name that is the same without regard to case. -/
def headerKey? (headers : Headers) (name : String) : Option String :=
  (headers.find? fun entry => Text.sameName entry.1 name).map Prod.fst

/-- Replaces a header. Without values it is removed; with values it moves to the end. -/
def header (t : Template) (name : String) (values : List String) : Template :=
  let others :=
    match headerKey? t.headers name with
    | some key => t.headers.erase key
    | none => t.headers
  { t with headers := if values.isEmpty then others else others.put name values }

/-- Appends values to a header, which is added when it is absent. -/
def addHeader (t : Template) (name : String) (values : List String) : Template :=
  if values.isEmpty then t
  else
    match headerKey? t.headers name with
    | some key => { t with headers := t.headers.extend key values }
    | none => { t with headers := t.headers.put name values }

/-- The values of a header. -/
def headerValues (t : Template) (name : String) : List String :=
  match headerKey? t.headers name with
  | some key => (t.headers.lookup key).getD []
  | none => []

/-- Sets the body to octets, or to nothing. -/
def setBody (t : Template) (octets : Option Octets) : Template :=
  { t with body := octets, bodyText := none }

/-- Takes over a charset unless it is empty. -/
def withCharset (t : Template) (charset : Option String) : Template :=
  match charset with
  | some name => if name.isEmpty then t else { t with charset := name }
  | none => t

/--
Sets the body to a text in the charset of the template. When the charset cannot
write it, the body stays as it was.
-/
def setBodyText [Charsets] (t : Template) (text : String) : Template × Option Fault :=
  match encodeText t.charset text with
  | .ok octets => (t.setBody (some octets), none)
  | .error fault => (t, some fault)

/-- Sets the text that becomes the body when the template is resolved. -/
def setBodyTemplate (t : Template) (text : String) : Template :=
  { t with body := none, bodyText := some text }

/-- The names of all placeholders of a template, each once, in order of appearance. -/
def placeholderNames (t : Template) : List String :=
  let inQueries := t.queries.flatMap fun (name, values) =>
    placeholders name ++ values.flatMap fun value => placeholders (value.getD "")
  let inHeaders := t.headers.flatMap fun (_, values) => values.flatMap placeholders
  let found := placeholders t.path ++ inQueries ++ inHeaders ++ placeholders (t.bodyText.getD "")
  found.foldl (fun names name => if names.contains name then names else names ++ [name]) []

/-- Whether a placeholder of a template has a name. -/
def hasVariable (t : Template) (name : String) : Bool :=
  t.placeholderNames.contains name

/-- The address of the request: the path alone when it is absolute, after the base otherwise. -/
def url (t : Template) : String :=
  let address := if startsWith "http" t.path then t.path else t.base ++ t.path
  let query := t.queryLine
  if query.isEmpty then address else address ++ "?" ++ query

/-- The request that a resolved template with a method describes. -/
def request (t : Template) : Except Fault Request :=
  if !t.resolved then .error (.foreign "RuntimeError" "template has not been resolved")
  else
    match t.method with
    | none => .error (.foreign "RuntimeError" "template has no HTTP method")
    | some method => .ok ⟨method, t.url, t.headers, t.body, t.charset⟩

/-- Method and address of a template. -/
def describe (t : Template) : String :=
  let method := (t.method.map Method.name).getD "?"
  "RequestTemplate(" ++ method ++ " " ++ Text.quoted t.url ++ ")"

end Template

end HttpBinding
