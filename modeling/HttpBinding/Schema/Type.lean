import HttpBinding.Value

/-!
# Declared types

Parameters and results are declared with types: the basic ones, containers with
their parts, unions in three spellings, types with a remark attached, records
declared beside the interface, and names that stand for a type still to be
looked up.
-/

namespace HttpBinding

/-- The container types. -/
inductive Container where
  | list
  | dict
  | set
  | frozenset
  | tuple
  /-- Any mapping. -/
  | mapping
  /-- Anything that can be gone through. -/
  | iterable
  deriving DecidableEq, Repr

/-- How a union is spelled, which shows in its name. -/
inductive UnionSpelling where
  | named
  | piped
  deriving DecidableEq, Repr

/-- A declared type. -/
inductive Ty where
  | null
  | text
  | int
  | float
  | bool
  | octets
  | any
  | object
  | url
  | options
  | response
  /-- A container, with the types of its parts or bare. -/
  | container (kind : Container) (parts : List Ty)
  | union (spelling : UnionSpelling) (members : List Ty)
  /-- A type with remarks attached. -/
  | remarked (inner : Ty)
  /-- A record declared beside the interface. -/
  | record (name : String)
  /-- A name to be looked up. -/
  | forward (name : String)

namespace Container

/-- The name of a container type. -/
def name : Container → String
  | list => "list"
  | dict => "dict"
  | set => "set"
  | frozenset => "frozenset"
  | tuple => "tuple"
  | mapping => "Mapping"
  | iterable => "Iterable"

end Container

namespace Ty

mutual

/-- Whether two types are the same. -/
def same : Ty → Ty → Bool
  | null, null | text, text | int, int | float, float | bool, bool | octets, octets => true
  | any, any | object, object | url, url | options, options | response, response => true
  | container a as, container b bs => a == b && sameAll as bs
  | union _ as, union _ bs => sameAll as bs
  | remarked a, remarked b => same a b
  | record a, record b => a == b
  | forward a, forward b => a == b
  | _, _ => false

/-- Whether two lists of types are the same one by one. -/
def sameAll : List Ty → List Ty → Bool
  | [], [] => true
  | a :: as, b :: bs => same a b && sameAll as bs
  | _, _ => false

end

/-- Whether a type is the type of null. -/
def isNull : Ty → Bool
  | null => true
  | _ => false

/-- Whether a type is text. -/
def isText : Ty → Bool
  | text => true
  | _ => false

/-- Whether a type is that of addresses. -/
def isUrl : Ty → Bool
  | url => true
  | _ => false

/-- Whether a type is that of transport options. -/
def isOptions : Ty → Bool
  | options => true
  | _ => false

/-- Whether a type is that of responses. -/
def isResponse : Ty → Bool
  | response => true
  | _ => false

/-- Whether a type is that of octets. -/
def isOctets : Ty → Bool
  | octets => true
  | _ => false

/-- The members of a union, or the type itself. -/
def members : Ty → List Ty
  | union _ types => types
  | ty => [ty]

/-- Drops types that are the same as an earlier one. -/
def distinct (types : List Ty) : List Ty :=
  types.foldl (fun kept ty => if kept.any (same ty) then kept else kept ++ [ty]) []

/-- The union of types: unions among them are opened, and a single type is itself. -/
def unionOf (spelling : UnionSpelling) (types : List Ty) : Ty :=
  match distinct (types.flatMap members) with
  | [single] => single
  | several => union spelling several

/-- The type or null. -/
def optional (ty : Ty) : Ty :=
  unionOf .named [ty, null]

/-- Whether two pipes between types make the piped spelling: all of them must be plain classes. -/
def isPlainClass : Ty → Bool
  | union .named _ => false
  | remarked _ => false
  | forward _ => false
  | container .mapping _ => false
  | container .iterable _ => false
  | _ => true

/-- The union of two types that are joined by a pipe. -/
def pipe (a b : Ty) : Ty :=
  unionOf (if isPlainClass a && isPlainClass b then .piped else .named) [a, b]

/--
The other type, when a type is made of one type and null; otherwise the type
itself. Only the parts are looked at, so that a mapping to or from null counts
like a union with null.
-/
def unwrapOptional (ty : Ty) : Ty :=
  match ty with
  | union _ types | container .mapping types =>
    if types.any isNull then
      match types.filter (!·.isNull) with
      | [single] => single
      | _ => ty
    else ty
  | _ => ty

/-- The name of a type without its parts, as it stands in keys and messages. -/
def rawName : Ty → String
  | null => "NoneType"
  | text => "str"
  | int => "int"
  | float => "float"
  | bool => "bool"
  | octets => "bytes"
  | any => "Any"
  | object => "object"
  | url => "URL"
  | options => "Options"
  | response => "Response"
  | container kind _ => kind.name
  | union .named _ => "Union"
  | union .piped _ => "UnionType"
  | remarked inner => rawName inner
  | record name => name
  | forward name => name

/-- Parts in brackets, when there are any. -/
def bracketed (parts : List String) : String :=
  if parts.isEmpty then "" else "[" ++ ", ".intercalate parts ++ "]"

mutual

/-- A type with its parts. -/
def shown : Ty → String
  | container kind [] =>
    match kind with
    | .mapping | .iterable => kind.name ++ "[]"
    | _ => kind.name
  | container kind parts => kind.name ++ "[" ++ ", ".intercalate (shownAll parts) ++ "]"
  | union _ types => "Union[" ++ ", ".intercalate (shownAll types) ++ "]"
  | remarked inner => "Annotated[" ++ shown inner ++ "]"
  | ty => rawName ty

/-- Several types with their parts. -/
def shownAll : List Ty → List String
  | [] => []
  | ty :: rest => shown ty :: shownAll rest

end

mutual

/--
A type in words, with the full names of library types. Null has another name among
the parts of types that are not classes.
-/
def fullName (inClass : Bool) : Ty → String
  | null => if inClass then "None" else "NoneType"
  | any => "typing.Any"
  | url => "httpx.URL"
  | options => "reqline.core.request.Options"
  | response => "reqline.core.request.Response"
  | container .mapping parts => "typing.Mapping" ++ bracketed (fullNames false parts)
  | container .iterable parts => "typing.Iterable" ++ bracketed (fullNames false parts)
  | container kind parts => kind.name ++ bracketed (fullNames true parts)
  | union .piped types => " | ".intercalate (fullNames true types)
  | union .named types =>
    let names := fullNames false types
    match types, names with
    | [null, _], [_, name] => "typing.Optional[" ++ name ++ "]"
    | [_, null], [name, _] => "typing.Optional[" ++ name ++ "]"
    | _, _ => "typing.Union" ++ bracketed names
  | remarked inner => "typing.Annotated[" ++ fullName false inner ++ ", 'doc']"
  | forward name => if inClass then Text.quoted name else "ForwardRef(" ++ Text.quoted name ++ ")"
  | ty => rawName ty

/-- Several types in words. -/
def fullNames (inClass : Bool) : List Ty → List String
  | [] => []
  | ty :: rest => fullName inClass ty :: fullNames inClass rest

end

/-- The name of a type in messages about results. -/
def resultName : Ty → String
  | null => "None"
  | union .named [a, b] => if isNull a || isNull b then "Optional" else "Union"
  | union .named _ => "Union"
  | union .piped types => fullName true (union .piped types)
  | remarked inner => resultName inner
  | ty => rawName ty

/-- The type without remarks at its head. -/
def bare : Ty → Ty
  | remarked inner => bare inner
  | ty => ty

end Ty

/-- A field of a declared record. -/
structure FieldDecl where
  name : String
  ty : Ty
  /-- The name of the field outside, when it is another one. -/
  outside : Option String := none
  default : Option Value := none

/-- A declared record type, or a class of mappings with the types it is derived from. -/
structure TypeDecl where
  name : String
  kind : RecordKind
  fields : List FieldDecl := []
  bases : List Ty := []

/-- The types declared beside an interface, in order. -/
abbrev Declarations := List TypeDecl

namespace TypeDecl

/-- What records of the type carry with them. -/
def shape (d : TypeDecl) : Shape where
  name := d.name
  kind := d.kind
  aliases := d.fields.filterMap fun field => field.outside.map fun outside => (field.name, outside)

/-- The name by which a field is given and looked for from outside. -/
def outsideName (d : TypeDecl) (field : FieldDecl) : String :=
  match d.kind with
  | .model => field.outside.getD field.name
  | _ => field.name

end TypeDecl

namespace Declarations

/-- The declaration of a name. -/
def find? (ds : Declarations) (name : String) : Option TypeDecl :=
  List.find? (fun d : TypeDecl => d.name == name) ds

end Declarations

end HttpBinding
