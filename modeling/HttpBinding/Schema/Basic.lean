import HttpBinding.Message.Options
import HttpBinding.Schema.Type

/-!
# Schemas

A schema is a declared type with everything in it looked up: which values the
type takes in, and how its values are written out. Records carry their fields.
Types that are foreign to JSON have no schema.
-/

namespace HttpBinding

/-- What is known of a field besides its schema. -/
structure FieldInfo where
  name : String
  /-- The name by which the field is given. -/
  key : String
  default : Option Value

/-- A declared type, looked up. -/
inductive Schema where
  | any
  | null
  | text
  | int
  | float
  | bool
  | octets
  | list (item : Schema)
  /-- Anything that can be gone through. -/
  | stream (item : Schema)
  | set (frozen : Bool) (item : Schema)
  /-- A tuple of any length. -/
  | row
  | tuple (items : List Schema)
  | dict (key value : Schema)
  | nullable (inner : Schema)
  | union (members : List Schema)
  | record (shape : Shape) (fields : List (FieldInfo × Schema))
  /-- A type that is foreign to JSON. -/
  | foreign

/-- The schemas of declared records by name. -/
abbrev Schemas := List (String × Schema)

namespace Schema

/-- The schema of transport options: every setting has a default. -/
def options : Schema :=
  let info (name : String) (default : Value) : FieldInfo := ⟨name, name, some default⟩
  let usual : Options := {}
  record Options.shape
    [(info "connect_timeout" usual.connectTimeout, float),
      (info "read_timeout" usual.readTimeout, float),
      (info "follow_redirects" usual.followRedirects, bool)]

/-- The schema of several choices of which there may be only one. -/
def choice : List Schema → Schema
  | [single] => single
  | several => union several

/-- The schema of a union: null is set apart from the other choices. -/
def unionOf (types : List Ty) (members : List Schema) : Schema :=
  let others := ((types.zip members).filter fun entry => !entry.1.isNull).map Prod.snd
  if types.any Ty.isNull then nullable (choice others) else choice others

mutual

/-- The schema of a type, given the schemas of the records declared before. -/
def ofTy (known : Schemas) : Ty → Schema
  | .null => null
  | .text => text
  | .int => int
  | .float => float
  | .bool => bool
  | .octets => octets
  | .any | .object => any
  | .options => options
  | .url | .response => foreign
  | .container .list [] => list any
  | .container .list (item :: _) => list (ofTy known item)
  | .container .iterable [] => stream any
  | .container .iterable (item :: _) => stream (ofTy known item)
  | .container .set [] => set false any
  | .container .set (item :: _) => set false (ofTy known item)
  | .container .frozenset [] => set true any
  | .container .frozenset (item :: _) => set true (ofTy known item)
  | .container .tuple [] => row
  | .container .tuple items => tuple (ofTys known items)
  | .container .dict (key :: value :: _) | .container .mapping (key :: value :: _) =>
    dict (ofTy known key) (ofTy known value)
  | .container .dict _ | .container .mapping _ => dict any any
  | .union _ types => unionOf types (ofTys known types)
  | .remarked inner => ofTy known inner
  | .record name | .forward name => (known.lookup name).getD foreign

/-- The schemas of several types. -/
def ofTys (known : Schemas) : List Ty → List Schema
  | [] => []
  | ty :: rest => ofTy known ty :: ofTys known rest

end

/-- The schema of a declared record. -/
def ofDecl (known : Schemas) (d : TypeDecl) : Schema :=
  match d.kind with
  | .model | .dataclass =>
    record d.shape (d.fields.map fun field =>
      (⟨field.name, d.outsideName field, field.default⟩, ofTy known field.ty))
  | _ => foreign

/-- The schemas of declared records, each built from those before it. -/
def declared (ds : Declarations) : Schemas :=
  ds.foldl (fun known d => known ++ [(d.name, ofDecl known d)]) []

/-- The schema of a type among declarations. -/
def find (ds : Declarations) (ty : Ty) : Schema :=
  ofTy (declared ds) ty

mutual

/-- Whether no part of a type is foreign to JSON. -/
def isKnown : Schema → Bool
  | foreign => false
  | list item | stream item | set _ item | nullable item => isKnown item
  | tuple items | union items => areKnown items
  | dict key value => isKnown key && isKnown value
  | record _ fields => fieldsAreKnown fields
  | _ => true

/-- Whether no part of several types is foreign to JSON. -/
def areKnown : List Schema → Bool
  | [] => true
  | schema :: rest => isKnown schema && areKnown rest

/-- Whether no part of the types of all fields is foreign to JSON. -/
def fieldsAreKnown : List (FieldInfo × Schema) → Bool
  | [] => true
  | (_, schema) :: rest => isKnown schema && fieldsAreKnown rest

end

end Schema

end HttpBinding
