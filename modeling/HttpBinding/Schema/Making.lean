import HttpBinding.Fault
import HttpBinding.Schema.Validate

/-!
# Making records

Records of declared types are made from fields given by name. A model reads its
fields as values of their types and passes over what it does not declare; the
other records keep what they are given. Types themselves must be declared in a
way that records can be made of them at all.
-/

namespace HttpBinding

namespace TypeDecl

/-- Whether a field without a default stands after one with a default. -/
def hasLateField : List FieldDecl → Bool
  | [] => false
  | field :: rest =>
    (field.default.isSome && rest.any fun later => later.default.isNone) || hasLateField rest

/-- Whether a default is shared by all records although it can be changed in place. -/
def hasSharedDefault (fields : List FieldDecl) : Bool :=
  fields.any fun field => !(field.default.all Value.isHashable)

/-- Refuses a declaration that is none. -/
def check (known : Schemas) (d : TypeDecl) : Except Fault Unit :=
  match d.kind with
  | .dataclass =>
    if hasSharedDefault d.fields then .error (.runtime "ValueError")
    else if hasLateField d.fields then .error (.runtime "TypeError")
    else .ok ()
  | .model =>
    if (Schema.ofDecl known d).isKnown then .ok ()
    else .error (.runtime "PydanticSchemaGenerationError")
  | _ => .ok ()

/-- The fields of a record that keeps what it is given: all of them and no others. -/
def fieldsKept (d : TypeDecl) (given : List (String × Value)) :
    Except Fault (List (String × Value)) :=
  if given.all fun entry => d.fields.any fun field => field.name == entry.1 then
    d.fields.mapM fun field =>
      match (given.lookup field.name).or field.default with
      | some value => .ok (field.name, value)
      | none => .error (.runtime "TypeError")
  else .error (.runtime "TypeError")

/-- A record of a declared type with the given fields. -/
def make (known : Schemas) (d : TypeDecl) (given : List (String × Value)) : Except Fault Value :=
  match d.kind with
  | .model =>
    let entries := given.map fun (name, value) => (Value.text name, value)
    match (Schema.ofDecl known d).read? .live (.dict entries) with
    | some value => .ok value
    | none => .error (.runtime "ValidationError")
  | .dataclass => (d.fieldsKept given).map (.record d.shape)
  | .slots =>
    if given.isEmpty then .ok (.record d.shape []) else .error (.runtime "AttributeError")
  | _ => .ok (.record d.shape given)

end TypeDecl

namespace Declarations

/-- Refuses declarations among which there is one that is none. -/
def check (ds : Declarations) : Except Fault Unit :=
  ds.forM (TypeDecl.check (Schema.declared ds))

/-- A record of the declared type with a name, with the given fields. -/
def make (ds : Declarations) (name : String) (given : List (String × Value)) : Except Fault Value :=
  match ds.find? name with
  | some d => d.make (Schema.declared ds) (Entries.ofPairs given)
  | none => .error (.runtime "KeyError")

end Declarations

end HttpBinding
