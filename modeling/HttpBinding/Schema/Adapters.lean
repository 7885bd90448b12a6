import HttpBinding.Codec.Adapters
import HttpBinding.Schema.Dump
import HttpBinding.Schema.Validate

/-!
# Adapters by schemas

The type adapters of declarations: a type is looked up among them, and its values are
written and read by the schema that is found.
-/

namespace HttpBinding.Schema

/-- Goes on with the schema of a type, which must not be foreign to JSON. -/
def withKnown {α : Type} (ds : Declarations) (declared : Ty)
    (next : Schema → Except Failure α) : Except Failure α :=
  let schema := find ds declared
  if schema.isKnown then next schema else .error (.runtime Adapters.typeRefusal)

/-- The JSON octets of a value by a declared type. -/
def dumpJson (ds : Declarations) (declared : Ty) (value : Value) : Except Failure Octets :=
  withKnown ds declared fun schema =>
    match schema.toJson (Schema.declared ds) value with
    | .ok json => .ok (Utf8.encode json.write)
    | .error _ => .error refusal

/-- The value of a declared type that JSON octets are. -/
def loadJson (ds : Declarations) (declared : Ty) (octets : Octets) : Except Failure Value :=
  withKnown ds declared fun schema =>
    match (JsonValue.ofOctets? octets).bind fun json => schema.read? .json (ofJson json) with
    | some value => .ok value
    | none => .error (.runtime Adapters.loadRefusal)

/-- The type adapters of declarations. -/
def adapters (ds : Declarations) : Adapters where
  dump := dumpJson ds
  load := loadJson ds
  fields := toMapping (Schema.declared ds)

end HttpBinding.Schema
