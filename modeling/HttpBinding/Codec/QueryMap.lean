import HttpBinding.Codec.Adapters

/-!
# Query maps

An object that is given for a whole query is turned into a mapping first: its
public fields that are not null, by their names outside. Mappings stay as they
are, and null is an empty one.
-/

namespace HttpBinding

/-- The entries of a mapping whose keys and values are dynamic. -/
abbrev ValueEntries := List (Value × Value)

/-- An encoder of query maps under the name of its class. What it makes should be a mapping. -/
structure QueryMapEncoder where
  name : String
  encode : Value → Except Fault Value

namespace QueryMapEncoder

/-- Whether a field is not for the outside. -/
def isPrivate (name : String) : Bool :=
  name.toList.head? == some '_'

/-- The public fields that are not null, as they are. -/
def publicFields (fields : List (String × Value)) : ValueEntries :=
  (fields.filter fun field => !isPrivate field.1 && !field.2.isNull).map fun (name, value) =>
    (.text name, value)

/-- A value that has no fields to look at. -/
def refusal (value : Value) : Fault :=
  .encode (value.typeName ++ " cannot be encoded as a query map")

/-- The mapping that a value is or has the fields of. -/
def encodeFields (adapters : Adapters) (value : Value) : Except Fault ValueEntries :=
  match value.entries?, value with
  | some entries, _ => .ok entries
  | none, .null => .ok []
  | none, .record shape fields =>
    match shape.kind with
    | .model =>
      ((adapters.fields value).map fun mapping => mapping.entries?.getD []).mapError Failure.fault
    | .dataclass | .options | .plain => .ok (publicFields fields)
    | .slots | .mapping => .error (refusal value)
  | none, .url _ => .ok []
  | none, _ => .error (refusal value)

/-- The usual encoder of query maps, which leaves models to adapters. -/
def usual (adapters : Adapters) : QueryMapEncoder :=
  ⟨"FieldQueryMapEncoder", fun value => (encodeFields adapters value).map .dict⟩

end QueryMapEncoder

end HttpBinding
