import HttpBinding.Fault
import HttpBinding.Schema.Type

/-!
# Type adapters

What the JSON codec and the usual encoder of query maps know of declared types they
know from type adapters, which come from a validation library. An adapter may fail in
any way; the codec looks only for the faults with which the adapters refuse a value.
-/

namespace HttpBinding

/-- The type adapters of a validation library. -/
structure Adapters where
  /-- The JSON octets of a value by its declared type. -/
  dump (declared : Ty) (value : Value) : Except Failure Octets
  /-- The value of a declared type that JSON octets are. -/
  load (declared : Ty) (octets : Octets) : Except Failure Value
  /-- The mapping of a model by the names of its fields outside, without those that are null. -/
  fields (model : Value) : Except Failure Value

namespace Adapters

/-- The class of the faults with which adapters refuse to write a value. -/
def dumpRefusal : String :=
  "PydanticSerializationError"

/-- The class of the faults with which adapters refuse to read a value. -/
def loadRefusal : String :=
  "ValidationError"

/-- The class of the fault with which adapters have nothing for a type. -/
def typeRefusal : String :=
  "PydanticSchemaGenerationError"

end Adapters

end HttpBinding
