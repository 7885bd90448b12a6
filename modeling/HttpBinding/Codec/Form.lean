import HttpBinding.Octets.Percent
import HttpBinding.Value

/-!
# Forms

A form is a text of `name=value` parts between ampersands. A mapping makes one
part for each entry, or one for each member of an entry that has a length of its
own; a sequence of pairs is a form as well.
-/

namespace HttpBinding.Form

/-- A name or a single value in a form. -/
def encodeItem : Value → String
  | .octets o => Percent.encodeFormOctets o
  | value => Percent.encodeForm value.plainText

/-- The single values that a value stands for: itself, or its members when it has a length. -/
def itemsOf : Value → List Value
  | .list items => items
  | .tuple items => items
  | .set items => items
  | .frozenset items => items
  | .octetBuffer o => o.map fun b => .int b.toNat
  | value => (value.entries?.map fun entries => entries.map Prod.fst).getD [value]

/-- The parts of one entry. -/
def partsOf (name value : Value) : List String :=
  (itemsOf value).map fun item => encodeItem name ++ "=" ++ encodeItem item

/-- Parts put together. -/
def ofParts (parts : List String) : String :=
  "&".intercalate parts

/-- The text of the form of a mapping. -/
def ofEntries (entries : List (Value × Value)) : String :=
  ofParts (entries.flatMap fun (name, value) => partsOf name value)

/-- The two members of a value that has two. -/
def pairOf (value : Value) : Except Fault (Value × Value) :=
  match value.elements? with
  | some [name, value] => .ok (name, value)
  | some _ => .error (.runtime "ValueError")
  | none => .error (.runtime "TypeError")

/-- The text of the form of a sequence, whose first member must be a tuple and all others pairs. -/
def ofSequence : List Value → Except Fault String
  | [] => .ok ""
  | .tuple first :: rest => do
    let pairs ← (.tuple first :: rest).mapM pairOf
    .ok (ofEntries pairs)
  | _ => .error (.runtime "TypeError")

/-- The text of the form that a value is. -/
def ofValue (value : Value) : Except Fault String :=
  match value.entries?, value with
  | some entries, _ => .ok (ofEntries entries)
  | none, .list items => ofSequence items
  | none, .tuple items => ofSequence items
  | none, .text s => if s.isEmpty then .ok "" else .error (.runtime "TypeError")
  | none, .octets o => if o.isEmpty then .ok "" else .error (.runtime "TypeError")
  | none, .octetBuffer o => if o.isEmpty then .ok "" else .error (.runtime "TypeError")
  | none, .set items | none, .frozenset items =>
    if items.isEmpty then .ok "" else .error (.runtime "TypeError")
  | _, _ => .error (.runtime "TypeError")

end HttpBinding.Form
