import HttpBinding.Codec.Adapters
import HttpBinding.Json.Value
import HttpBinding.Octets.Utf8
import HttpBinding.Schema.Basic

/-!
# Writing values out

A value is taken apart by its declared type as far as it is a value of that type
and by its own kind from there on, until only plain values are left. For JSON
these are the ones that JSON has forms for, and the keys of mappings become
names. The choices of a union are tried in turn, strictly at first; a value that
is of none of them goes by its own kind.
-/

namespace HttpBinding

/-- What values are written out for. -/
inductive Purpose where
  /-- JSON, written part by part. -/
  | written
  /-- JSON, put together before it is written: a name stands once in a mapping. -/
  | collected
  /-- Plain values: records become mappings by their outside names, without null fields. -/
  | plain
  deriving DecidableEq, Repr

/-- How much a value must be of the type that it is written out by. -/
inductive Scrutiny where
  /-- Values of other types go by their own kind. -/
  | free
  /-- Values of other types are refused, but for those that are nearly of the type. -/
  | lax
  /-- Values of other types are refused. -/
  | strict
  deriving DecidableEq, Repr

namespace Schema

/-- The refusal to write out a value. -/
def refusal : Failure :=
  .runtime Adapters.dumpRefusal

/-- Text that octets encode. -/
def octetText (octets : Octets) : Except Failure String :=
  match Utf8.decode? octets with
  | some chars => .ok (String.ofList chars)
  | none => .error refusal

mutual

/-- The name that a key becomes by its own kind. -/
def inferKey : Value → Except Failure String
  | .text s => .ok s
  | .int n => .ok (Number.intText n)
  | .bool b => .ok (if b then "true" else "false")
  | .null => .ok "None"
  | .float x => .ok (if x.isFinite then x.text else "None")
  | .octets o => octetText o
  | .tuple items => (inferKeys items).map (",".intercalate ·)
  | .record shape fields =>
    if shape.kind.isDataclass then .ok (Value.display (.record shape fields)) else .error refusal
  | _ => .error refusal

/-- The names that several keys become. -/
def inferKeys : List Value → Except Failure (List String)
  | [] => .ok []
  | key :: rest => do
    let name ← inferKey key
    let names ← inferKeys rest
    .ok (name :: names)

end

/-- The name that a key becomes which is not of the declared type. -/
def foreignKey (scrutiny : Scrutiny) (key : Value) : Except Failure String :=
  if scrutiny = .free || key.isNull then inferKey key else .error refusal

/-- Whether values that are nearly of a type may be written out by it. -/
def isLenient : Schema → Bool
  | int | tuple _ | row | record .. => true
  | list item | set _ item | stream item | nullable item => isLenient item
  | dict key item => isLenient key || isLenient item
  | union members => anyLenient members
  | _ => false
where
  /-- Whether values that are nearly of one of several types may be written out by it. -/
  anyLenient : List Schema → Bool
    | [] => false
    | schema :: rest => isLenient schema || anyLenient rest

/-- The first success among a strict attempt and, if it may be, a lax one; otherwise the last resort. -/
def attempts {α : Type} (scrutiny : Scrutiny) (lenient : Bool)
    (attempt : Scrutiny → Except Failure α) (resort : Except Failure α) : Except Failure α :=
  match attempt .strict with
  | .ok result => .ok result
  | .error _ =>
    match if lenient && scrutiny != .strict then attempt .lax else .error refusal with
    | .ok result => .ok result
    | .error _ => if scrutiny = .free then resort else .error refusal

mutual

/-- The name that a key of a declared type becomes. -/
def nameKey (scrutiny : Scrutiny) : Schema → Value → Except Failure String
  | any, key => inferKey key
  | int, .int n => .ok (Number.intText n)
  | int, .bool b => .ok (Value.display (.bool b))
  | float, .float x => .ok x.text
  | list _, _ | set _ _, _ | dict _ _, _ => .error refusal
  | tuple schemas, .tuple items =>
    (nameKeys scrutiny schemas items).map (",".intercalate ·)
  | nullable inner, key => if key.isNull then inferKey key else nameKey scrutiny inner key
  | union members, key =>
    attempts scrutiny (isLenient.anyLenient members)
      (fun scrutiny => nameByChoice scrutiny members key) (inferKey key)
  | text, .text s => .ok s
  | bool, .bool b => inferKey (.bool b)
  | octets, .octets o => octetText o
  | row, .tuple items => inferKey (.tuple items)
  | record shape _, key =>
    match key with
    | .record own _ => if own == shape then inferKey key else foreignKey scrutiny key
    | _ => foreignKey scrutiny key
  | _, key => foreignKey scrutiny key

/-- The names that keys become, each of the type in its place while there are any. -/
def nameKeys (scrutiny : Scrutiny) : List Schema → List Value → Except Failure (List String)
  | [], keys => inferKeys keys
  | _, [] => .ok []
  | schema :: schemas, key :: keys => do
    let name ← nameKey scrutiny schema key
    let names ← nameKeys scrutiny schemas keys
    .ok (name :: names)

/-- The name that a key becomes by the first choice that has one for it. -/
def nameByChoice (scrutiny : Scrutiny) : List Schema → Value → Except Failure String
  | [], _ => .error refusal
  | schema :: schemas, key =>
    match nameKey scrutiny schema key with
    | .ok name => .ok name
    | .error _ => nameByChoice scrutiny schemas key

end

/-- A sequence, which JSON has only one form for. -/
def sequence (purpose : Purpose) (form : List Value → Value) (items : List Value) : Value :=
  if purpose = .plain then form items else .list items

/-- A set of values, which must be ones that a set can have. -/
def setWritten (purpose : Purpose) (frozen : Bool) (items : List Value) : Except Failure Value :=
  if purpose != .plain then .ok (.list items)
  else if !Value.areHashable items then .error (.runtime "TypeError")
  else .ok (if frozen then .frozenset (Value.setMembers items) else .set (Value.setMembers items))

/-- A mapping of entries. -/
def mapping (purpose : Purpose) (entries : List (Value × Value)) : Except Failure Value :=
  match purpose with
  | .written => .ok (.dict entries)
  | .collected => .ok (Value.dictOf entries)
  | .plain =>
    if Value.areHashable (entries.map Prod.fst) then .ok (Value.dictOf entries)
    else .error (.runtime "TypeError")

/-- A whole number as a number. -/
def dumpWhole (purpose : Purpose) (scrutiny : Scrutiny) (n : Int) (value : Value) :
    Except Failure Value :=
  if scrutiny = .strict then .error refusal
  else if purpose = .plain then .ok value
  else
    match Binary64.ofInt? n with
    | some x => .ok (.float x)
    | none => if purpose = .written then .ok value else .error refusal

/-- The name by which a field of a record is written out. -/
def writtenName (purpose : Purpose) (info : FieldInfo) : Value :=
  .text (if purpose = .plain then info.key else info.name)

/-- The fields that a value has as attributes, if it can have any. -/
def attributes? : Value → Option (List (String × Value))
  | .record shape fields =>
    match shape.kind with
    | .model | .dataclass | .options | .plain => some fields
    | .mapping => some []
    | .slots => none
  | .url _ => some []
  | _ => none

/-- What is known of the fields of a declared record. -/
def fieldsOf : Schema → List (FieldInfo × Schema)
  | record _ fields => fields
  | _ => []

/-- What is known of a field. -/
def fieldOf? (fields : List (FieldInfo × Schema)) (name : String) : Option (FieldInfo × Schema) :=
  fields.find? fun field => field.1.name == name

/--
The fields of a value that a model is written out by: its own when the value is one,
and without scrutiny those of whatever has attributes.
-/
def modelFields? (scrutiny : Scrutiny) (shape : Shape) (value : Value) :
    Option (List (String × Value)) :=
  match value with
  | .record own fields =>
    if own == shape then some fields
    else if scrutiny = .free then attributes? value else none
  | _ => if scrutiny = .free then attributes? value else none

/-- The fields of a value that another kind of record is written out by. -/
def dataFields? (scrutiny : Scrutiny) (shape : Shape) (value : Value) :
    Option (List (String × Value)) :=
  match value with
  | .record own fields =>
    if own == shape || scrutiny = .free && own.kind.isDataclass then some fields else none
  | _ => none

/-- The entries of a record in the order in which its type declares the fields. -/
def arranged (purpose : Purpose) (fields : List (FieldInfo × Schema))
    (entries : List (Value × Value)) : List (Value × Value) :=
  fields.filterMap fun field =>
    entries.find? fun entry => Value.sameKey entry.1 (writtenName purpose field.1)

theorem sizeOf_attributes? {value : Value} {fields : List (String × Value)}
    (h : attributes? value = some fields) : sizeOf fields < sizeOf value := by
  unfold attributes? at h
  split at h
  · rename_i shape own
    have hshape : 0 < sizeOf shape := by cases shape; simp only [Shape.mk.sizeOf_spec]; omega
    have hown : 0 < sizeOf own := by
      cases own <;> simp only [List.nil.sizeOf_spec, List.cons.sizeOf_spec] <;> omega
    split at h <;> cases h <;>
      simp only [Value.record.sizeOf_spec, List.nil.sizeOf_spec] <;> omega
  · rename_i address
    have haddress : 0 < sizeOf address := by
      cases address
      simp only [String.ofByteArray.sizeOf_spec]
      omega
    cases h
    simp only [Value.url.sizeOf_spec, List.nil.sizeOf_spec]
    omega
  · cases h

theorem sizeOf_modelFields? {scrutiny : Scrutiny} {shape : Shape} {value : Value}
    {fields : List (String × Value)} (h : modelFields? scrutiny shape value = some fields) :
    sizeOf fields < sizeOf value := by
  unfold modelFields? at h
  split at h
  · split at h
    · cases h; simp only [Value.record.sizeOf_spec]; omega
    · split at h
      · exact sizeOf_attributes? h
      · cases h
  · split at h
    · exact sizeOf_attributes? h
    · cases h

theorem sizeOf_dataFields? {scrutiny : Scrutiny} {shape : Shape} {value : Value}
    {fields : List (String × Value)} (h : dataFields? scrutiny shape value = some fields) :
    sizeOf fields < sizeOf value := by
  unfold dataFields? at h
  split at h
  · split at h
    · cases h; simp only [Value.record.sizeOf_spec]; omega
    · cases h
  · cases h

mutual

/-- Writes out a value by its own kind. -/
def infer (known : Schemas) (purpose : Purpose) (value : Value) : Except Failure Value :=
  match value with
  | .list items => (inferAll known purpose items).map .list
  | .tuple items => (inferAll known purpose items).map (sequence purpose .tuple)
  | .set items => do setWritten purpose false (← inferAll known purpose items)
  | .frozenset items => do setWritten purpose true (← inferAll known purpose items)
  | .dict entries => do mapping purpose (← inferEntries known purpose entries)
  | .record shape fields =>
    match shape.kind with
    | .model => do
      mapping purpose
        (← dumpFields known purpose .free (fieldsOf ((known.lookup shape.name).getD any)) fields)
    | .dataclass | .options | .mapping => do
      mapping purpose (← inferFields known purpose fields)
    | .plain | .slots => if purpose = .plain then .ok value else .error refusal
  | .octets o | .octetBuffer o =>
    if purpose = .plain then .ok value else (octetText o).map .text
  | .url _ | .response _ | .featureless =>
    if purpose = .plain then .ok value else .error refusal
  | value => .ok value
termination_by (sizeOf value, 0)

/-- Writes out values by their own kinds. -/
def inferAll (known : Schemas) (purpose : Purpose) (values : List Value) :
    Except Failure (List Value) :=
  match values with
  | [] => .ok []
  | value :: rest => do
    let first ← infer known purpose value
    let others ← inferAll known purpose rest
    .ok (first :: others)
termination_by (sizeOf values, 0)

/-- Writes out the entries of a mapping by their own kinds. -/
def inferEntries (known : Schemas) (purpose : Purpose) (entries : List (Value × Value)) :
    Except Failure (List (Value × Value)) :=
  match entries with
  | [] => .ok []
  | (key, value) :: rest => do
    let name ← if purpose = .plain then .ok key else (inferKey key).map Value.text
    let first ← infer known purpose value
    let others ← inferEntries known purpose rest
    .ok ((name, first) :: others)
termination_by (sizeOf entries, 0)

/-- Writes out the fields of a record by their own kinds. -/
def inferFields (known : Schemas) (purpose : Purpose) (fields : List (String × Value)) :
    Except Failure (List (Value × Value)) :=
  match fields with
  | [] => .ok []
  | (name, value) :: rest => do
    let first ← infer known purpose value
    let others ← inferFields known purpose rest
    .ok ((.text name, first) :: others)
termination_by (sizeOf fields, 0)

/-- Writes out a value that is not of the declared type. -/
def dumpForeign (known : Schemas) (purpose : Purpose) (scrutiny : Scrutiny) (value : Value) :
    Except Failure Value :=
  if scrutiny = .free || value.isNull then infer known purpose value else .error refusal
termination_by (sizeOf value, 1)

/-- Writes out a value by its declared type. -/
def dump (known : Schemas) (purpose : Purpose) (scrutiny : Scrutiny) (schema : Schema)
    (value : Value) : Except Failure Value :=
  match schema, value with
  | any, value => infer known purpose value
  | text, .text s => .ok (.text s)
  | bool, .bool b => .ok (.bool b)
  | int, .int n => .ok (.int n)
  | int, .bool b =>
    if scrutiny = .strict then .error refusal
    else .ok (if purpose = .plain then .bool b else .int (Value.boolInt b))
  | float, .float x => .ok (.float x)
  | float, .int n => dumpWhole purpose scrutiny n (.int n)
  | float, .bool b => dumpWhole purpose scrutiny (Value.boolInt b) (.bool b)
  | octets, .octets o => infer known purpose (.octets o)
  | list item, .list items => (dumpAll known purpose scrutiny item items).map .list
  | set false item, .set items => do
    setWritten purpose false (← dumpAll known purpose scrutiny item items)
  | set true item, .frozenset items => do
    setWritten purpose true (← dumpAll known purpose scrutiny item items)
  | row, .tuple items => infer known purpose (.tuple items)
  | tuple schemas, .tuple items =>
    if scrutiny = .strict && schemas.length != items.length then .error refusal
    else (dumpEach known purpose scrutiny schemas items).map (sequence purpose .tuple)
  | dict key item, .dict entries => do
    mapping purpose (← dumpEntries known purpose scrutiny key item entries)
  | dict key item, .record shape fields =>
    if shape.kind = .mapping then do
      mapping purpose (← dumpMembers known purpose scrutiny key item fields)
    else dumpForeign known purpose scrutiny (.record shape fields)
  | nullable inner, value =>
    if value.isNull then .ok .null else dump known purpose scrutiny inner value
  | union members, value =>
    let purpose' := if purpose = .plain then .plain else .collected
    attempts scrutiny (isLenient.anyLenient members)
      (fun scrutiny => dumpByChoice known purpose' scrutiny members value)
      (infer known purpose value)
  | record shape fields, value =>
    if shape.kind = .model then
      match h : modelFields? scrutiny shape value with
      | some own => do
        have := sizeOf_modelFields? h
        mapping purpose (← dumpFields known purpose scrutiny fields own)
      | none => dumpForeign known purpose scrutiny value
    else
      match h : dataFields? scrutiny shape value with
      | some own =>
        have := sizeOf_dataFields? h
        if fields.all fun field => (own.lookup field.1.name).isSome then do
          mapping purpose (arranged purpose fields (← dumpFields known purpose scrutiny fields own))
        else .error (.runtime "AttributeError")
      | none => dumpForeign known purpose scrutiny value
  | _, value => dumpForeign known purpose scrutiny value
termination_by (sizeOf value, sizeOf schema + 2)

/-- Writes out values of one declared type. -/
def dumpAll (known : Schemas) (purpose : Purpose) (scrutiny : Scrutiny) (item : Schema)
    (values : List Value) : Except Failure (List Value) :=
  match values with
  | [] => .ok []
  | value :: rest => do
    let first ← dump known purpose scrutiny item value
    let others ← dumpAll known purpose scrutiny item rest
    .ok (first :: others)
termination_by (sizeOf values, 0)

/-- Writes out values, each of the type in its place while there are any. -/
def dumpEach (known : Schemas) (purpose : Purpose) (scrutiny : Scrutiny) (schemas : List Schema)
    (values : List Value) : Except Failure (List Value) :=
  match values with
  | [] => .ok []
  | value :: rest => do
    let first ← dump known purpose scrutiny (schemas.headD any) value
    let others ← dumpEach known purpose scrutiny schemas.tail rest
    .ok (first :: others)
termination_by (sizeOf values, 0)

/-- Writes out the entries of a mapping of declared types. -/
def dumpEntries (known : Schemas) (purpose : Purpose) (scrutiny : Scrutiny) (key item : Schema)
    (entries : List (Value × Value)) : Except Failure (List (Value × Value)) :=
  match entries with
  | [] => .ok []
  | (name, value) :: rest => do
    let first ←
      if purpose = .plain then dump known purpose scrutiny key name
      else (nameKey scrutiny key name).map Value.text
    let second ← dump known purpose scrutiny item value
    let others ← dumpEntries known purpose scrutiny key item rest
    .ok ((first, second) :: others)
termination_by (sizeOf entries, 0)

/-- Writes out the entries of a mapping that is a record. -/
def dumpMembers (known : Schemas) (purpose : Purpose) (scrutiny : Scrutiny) (key item : Schema)
    (fields : List (String × Value)) : Except Failure (List (Value × Value)) :=
  match fields with
  | [] => .ok []
  | (name, value) :: rest => do
    let first ← (nameKey scrutiny key (.text name)).map Value.text
    let second ← dump known purpose scrutiny item value
    let others ← dumpMembers known purpose scrutiny key item rest
    .ok ((first, second) :: others)
termination_by (sizeOf fields, 0)

/-- Writes out the declared ones of the fields of a record. -/
def dumpFields (known : Schemas) (purpose : Purpose) (scrutiny : Scrutiny)
    (declared : List (FieldInfo × Schema)) (fields : List (String × Value)) :
    Except Failure (List (Value × Value)) :=
  match fields with
  | [] => .ok []
  | (name, value) :: rest => do
    let others ← dumpFields known purpose scrutiny declared rest
    match fieldOf? declared name with
    | some (info, schema) =>
      if purpose = .plain && value.isNull then .ok others
      else do
        let first ← dump known purpose scrutiny schema value
        .ok ((writtenName purpose info, first) :: others)
    | none => .ok others
termination_by (sizeOf fields, 0)

/-- Writes out a value by the first choice that takes it. -/
def dumpByChoice (known : Schemas) (purpose : Purpose) (scrutiny : Scrutiny)
    (members : List Schema) (value : Value) : Except Failure Value :=
  match members with
  | [] => .error refusal
  | schema :: schemas =>
    match dump known purpose scrutiny schema value with
    | .ok result => .ok result
    | .error _ => dumpByChoice known purpose scrutiny schemas value
termination_by (sizeOf value, sizeOf members + 2)

end

mutual

/-- The JSON value that a value written out for JSON is. -/
def jsonOf : Value → JsonValue
  | .bool b => .bool b
  | .int n => .int n
  | .float x => .float x
  | .text s => .text s
  | .list items => .array (jsonOfAll items)
  | .dict entries => .object (jsonOfEntries entries)
  | _ => .null

/-- The JSON values that values written out for JSON are. -/
def jsonOfAll : List Value → List JsonValue
  | [] => []
  | item :: rest => jsonOf item :: jsonOfAll rest

/-- The members of an object that entries written out for JSON are. -/
def jsonOfEntries : List (Value × Value) → List (String × JsonValue)
  | [] => []
  | (key, value) :: rest => (key.plainText, jsonOf value) :: jsonOfEntries rest

end

/-- The JSON value that a value of a declared type is written as. -/
def toJson (schema : Schema) (known : Schemas) (value : Value) : Except Failure JsonValue :=
  (dump known .written .free schema value).map jsonOf

/-- The mapping that a model becomes, by the names of its fields outside and without nulls. -/
def toMapping (known : Schemas) (model : Value) : Except Failure Value :=
  infer known .plain model

end Schema

end HttpBinding
