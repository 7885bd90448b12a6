import HttpBinding.Message.Response
import HttpBinding.Number.Quantity
import HttpBinding.Text.Quoted

/-!
# Values

The arguments and results of calls are dynamic: what is done with a value
depends on its kind, not on what was declared. Records carry the shape of the
type they were made from. A value has a plain text, used wherever it becomes
part of a request, and a display text, in which text is quoted.
-/

namespace HttpBinding

/-- How a declared type keeps its fields. -/
inductive RecordKind where
  /-- Fields are checked and may have another name outside. -/
  | model
  /-- Fields are kept as they are given. -/
  | dataclass
  /-- Fields are set one by one on an empty object. -/
  | plain
  /-- There are no fields to look at. -/
  | slots
  /-- A mapping under a name of its own. -/
  | mapping
  /-- Fields are kept as they are given and never change. -/
  | options
  deriving DecidableEq, Repr

/-- What a record knows of its type. -/
structure Shape where
  name : String
  kind : RecordKind
  /-- The outside names of the fields that have one. -/
  aliases : List (String × String) := []
  deriving DecidableEq, Repr

namespace RecordKind

/-- Whether the fields of a record are those that its type declares, as they were given. -/
def isDataclass : RecordKind → Bool
  | dataclass | options => true
  | _ => false

end RecordKind

/-- A value. -/
inductive Value where
  | null
  | bool (b : Bool)
  | int (n : Int)
  | float (x : Binary64)
  | text (s : String)
  | octets (o : Octets)
  /-- Octets that may be changed in place. -/
  | octetBuffer (o : Octets)
  | list (items : List Value)
  | tuple (items : List Value)
  | set (items : List Value)
  /-- A set that never changes. -/
  | frozenset (items : List Value)
  | dict (entries : List (Value × Value))
  | record (shape : Shape) (fields : List (String × Value))
  | url (text : String)
  | response (r : Response)
  /-- An object without anything to look at. -/
  | featureless

namespace Value

/-- The name of the kind of a value. -/
def typeName : Value → String
  | null => "NoneType"
  | bool _ => "bool"
  | int _ => "int"
  | float _ => "float"
  | text _ => "str"
  | octets _ => "bytes"
  | octetBuffer _ => "bytearray"
  | list _ => "list"
  | tuple _ => "tuple"
  | set _ => "set"
  | frozenset _ => "frozenset"
  | dict _ => "dict"
  | record shape _ => shape.name
  | url _ => "URL"
  | response _ => "Response"
  | featureless => "Opaque"

/-- Texts between an opening and a closing mark, with commas between them. -/
def enclose (opening closing : String) (items : List String) : String :=
  opening ++ ", ".intercalate items ++ closing

mutual

/-- The display text of a value. -/
def display : Value → String
  | null => "None"
  | bool b => if b then "True" else "False"
  | int n => Number.intText n
  | float x => x.text
  | text s => Text.quoted s
  | octets o => Text.quotedOctets o
  | octetBuffer o => "bytearray(" ++ Text.quotedOctets o ++ ")"
  | list items => enclose "[" "]" (displayAll items)
  | tuple [item] => "(" ++ display item ++ ",)"
  | tuple items => enclose "(" ")" (displayAll items)
  | set [] => "set()"
  | set items => enclose "\x7b" "\x7d" (displayAll items)
  | frozenset [] => "frozenset()"
  | frozenset items => enclose "frozenset(\x7b" "\x7d)" (displayAll items)
  | dict entries => enclose "\x7b" "\x7d" (displayEntries entries)
  | record shape fields =>
    match shape.kind with
    | .model | .dataclass | .options => enclose (shape.name ++ "(") ")" (displayFields fields)
    | .mapping => enclose "\x7b" "\x7d" (displayMembers fields)
    | .plain | .slots => "<" ++ shape.name ++ " object>"
  | url address => "URL(" ++ Text.quoted address ++ ")"
  | response r => r.describe
  | featureless => "<Opaque object>"

/-- The display texts of several values. -/
def displayAll : List Value → List String
  | [] => []
  | item :: rest => display item :: displayAll rest

/-- The display texts of the entries of a mapping. -/
def displayEntries : List (Value × Value) → List String
  | [] => []
  | (key, value) :: rest => (display key ++ ": " ++ display value) :: displayEntries rest

/-- The display texts of the fields of a record. -/
def displayFields : List (String × Value) → List String
  | [] => []
  | (name, value) :: rest => (name ++ "=" ++ display value) :: displayFields rest

/-- The display texts of the entries of a mapping that is a record. -/
def displayMembers : List (String × Value) → List String
  | [] => []
  | (name, value) :: rest => (Text.quoted name ++ ": " ++ display value) :: displayMembers rest

end

/-- The plain text of a value: text stands for itself, and the fields of a model are bare. -/
def plainText : Value → String
  | text s => s
  | url s => s
  | record shape fields =>
    match shape.kind with
    | .model => " ".intercalate (displayFields fields)
    | _ => display (record shape fields)
  | value => display value

/-- The entries of a value that is a mapping. -/
def entries? : Value → Option (List (Value × Value))
  | dict entries => some entries
  | record shape fields =>
    match shape.kind with
    | .mapping => some (fields.map fun (name, value) => (text name, value))
    | _ => none
  | _ => none

/-- The values met when a value is gone through one by one, if it can be. -/
def elements? : Value → Option (List Value)
  | text s => some (s.toList.map fun c => text (String.ofList [c]))
  | octets o => some (o.map fun b => int b.toNat)
  | octetBuffer o => some (o.map fun b => int b.toNat)
  | list items => some items
  | tuple items => some items
  | set items => some items
  | frozenset items => some items
  | dict entries => some (entries.map Prod.fst)
  | record shape fields =>
    match shape.kind with
    | .model => some (fields.map fun (name, value) => tuple [text name, value])
    | .mapping => some (fields.map fun (name, _) => text name)
    | _ => none
  | _ => none

/-- Whether a value is null. -/
def isNull : Value → Bool
  | null => true
  | _ => false

/-- Whether a value is a mapping. -/
def isMapping (value : Value) : Bool :=
  value.entries?.isSome

/--
The members of a value that stands for several ones: everything that can be
gone through except text, octets and mappings.
-/
def members? (value : Value) : Option (List Value) :=
  match value with
  | text _ => none
  | octets _ => none
  | value => if value.isMapping then none else value.elements?

/-- The number that a value is. -/
def quantity? : Value → Option Quantity
  | bool b => some (.truth b)
  | int n => some (.whole n)
  | float x => some (.real x)
  | _ => none

/-- The value that a number is. -/
def ofQuantity : Quantity → Value
  | .truth b => bool b
  | .whole n => int n
  | .real x => float x

/-- Whether a value counts as switched on: it is neither null, false, zero nor empty. -/
def isOn : Value → Bool
  | null => false
  | bool b => b
  | int n => n != 0
  | float x => !x.same (.zeroOf false)
  | text s => !s.isEmpty
  | octets o | octetBuffer o => !o.isEmpty
  | list items | tuple items | set items | frozenset items => !items.isEmpty
  | dict entries => !entries.isEmpty
  | record shape fields => shape.kind != .mapping || !fields.isEmpty
  | url _ | response _ | featureless => true

mutual

/-- Whether a value can be a key of a mapping or a member of a set. -/
def isHashable : Value → Bool
  | octetBuffer _ | list _ | set _ | dict _ => false
  | tuple items => areHashable items
  | record shape fields =>
    match shape.kind with
    | .options => haveHashableFields fields
    | .plain | .slots => true
    | .model | .dataclass | .mapping => false
  | _ => true

/-- Whether all of several values can be keys. -/
def areHashable : List Value → Bool
  | [] => true
  | item :: rest => isHashable item && areHashable rest

/-- Whether the values of all fields can be keys. -/
def haveHashableFields : List (String × Value) → Bool
  | [] => true
  | (_, value) :: rest => isHashable value && haveHashableFields rest

end

/-- Whether an integer and a number are equal. -/
def sameNumber (n : Int) (x : Binary64) : Bool :=
  x.compareInt n == some .eq

/-- A truth value as a number. -/
def boolInt (b : Bool) : Int :=
  if b then 1 else 0

mutual

/--
Whether two values are the same key of a mapping. Numbers are compared by their
value, whatever their kind; values that cannot be keys are no one's equal.
-/
def sameKey : Value → Value → Bool
  | null, null => true
  | bool a, bool b => a == b
  | bool a, int b => boolInt a == b
  | int a, bool b => a == boolInt b
  | bool a, float b => sameNumber (boolInt a) b
  | float a, bool b => sameNumber (boolInt b) a
  | int a, int b => a == b
  | int a, float b => sameNumber a b
  | float a, int b => sameNumber b a
  | float a, float b => a.same b
  | text a, text b => a == b
  | octets a, octets b => a == b
  | tuple a, tuple b => sameKeys a b
  | frozenset a, frozenset b => a.length == b.length && areAmong a b
  | url a, url b => a == b
  | record a as, record b bs => a.kind == .options && b.kind == .options && sameFields as bs
  | _, _ => false

/-- Whether two lists of values are the same keys one by one. -/
def sameKeys : List Value → List Value → Bool
  | [], [] => true
  | a :: as, b :: bs => sameKey a b && sameKeys as bs
  | _, _ => false

/-- Whether each value of a list is the same key as one of another list. -/
def areAmong : List Value → List Value → Bool
  | [], _ => true
  | a :: as, bs => (bs.any fun b => sameKey a b) && areAmong as bs

/-- Whether the fields of two records are the same keys one by one. -/
def sameFields : List (String × Value) → List (String × Value) → Bool
  | [], [] => true
  | (_, a) :: as, (_, b) :: bs => sameKey a b && sameFields as bs
  | _, _ => false

end

/-- Values, each once, at the place where it stands first. -/
def distinct (values : List Value) : List Value :=
  values.foldl (fun kept value => if kept.any (sameKey value) then kept else kept ++ [value]) []

/-- The whole number that a value is. -/
def wholeNumber? : Value → Option Int
  | bool b => some (boolInt b)
  | int n => some n
  | _ => none

/-- The values of a set, each once. Whole numbers among themselves stand in ascending order. -/
def setMembers (values : List Value) : List Value :=
  let kept := distinct values
  match kept.mapM wholeNumber? with
  | some numbers =>
    ((numbers.zip kept).mergeSort fun a b => a.1 ≤ b.1).map Prod.snd
  | none => kept

/-- Sets the value of a key of a mapping, in place if the key is present. -/
def putKey (key value : Value) : List (Value × Value) → List (Value × Value)
  | [] => [(key, value)]
  | (k, v) :: rest =>
    if sameKey k key then (k, value) :: rest else (k, v) :: putKey key value rest

/-- A mapping of pairs: a repeated key keeps its first place and its last value. -/
def dictOf (pairs : List (Value × Value)) : Value :=
  dict (pairs.foldl (fun entries pair => putKey pair.1 pair.2 entries) [])

end Value

end HttpBinding
