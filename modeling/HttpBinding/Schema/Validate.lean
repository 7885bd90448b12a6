import HttpBinding.Json.Reader
import HttpBinding.Schema.Basic

/-!
# Reading values

A value is read as a value of a schema, be it one that came as JSON or one that
the program has made itself. Numbers are also read from text and from truth
values, truth values also from words and from zero and one. On the way it is
kept how close the value was to the declared type and how many fields of records
were given: of the choices of a union the one with the most fields is taken, or
else the closest one, and the first of those that are equally good.
-/

namespace HttpBinding

/-- Where values to be read come from. -/
inductive Source where
  /-- Mappings have the members of objects, in which a name may stand several times. -/
  | json
  | live
  deriving DecidableEq, Repr

/-- How close a value that was read is to the declared type. -/
inductive Grade where
  | loose
  | strict
  | exact
  deriving DecidableEq, Repr

namespace Grade

/-- The grade as a number. -/
def rank : Grade → Nat
  | loose => 0
  | strict => 1
  | exact => 2

/-- The lower of two grades. -/
def lower (a b : Grade) : Grade :=
  if a.rank ≤ b.rank then a else b

end Grade

/-- How well the parts of a value fit that have been read so far. -/
structure Fit where
  grade : Grade := .exact
  /-- How many fields of records were given, once a record has been read. -/
  fieldsGiven : Option Nat := none
  deriving DecidableEq, Repr

namespace Fit

/-- The fit is not better than a grade. -/
def floor (grade : Grade) (fit : Fit) : Fit :=
  { fit with grade := fit.grade.lower grade }

/-- More fields were given. -/
def giving (count : Nat) (fit : Fit) : Fit :=
  { fit with fieldsGiven := some (fit.fieldsGiven.getD 0 + count) }

/-- A fit with that of another value of which it is a part. -/
def including (inner fit : Fit) : Fit :=
  let fit := fit.floor inner.grade
  match inner.fieldsGiven with
  | some count => fit.giving count
  | none => fit

/-- Whether nothing fits better. -/
def isPerfect (fit : Fit) : Bool :=
  fit.grade == .exact && fit.fieldsGiven.isNone

/-- Whether a fit is less than another one. -/
def isLess (a b : Fit) : Bool :=
  match a.fieldsGiven, b.fieldsGiven with
  | some m, some n => if m = n then a.grade.rank < b.grade.rank else m < n
  | _, _ => a.grade.rank < b.grade.rank

end Fit

/-- Reading, which fails or comes to a value, and keeps how well everything fits. -/
abbrev Reading := StateT Fit Option

namespace Schema

/-- The blanks around numbers in text. -/
def isNumberBlank (c : Char) : Bool :=
  Text.isBlank c && !(0x1C ≤ c.toNat && c.toNat ≤ 0x1F)

/-- Drops a fraction that has nothing but zeros. -/
def dropZeroFraction (chars : List Char) : List Char :=
  match chars.dropWhile (· != '.') with
  | '.' :: part => if part.all (· == '0') then chars.takeWhile (· != '.') else chars
  | _ => chars

/-- Drops underscores, which must stand one at a time and neither first nor last. -/
def dropUnderscores? (chars : List Char) : Option (List Char) :=
  if (Text.splitOn '_' chars).any (·.isEmpty) then none else some (chars.filter (· != '_'))

/--
Drops the zeros that digits begin with, except for the last of them when there is
nothing else. Single underscores may stand between the zeros.
-/
def dropLeadingZeros? : List Char → Option (List Char)
  | ['0', '_'] => none
  | '0' :: '_' :: c :: rest => if c.isDigit then dropLeadingZeros? (c :: rest) else none
  | '0' :: c :: rest => dropLeadingZeros? (c :: rest)
  | c :: rest => if c.isDigit then some (c :: rest) else none
  | [] => none

/-- The size of a whole number in plain digits, if they are not too many. -/
def sizeOfDigits? (ds : List Char) : Option Int :=
  if ds.isEmpty || !ds.all Char.isDigit || Number.maxDigits < ds.length then none
  else some (Number.digitsValue ds)

/-- Reads a whole number from text. Only without a minus may it begin with zeros. -/
def intOfText? (s : String) : Option Int := do
  match dropZeroFraction (Text.trimBy isNumberBlank s.toList) with
  | '-' :: body => do
    let cleaned ← dropUnderscores? ('-' :: body)
    let ds := cleaned.drop 1
    if ds.head? == some '0' && ds.length != 1 then none
    else (sizeOfDigits? ds).map fun size => -size
  | chars => do
    let body := if chars.head? == some '+' then chars.drop 1 else chars
    let ds ← dropUnderscores? (← dropLeadingZeros? body)
    sizeOfDigits? ds

/-- Reads a number from text. -/
def floatOfText? (s : String) : Option Binary64 := do
  let chars ← dropUnderscores? (Text.trimBy isNumberBlank s.toList)
  let (negative, body) := Number.signed chars
  let word := String.ofList (body.map Char.toLower)
  if word == "inf" || word == "infinity" then some (.infinityOf negative)
  else if word == "nan" then some .nan
  else Number.readDecimal? negative body

/-- The whole number that a number is, within 64 bits. -/
def intOfFloat? : Binary64 → Option Int
  | .nan => none
  | .signed negative code _ =>
    let units := Binary64.unitsOf code
    let size := units / Binary64.unitsInOne
    if code < Binary64.infinityCode && units % Binary64.unitsInOne == 0 &&
        size < 0x8000000000000000 then
      some (if negative then -(size : Int) else size)
    else none

/-- Reads a truth value from a word. -/
def boolOfText? (s : String) : Option Bool :=
  let word := String.ofList (s.toList.map Char.toLower)
  if ["1", "on", "t", "true", "y", "yes"].contains word then some true
  else if ["0", "off", "f", "false", "n", "no"].contains word then some false
  else none

/-- A truth value from zero or one. -/
def boolOfInt? (n : Int) : Option Bool :=
  if n = 0 then some false else if n = 1 then some true else none

/-- The text that a value is or, in UTF-8, encodes. -/
def textOf? : Value → Option String
  | .text s => some s
  | .octets o | .octetBuffer o => (Utf8.decode? o).map String.ofList
  | _ => none

mutual

/-- A JSON value as a value in which mappings have the members of objects as they stand. -/
def ofJson : JsonValue → Value
  | .null => .null
  | .bool b => .bool b
  | .int n => .int n
  | .float x => .float x
  | .text s => .text s
  | .array items => .list (ofJsonAll items)
  | .object members => .dict (ofJsonMembers members)

/-- JSON values as values. -/
def ofJsonAll : List JsonValue → List Value
  | [] => []
  | item :: rest => ofJson item :: ofJsonAll rest

/-- The members of an object as entries. -/
def ofJsonMembers : List (String × JsonValue) → List (Value × Value)
  | [] => []
  | (name, value) :: rest => (.text name, ofJson value) :: ofJsonMembers rest

end

mutual

/-- A value whose mappings, and those within them, have each key once with its last value. -/
def settle : Value → Value
  | .list items => .list (settleAll items)
  | .dict entries => Value.dictOf (settleEntries entries)
  | value => value

/-- Several values with each key once. -/
def settleAll : List Value → List Value
  | [] => []
  | item :: rest => settle item :: settleAll rest

/-- Entries whose values have each key once. -/
def settleEntries : List (Value × Value) → List (Value × Value)
  | [] => []
  | (key, value) :: rest => (key, settle value) :: settleEntries rest

end

/-- Fails unless there is a value, which fits only so well. -/
def taking (grade : Grade) (found : Option Value) : Reading Value := fun fit =>
  found.map fun value => (value, fit.floor grade)

/-- Reads any value. -/
def validateAny (source : Source) (value : Value) : Reading Value :=
  taking .loose (some (if source = .json then settle value else value))

/-- Reads text. -/
def validateText (source : Source) : Value → Reading Value
  | .text s => taking (if source = .json then .strict else .exact) (some (.text s))
  | value => taking .loose ((textOf? value).map .text)

/-- Reads octets. -/
def validateOctets (source : Source) : Value → Reading Value
  | .octets o => taking .exact (some (.octets o))
  | .octetBuffer o => taking .loose (some (.octets o))
  | .text s =>
    taking (if source = .json then .strict else .loose) (some (.octets (Utf8.ofString s)))
  | _ => taking .loose none

/-- Reads a whole number. -/
def validateInt : Value → Reading Value
  | .int n => taking .exact (some (.int n))
  | .bool b => taking .loose (some (.int (Value.boolInt b)))
  | .float x => taking .loose ((intOfFloat? x).map .int)
  | value => taking .loose (((textOf? value).bind intOfText?).map .int)

/-- The number nearest to a whole number; only one that is written down may be too large. -/
def floatOfInt? (source : Source) (n : Int) : Option Binary64 :=
  if source = .json then some (.ofInt n) else Binary64.ofInt? n

/-- Reads a number. -/
def validateFloat (source : Source) : Value → Reading Value
  | .float x => taking .exact (some (.float x))
  | .int n => taking .strict ((floatOfInt? source n).map .float)
  | .bool b => taking .loose (some (.float (.ofInt (Value.boolInt b))))
  | value => taking .loose (((textOf? value).bind floatOfText?).map .float)

/-- Reads a truth value. -/
def validateBool : Value → Reading Value
  | .bool b => taking .exact (some (.bool b))
  | .int n => taking .loose ((boolOfInt? n).map .bool)
  | .float x => taking .loose (((intOfFloat? x).bind boolOfInt?).map .bool)
  | value => taking .loose (((textOf? value).bind boolOfText?).map .bool)

/-- The items of a value that is read as a list. -/
def listItems (value : Value) : Reading (List Value) := fun fit =>
  match value with
  | .list items => some (items, fit)
  | .octetBuffer _ => none
  | value => value.members?.map fun items => (items, fit.floor .loose)

/-- The items of a value that is read as a set. -/
def setItems (source : Source) (frozen : Bool) (value : Value) : Reading (List Value) := fun fit =>
  match value, frozen with
  | .set items, false | .frozenset items, true => some (items, fit)
  | .list items, _ => some (items, fit.floor (if source = .json then .strict else .loose))
  | .octetBuffer _, _ => none
  | value, _ => value.members?.map fun items => (items, fit.floor .loose)

/-- The items of a value that is read as a tuple. -/
def tupleItems (source : Source) (value : Value) : Reading (List Value) := fun fit =>
  match value with
  | .tuple items => some (items, fit)
  | .list items => some (items, fit.floor (if source = .json then .strict else .loose))
  | .octetBuffer _ => none
  | value => value.members?.map fun items => (items, fit.floor .loose)

/-- A set of values, which must be ones that a set can have. -/
def setOf (frozen : Bool) (values : List Value) : Option Value :=
  if Value.areHashable values then
    some (if frozen then .frozenset (Value.setMembers values) else .set (Value.setMembers values))
  else none

/-- The entries of a mapping that a record is read from, each key once. -/
def givenFields (shape : Shape) (value : Value) : Option (List (Value × Value)) :=
  let isText : Value → Bool
    | .text _ => true
    | _ => false
  match value.entries?.map (Value.dictOf ·) with
  | some (.dict entries) =>
    if shape.kind.isDataclass && !entries.all (fun entry => isText entry.1) then none
    else some entries
  | _ => none

/-- The value that is given for a field. -/
def given? (info : FieldInfo) (entries : List (Value × Value)) : Option Value :=
  (entries.find? fun entry => Value.sameKey entry.1 (.text info.key)).map Prod.snd

/-- How many of some fields are given. -/
def countGiven (fields : List (FieldInfo × Schema)) (entries : List (Value × Value)) : Nat :=
  fields.countP fun field => (given? field.1 entries).isSome

/-- How well a new record fits at best, before its fields are read. -/
def gradeBefore (shape : Shape) : Grade :=
  if shape.kind = .model then .loose else .exact

/-- How well a new record fits at best. -/
def gradeAfter (shape : Shape) : Grade :=
  if shape.kind = .model then .exact else .strict

/-- Whether a value is a record of a shape already. -/
def isOfShape (source : Source) (shape : Shape) : Value → Bool
  | .record own _ => source = .live && own == shape
  | _ => false

/-- What one reading of a value comes to, with its fit. -/
abbrev Candidate := Value × Fit

/-- The better of what has been found and a new candidate; the first when they are equally good. -/
def better (found : Option Candidate) (candidate : Candidate) : Candidate :=
  match found with
  | some best => if best.2.isLess candidate.2 then candidate else best
  | none => candidate

mutual

/-- Reads a value as a value of a schema. -/
def validate (source : Source) : Schema → Value → Reading Value
  | any, value => validateAny source value
  | null, value => fun fit => if value.isNull then some (.null, fit) else none
  | text, value => validateText source value
  | int, value => validateInt value
  | float, value => validateFloat source value
  | bool, value => validateBool value
  | octets, value => validateOctets source value
  | list any, value => do
    let items ← listItems value
    return .list (if source = .json then settleAll items else items)
  | list item, value | stream item, value => do
    let items ← listItems value
    return .list (← items.mapM (validate source item))
  | set frozen item, value => do
    let items ← setItems source frozen value
    StateT.lift (setOf frozen (← items.mapM (validate source item)))
  | row, value => do
    let items ← tupleItems source value
    return .tuple (← items.mapM (validateAny source))
  | tuple schemas, value => do
    return .tuple (← validateEach source schemas (← tupleItems source value))
  | dict key item, value => do
    let entries ← StateT.lift value.entries?
    let entries ← entries.mapM fun entry => do
      let name ← validate source key entry.1
      return (name, ← validate source item entry.2)
    return Value.dictOf entries
  | nullable inner, value =>
    if value.isNull then return .null else validate source inner value
  | union schemas, value => fun fit =>
    (validateChoices source schemas value none).map fun (chosen, inner) =>
      (chosen, if inner.isPerfect then inner else inner.including fit)
  | record shape fields, value =>
    if isOfShape source shape value then return value
    else do
      let entries ← StateT.lift (givenFields shape value)
      modify (Fit.floor (gradeBefore shape))
      let values ← validateFields source fields entries
      modify (Fit.giving (countGiven fields entries))
      modify (Fit.floor (gradeAfter shape))
      return .record shape values
  | foreign, _ => StateT.lift none

/-- Reads items, each by the schema in its place; there must be as many of one as of the other. -/
def validateEach (source : Source) : List Schema → List Value → Reading (List Value)
  | [], [] => return []
  | schema :: schemas, item :: items => do
    let value ← validate source schema item
    return value :: (← validateEach source schemas items)
  | _, _ => StateT.lift none

/--
Reads a value by the choice that reads it best, given the best that has been found.
One that nothing fits better ends the search.
-/
def validateChoices (source : Source) :
    List Schema → Value → Option Candidate → Option Candidate
  | [], _, found => found
  | schema :: schemas, value, found =>
    match (validate source schema value).run {} with
    | some candidate =>
      if candidate.2.isPerfect then some candidate
      else validateChoices source schemas value (some (better found candidate))
    | none => validateChoices source schemas value found

/-- Reads the fields of a record; a field that is missing has its default. -/
def validateFields (source : Source) :
    List (FieldInfo × Schema) → List (Value × Value) → Reading (List (String × Value))
  | [], _ => return []
  | (info, schema) :: fields, entries => do
    let value ←
      match given? info entries with
      | some value => validate source schema value
      | none => StateT.lift info.default
    return (info.name, value) :: (← validateFields source fields entries)

end

/-- The value of a schema that a value from a source is read as. -/
def read? (source : Source) (schema : Schema) (value : Value) : Option Value :=
  (validate source schema value).run' {}

end Schema

end HttpBinding
