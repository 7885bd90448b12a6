import HttpBinding.Number.Decimal
import HttpBinding.Text.Quoted

/-!
# JSON values and their text

A JSON value keeps whole numbers apart from fractional ones, by their spelling,
and keeps the members of objects in order. Its text is compact: nothing stands
between its parts, and only quotes, backslashes and control characters are
escaped.
-/

namespace HttpBinding

/-- A JSON value. -/
inductive JsonValue where
  | null
  | bool (b : Bool)
  | int (n : Int)
  | float (x : Binary64)
  | text (s : String)
  | array (items : List JsonValue)
  | object (members : List (String × JsonValue))

namespace JsonValue

/-- A character of a string. -/
def writeChar (c : Char) : List Char :=
  if c = '"' then ['\\', '"']
  else if c = '\\' then ['\\', '\\']
  else if c = '\n' then ['\\', 'n']
  else if c = '\t' then ['\\', 't']
  else if c = '\r' then ['\\', 'r']
  else if c.toNat = 0x08 then ['\\', 'b']
  else if c.toNat = 0x0C then ['\\', 'f']
  else if c.toNat < 0x20 then ['\\', 'u'] ++ Text.hexDigits 4 c.toNat
  else [c]

/-- A string in quotes. -/
def writeText (s : String) : List Char :=
  ['"'] ++ s.toList.flatMap writeChar ++ ['"']

mutual

/-- The text of a value. -/
def write : JsonValue → List Char
  | null => "null".toList
  | bool b => (if b then "true" else "false").toList
  | int n => (Number.intText n).toList
  | float x => x.json.toList
  | text s => writeText s
  | array [] => ['[', ']']
  | array (item :: rest) => ['['] ++ write item ++ writeRest rest ++ [']']
  | object [] => ['{', '}']
  | object ((name, value) :: rest) =>
    ['{'] ++ writeText name ++ [':'] ++ write value ++ writeMembers rest ++ ['}']

/-- The items of an array after the first. -/
def writeRest : List JsonValue → List Char
  | [] => []
  | item :: rest => [','] ++ write item ++ writeRest rest

/-- The members of an object after the first. -/
def writeMembers : List (String × JsonValue) → List Char
  | [] => []
  | (name, value) :: rest =>
    [','] ++ writeText name ++ [':'] ++ write value ++ writeMembers rest

end

end JsonValue

end HttpBinding
