import HttpBinding.Json.Value
import HttpBinding.Number.Numeral
import HttpBinding.Octets.Percent

/-!
# Reading JSON

The reader accepts JSON text, with blanks between its parts, and besides it the
words for infinity and for what is not a number. Numbers without a fraction and
an exponent are whole numbers of any size up to the digit limit. Arrays and
objects that are not empty may be nested `maxDepth` deep.
-/

namespace HttpBinding.JsonValue

/-- How deep arrays and objects may be nested. -/
def maxDepth : Nat := 200

/-- The blanks between parts. -/
def isBlank (c : Char) : Bool :=
  c = ' ' || c = '\t' || c = '\n' || c = '\r'

/-- The text from the next part on. -/
def skip (chars : List Char) : List Char :=
  chars.dropWhile isBlank

/-- The number of four hexadecimal digits. -/
def fourHex? (a b c d : Char) : Option Nat := do
  let a ← Percent.hexValue? a
  let b ← Percent.hexValue? b
  let c ← Percent.hexValue? c
  let d ← Percent.hexValue? d
  some (((a * 16 + b) * 16 + c) * 16 + d)

/-- The character of an escape with one letter. -/
def escaped? (c : Char) : Option Char :=
  if c = '"' || c = '\\' || c = '/' then some c
  else if c = 'n' then some '\n'
  else if c = 't' then some '\t'
  else if c = 'r' then some '\r'
  else if c = 'b' then some (Char.ofNat 0x08)
  else if c = 'f' then some (Char.ofNat 0x0C)
  else none

/-- Puts a character in front of a string that was read. -/
def consChar (c : Char) (found : Option (List Char × List Char)) : Option (List Char × List Char) :=
  found.map fun result => (c :: result.1, result.2)

/-- Reads a string after its opening quote, with the text that follows it. -/
def readString : List Char → Option (List Char × List Char)
  | [] => none
  | '"' :: rest => some ([], rest)
  | '\\' :: 'u' :: a :: b :: c :: d :: rest =>
    match fourHex? a b c d with
    | none => none
    | some unit =>
      if 0xD800 ≤ unit && unit < 0xDC00 then
        match rest with
        | '\\' :: 'u' :: e :: f :: g :: h :: rest' =>
          match fourHex? e f g h with
          | some low =>
            if 0xDC00 ≤ low && low < 0xE000 then
              consChar (Char.ofNat (0x10000 + (unit - 0xD800) * 0x400 + (low - 0xDC00)))
                (readString rest')
            else none
          | none => none
        | _ => none
      else if 0xDC00 ≤ unit && unit < 0xE000 then none
      else consChar (Char.ofNat unit) (readString rest)
  | '\\' :: c :: rest =>
    match escaped? c with
    | some plain => consChar plain (readString rest)
    | none => none
  | ['\\'] => none
  | c :: rest => if c.toNat < 0x20 then none else consChar c (readString rest)
termination_by chars => chars.length
decreasing_by all_goals simp_all; try omega

/-- Reads the digits before the point: a zero alone, or digits that begin with another one. -/
def readWhole? (chars : List Char) : Option (List Char × List Char) :=
  match chars.takeWhile Char.isDigit with
  | [] => none
  | ['0'] => some (['0'], chars.drop 1)
  | '0' :: _ => none
  | ds => some (ds, chars.drop ds.length)

/-- Reads the digits after a point, if there is one. -/
def readPart? (chars : List Char) : Option (Option (List Char) × List Char) :=
  match chars with
  | '.' :: rest =>
    match rest.takeWhile Char.isDigit with
    | [] => none
    | ds => some (some ds, rest.drop ds.length)
  | _ => some (none, chars)

/-- Reads an exponent, if there is one. -/
def readExponent? (chars : List Char) : Option (Option Int × List Char) :=
  match chars with
  | e :: rest =>
    if e = 'e' || e = 'E' then
      let (negative, body) := Number.signed rest
      match body.takeWhile Char.isDigit with
      | [] => none
      | ds =>
        let size : Int := Number.digitsValue ds
        some (some (if negative then -size else size), body.drop ds.length)
    else some (none, chars)
  | [] => some (none, chars)

/-- Reads a number after its sign. -/
def readUnsigned (negative : Bool) (chars : List Char) : Option (JsonValue × List Char) := do
  let (whole, chars) ← readWhole? chars
  let (part, chars) ← readPart? chars
  let (exponent, chars) ← readExponent? chars
  match part, exponent with
  | none, none =>
    if Number.maxDigits < whole.length then none
    else
      let size : Int := Number.digitsValue whole
      some (.int (if negative then -size else size), chars)
  | _, _ =>
    let ds := part.getD []
    some (.float (.ofDecimal negative (Number.digitsValue (whole ++ ds))
      (exponent.getD 0 - ds.length)), chars)

/-- Reads a number or one of the words that stand for one. -/
def readNumber (chars : List Char) : Option (JsonValue × List Char) :=
  match chars with
  | 'N' :: 'a' :: 'N' :: rest => some (.float .nan, rest)
  | 'I' :: 'n' :: 'f' :: 'i' :: 'n' :: 'i' :: 't' :: 'y' :: rest =>
    some (.float (.infinityOf false), rest)
  | '-' :: 'I' :: 'n' :: 'f' :: 'i' :: 'n' :: 'i' :: 't' :: 'y' :: rest =>
    some (.float (.infinityOf true), rest)
  | '-' :: rest => readUnsigned true rest
  | _ => readUnsigned false chars

mutual

/-- Reads a value, with at most the given number of steps and the given depth of nesting. -/
def readValue (fuel depth : Nat) (chars : List Char) : Option (JsonValue × List Char) :=
  match fuel with
  | 0 => none
  | fuel + 1 =>
    match skip chars with
    | 'n' :: 'u' :: 'l' :: 'l' :: rest => some (.null, rest)
    | 't' :: 'r' :: 'u' :: 'e' :: rest => some (.bool true, rest)
    | 'f' :: 'a' :: 'l' :: 's' :: 'e' :: rest => some (.bool false, rest)
    | '"' :: rest =>
      match readString rest with
      | some (content, rest) => some (.text (String.ofList content), rest)
      | none => none
    | '[' :: rest =>
      match skip rest, depth with
      | ']' :: rest, _ => some (.array [], rest)
      | _, 0 => none
      | rest, depth + 1 =>
        match readItems fuel depth rest with
        | some (items, rest) => some (.array items, rest)
        | none => none
    | '{' :: rest =>
      match skip rest, depth with
      | '}' :: rest, _ => some (.object [], rest)
      | _, 0 => none
      | rest, depth + 1 =>
        match readMembers fuel depth rest with
        | some (members, rest) => some (.object members, rest)
        | none => none
    | rest => readNumber rest

/-- Reads the items of an array up to its closing bracket. -/
def readItems (fuel depth : Nat) (chars : List Char) : Option (List JsonValue × List Char) :=
  match fuel with
  | 0 => none
  | fuel + 1 =>
    match readValue fuel depth chars with
    | none => none
    | some (item, rest) =>
      match skip rest with
      | ']' :: rest => some ([item], rest)
      | ',' :: rest =>
        match readItems fuel depth rest with
        | some (items, rest) => some (item :: items, rest)
        | none => none
      | _ => none

/-- Reads the members of an object up to its closing brace. -/
def readMembers (fuel depth : Nat) (chars : List Char) :
    Option (List (String × JsonValue) × List Char) :=
  match fuel with
  | 0 => none
  | fuel + 1 =>
    match skip chars with
    | '"' :: rest =>
      match readString rest with
      | none => none
      | some (name, rest) =>
        match skip rest with
        | ':' :: rest =>
          match readValue fuel depth rest with
          | none => none
          | some (value, rest) =>
            match skip rest with
            | '}' :: rest => some ([(String.ofList name, value)], rest)
            | ',' :: rest =>
              match readMembers fuel depth rest with
              | some (members, rest) => some ((String.ofList name, value) :: members, rest)
              | none => none
            | _ => none
        | _ => none
    | _ => none

end

/-- Reads a text that is one value. Every step of reading takes a character or ends. -/
def read? (chars : List Char) : Option JsonValue :=
  match readValue (2 * chars.length + 2) maxDepth chars with
  | some (value, rest) => if (skip rest).isEmpty then some value else none
  | none => none

/-- Reads octets that are UTF-8 and one value. -/
def ofOctets? (octets : Octets) : Option JsonValue := do
  let chars ← Utf8.decode? octets
  read? chars

end HttpBinding.JsonValue
