import HttpBinding.Octets.Utf8
import HttpBinding.Text.Split

/-!
# Percent-encoding

A character that is not safe is written as one escape for each of its UTF-8
octets. Which characters are safe beside the unreserved ones depends on the
place in the URL: nothing more in a name, the separators inside a path segment
in a path, fewer of them in a query. Reading turns every run of ASCII
characters into octets and decodes them as UTF-8 with replacements; other
characters stand for themselves.
-/

namespace HttpBinding.Percent

/-- Letters, digits and the four marks that are never escaped. -/
def isUnreserved (c : Char) : Bool :=
  c.isAlphanum || c = '-' || c = '.' || c = '_' || c = '~'

/-- What stands unescaped in a path value; the slash only where it is decoded. -/
def isPathSafe (decodeSlash : Bool) (c : Char) : Bool :=
  isUnreserved c || "!$&'()*+,;=:@".toList.contains c || (decodeSlash && c = '/')

/-- What stands unescaped in a query value. -/
def isQuerySafe (c : Char) : Bool :=
  isUnreserved c || "!$'()*,;:@/?".toList.contains c

/-- A hexadecimal digit in upper case. -/
def hexDigit (n : Nat) : Char :=
  if n < 10 then Char.ofNat (0x30 + n) else Char.ofNat (0x37 + n)

/-- The value of a hexadecimal digit in either case. -/
def hexValue? (c : Char) : Option Nat :=
  let n := c.toNat
  if 0x30 ≤ n && n ≤ 0x39 then some (n - 0x30)
  else if 0x41 ≤ n && n ≤ 0x46 then some (n - 0x37)
  else if 0x61 ≤ n && n ≤ 0x66 then some (n - 0x57)
  else none

/-- The escape of an octet. -/
def escape (b : UInt8) : List Char :=
  ['%', hexDigit (b.toNat / 16), hexDigit (b.toNat % 16)]

/-- A character, escaped unless it is safe. -/
def encodeChar (safe : Char → Bool) (c : Char) : List Char :=
  if c.toNat < 0x80 && safe c then [c] else (Utf8.encodeChar c).flatMap escape

/-- A text with everything escaped that is not safe. -/
def encodeBy (safe : Char → Bool) (text : List Char) : List Char :=
  text.flatMap (encodeChar safe)

/-- A name or value in which only unreserved characters stand for themselves. -/
def encode (text : String) : String :=
  String.ofList (encodeBy isUnreserved text.toList)

/-- Whether a character is printable ASCII and none of the given ones. -/
def isPrintableBut (others : String) (c : Char) : Bool :=
  0x20 ≤ c.toNat && c.toNat < 0x7F && !others.toList.contains c

/--
A whole address: what may not stand in its path, its query or its fragment is
escaped, and escapes that are there already stay.
-/
def encodeAddress (address : String) : String :=
  let (rest, fragment) := Text.cut '#' address.toList
  let (path, query) := Text.cut '?' rest
  let part (mark : Char) (escaped : String) (chars : Option (List Char)) : List Char :=
    match chars with
    | some chars => mark :: encodeBy (isPrintableBut escaped) chars
    | none => []
  String.ofList (encodeBy (isPrintableBut " \"<>`\x7b\x7d") path ++ part '?' " \"<>" query
    ++ part '#' " \"<>`" fragment)

/-- A value for the path of a URL. -/
def encodePath (decodeSlash : Bool) (text : String) : String :=
  String.ofList (encodeBy (isPathSafe decodeSlash) text.toList)

/-- A value for the query of a URL. -/
def encodeQuery (text : String) : String :=
  String.ofList (encodeBy isQuerySafe text.toList)

/-- The octets of a text in which escapes stand for octets. -/
def octets : List Char → Octets
  | [] => []
  | '%' :: a :: b :: rest =>
    match hexValue? a, hexValue? b with
    | some high, some low => (high * 16 + low).toUInt8 :: octets rest
    | _, _ => 0x25 :: octets (a :: b :: rest)
  | c :: rest => Utf8.encodeChar c ++ octets rest

/-- Whether a character is ASCII. -/
def isAscii (c : Char) : Bool :=
  c.toNat < 0x80

/-- The text that escapes and plain characters stand for. -/
def decodeChars : List Char → List Char
  | [] => []
  | c :: rest =>
    if isAscii c then
      Utf8.decode (octets (c :: rest.takeWhile isAscii)) ++ decodeChars (rest.dropWhile isAscii)
    else c :: decodeChars rest
termination_by text => text.length
decreasing_by
  · have := (List.dropWhile_suffix isAscii (l := rest)).length_le
    simp only [List.length_cons]
    omega
  · simp

/-- The string that a percent-encoded string stands for. -/
def decode (text : String) : String :=
  String.ofList (decodeChars text.toList)

/-- A character in a form: a space becomes a plus, and all but unreserved characters are escaped. -/
def encodeFormChar (c : Char) : List Char :=
  if c = ' ' then ['+'] else encodeChar isUnreserved c

/-- A name or value in a form. -/
def encodeForm (text : String) : String :=
  String.ofList (text.toList.flatMap encodeFormChar)

/-- An octet in a form. -/
def encodeFormOctet (b : UInt8) : List Char :=
  if b.toNat < 0x80 then encodeFormChar (Char.ofNat b.toNat) else escape b

/-- Octets in a form. -/
def encodeFormOctets (bytes : Octets) : String :=
  String.ofList (bytes.flatMap encodeFormOctet)

/-- The name or value that a part of a form stands for. -/
def decodeForm (text : String) : String :=
  String.ofList (decodeChars (text.toList.map fun c => if c = '+' then ' ' else c))

end HttpBinding.Percent
