import HttpBinding.Number.Decimal
import HttpBinding.Text.Blank
import HttpBinding.Text.Digit

/-!
# Numerals

Numbers are read from text with ASCII blanks around them, or blanks of any
script when the text is not ASCII throughout. Digits may be those of any
script, and single underscores may stand between digits. An integer has at
most `maxDigits` digits.
-/

namespace HttpBinding.Number

/-- The most digits that an integer numeral may have. -/
def maxDigits : Nat := 4300

/-- The ASCII character that stands for a character in a numeral. -/
def numeralChar (c : Char) : Char :=
  if c.toNat < 0x7F then c
  else if Text.isBlank c then ' '
  else
    match Text.decimalDigit? c with
    | some value => Char.ofNat (0x30 + value)
    | none => '?'

/-- The characters of a numeral in ASCII, without the blanks around them. -/
def numeralChars (text : String) : List Char :=
  Text.trimBy (fun c => Text.isAsciiBlank c.toNat) (text.toList.map numeralChar)

/--
Drops the underscores, each of which must stand between two digits. The flag
says whether the character before is a digit.
-/
def dropUnderscores (afterDigit : Bool) : List Char → Option (List Char)
  | [] => some []
  | '_' :: c :: rest =>
    if afterDigit && c.isDigit then (dropUnderscores true rest).map (c :: ·) else none
  | c :: rest => if c = '_' then none else (dropUnderscores c.isDigit rest).map (c :: ·)

/-- Separates a leading sign, true for minus. -/
def signed : List Char → Bool × List Char
  | '-' :: rest => (true, rest)
  | '+' :: rest => (false, rest)
  | text => (false, text)

/-- The value of ASCII digits. -/
def digitsValue (ds : List Char) : Nat :=
  ds.foldl (fun value d => 10 * value + (d.toNat - 0x30)) 0

/-- Reads an integer numeral. -/
def readInt? (text : String) : Option Int := do
  let chars ← dropUnderscores false (numeralChars text)
  let (negative, ds) := signed chars
  if ds.isEmpty || !ds.all Char.isDigit || maxDigits < ds.length then none
  else
    let value : Int := digitsValue ds
    some (if negative then -value else value)

/-- Reads an unsigned decimal fraction with an optional exponent. -/
def readDecimal? (negative : Bool) (chars : List Char) : Option Binary64 :=
  let whole := chars.takeWhile Char.isDigit
  let (part, rest) := match chars.dropWhile Char.isDigit with
    | '.' :: rest => (rest.takeWhile Char.isDigit, rest.dropWhile Char.isDigit)
    | rest => ([], rest)
  let coefficient := digitsValue (whole ++ part)
  if whole.isEmpty && part.isEmpty then none
  else
    match rest with
    | [] => some (.ofDecimal negative coefficient (-part.length))
    | e :: rest =>
      let (down, ds) := signed rest
      if e.toLower != 'e' || ds.isEmpty || !ds.all Char.isDigit then none
      else
        let size : Int := digitsValue ds
        some (.ofDecimal negative coefficient ((if down then -size else size) - part.length))

/-- Reads a numeral of a binary64 number, or one of the words for infinity and undefined. -/
def readFloat? (text : String) : Option Binary64 := do
  let chars ← dropUnderscores false (numeralChars text)
  let (negative, body) := signed chars
  let word := String.ofList (body.map Char.toLower)
  if word == "inf" || word == "infinity" then some (.infinityOf negative)
  else if word == "nan" then some .nan
  else readDecimal? negative body

end HttpBinding.Number
