/-!
# UTF-8

Encoding takes each character to its one to four octets. Decoding reads one
character at a time; where the octets are not UTF-8 it gives up the longest
start of a character it has seen and goes on after it. The lenient decoder
puts the replacement character in the place of each such start, and the strict
one refuses the octets.
-/

namespace HttpBinding

/-- A sequence of octets. -/
abbrev Octets := List UInt8

namespace Utf8

/-- The octets of a character. -/
def encodeChar (c : Char) : Octets :=
  let n := c.toNat
  if n < 0x80 then [n.toUInt8]
  else if n < 0x800 then [(0xC0 + n / 0x40).toUInt8, (0x80 + n % 0x40).toUInt8]
  else if n < 0x10000 then
    [(0xE0 + n / 0x1000).toUInt8, (0x80 + n / 0x40 % 0x40).toUInt8, (0x80 + n % 0x40).toUInt8]
  else
    [(0xF0 + n / 0x40000).toUInt8, (0x80 + n / 0x1000 % 0x40).toUInt8,
      (0x80 + n / 0x40 % 0x40).toUInt8, (0x80 + n % 0x40).toUInt8]

/-- The octets of a text. -/
def encode (text : List Char) : Octets :=
  text.flatMap encodeChar

/-- The octets of a string. -/
def ofString (text : String) : Octets :=
  encode text.toList

/-- The character that stands for octets that are not UTF-8. -/
def replacement : Char := Char.ofNat 0xFFFD

/-- Whether an octet continues a character. -/
def isTail (b : UInt8) : Bool :=
  0x80 ≤ b.toNat && b.toNat < 0xC0

/--
Whether an octet may follow a leading octet: a tail, narrowed after four leads
so that no character has two encodings and none is a surrogate or too large.
-/
def isSecond (lead second : UInt8) : Bool :=
  isTail second &&
    (if lead.toNat = 0xE0 then 0xA0 ≤ second.toNat
    else if lead.toNat = 0xED then second.toNat < 0xA0
    else if lead.toNat = 0xF0 then 0x90 ≤ second.toNat
    else if lead.toNat = 0xF4 then second.toNat < 0x90
    else true)

/-- The six payload bits of a tail. -/
def tailBits (b : UInt8) : Nat :=
  b.toNat % 0x40

/--
Reads the character that a leading octet opens from the octets after it. Gives
the character, or nothing, and the octets that were not used.
-/
def readChar (lead : UInt8) (rest : Octets) : Option Char × Octets :=
  let n := lead.toNat
  if n < 0x80 then (some (Char.ofNat n), rest)
  else if n < 0xC2 then (none, rest)
  else if n < 0xE0 then
    match rest with
    | b :: rest' =>
      if isTail b then (some (Char.ofNat (n % 0x20 * 0x40 + tailBits b)), rest') else (none, rest)
    | [] => (none, rest)
  else if n < 0xF0 then
    match rest with
    | b :: rest' =>
      if isSecond lead b then
        match rest' with
        | c :: rest'' =>
          if isTail c then
            (some (Char.ofNat (n % 0x10 * 0x1000 + tailBits b * 0x40 + tailBits c)), rest'')
          else (none, rest')
        | [] => (none, rest')
      else (none, rest)
    | [] => (none, rest)
  else if n < 0xF5 then
    match rest with
    | b :: rest' =>
      if isSecond lead b then
        match rest' with
        | c :: rest'' =>
          if isTail c then
            match rest'' with
            | d :: rest''' =>
              if isTail d then
                (some (Char.ofNat (n % 0x8 * 0x40000 + tailBits b * 0x1000 + tailBits c * 0x40
                  + tailBits d)), rest''')
              else (none, rest'')
            | [] => (none, rest'')
          else (none, rest')
        | [] => (none, rest')
      else (none, rest)
    | [] => (none, rest)
  else (none, rest)

theorem readChar_length_le (lead : UInt8) (rest : Octets) :
    (readChar lead rest).2.length ≤ rest.length := by
  simp only [readChar]
  repeat' split
  all_goals simp_all
  all_goals omega

/--
The characters of a sequence of octets, and nothing in the place of each start
of a character that is not continued.
-/
def read : Octets → List (Option Char)
  | [] => []
  | lead :: rest => (readChar lead rest).1 :: read (readChar lead rest).2
termination_by octets => octets.length
decreasing_by
  have := readChar_length_le lead rest
  simp only [List.length_cons]
  omega

/-- Decodes octets, replacing what is not UTF-8. -/
def decode (octets : Octets) : List Char :=
  (read octets).map (·.getD replacement)

/-- Decodes octets that are UTF-8 throughout. -/
def decode? (octets : Octets) : Option (List Char) :=
  (read octets).mapM id

/-- The string that octets encode, with replacements. -/
def toText (octets : Octets) : String :=
  String.ofList (decode octets)

end Utf8

end HttpBinding
