import HttpBinding.Charsets
import HttpBinding.Text.Split

/-!
# Common charsets

Four charsets that every run-time system has. A charset is looked up by name,
without regard to case and to the punctuation between the words of the name.
Decoding replaces what a charset cannot read; encoding refuses characters that it
cannot write. A system that has no other charsets is enough to run the library.
-/

namespace HttpBinding

/-- A way to write text as octets. -/
inductive Charset where
  | utf8
  | latin1
  | ascii
  | utf16le
  deriving DecidableEq, Repr

namespace Charset

/-- Whether a character of a charset name counts when names are compared. -/
def isNameChar (c : Char) : Bool :=
  c.isAlphanum || c = '.'

/-- The words of a charset name in lower case, joined by underscores. -/
def normalForm (name : List Char) : String :=
  let words := Text.splitOn ' ' (name.map fun c => if isNameChar c then c.toLower else ' ')
  String.ofList (Text.join ['_'] (words.filter (!·.isEmpty)))

/-- The proper names of the known charsets, in normal form. -/
def properNames : List (String × Charset) :=
  [("utf_8", utf8), ("latin_1", latin1), ("ascii", ascii), ("utf_16_le", utf16le)]

/-- The other names of the known charsets, in normal form. -/
def otherNames : List (String × Charset) :=
  [("utf8", utf8), ("u8", utf8), ("utf", utf8), ("cp65001", utf8), ("utf8_ucs2", utf8),
    ("utf8_ucs4", utf8),
    ("latin1", latin1), ("latin", latin1), ("l1", latin1), ("iso_8859_1", latin1),
    ("iso8859_1", latin1), ("iso8859", latin1), ("8859", latin1), ("iso_8859_1_1987", latin1),
    ("iso_ir_100", latin1), ("cp819", latin1), ("ibm819", latin1), ("csisolatin1", latin1),
    ("us_ascii", ascii), ("us", ascii), ("646", ascii), ("cp367", ascii), ("ibm367", ascii),
    ("csascii", ascii), ("iso646_us", ascii), ("iso_ir_6", ascii), ("ansi_x3.4_1968", ascii),
    ("ansi_x3_4_1968", ascii), ("ansi_x3.4_1986", ascii), ("iso_646.irv_1991", ascii),
    ("utf_16le", utf16le), ("unicodelittleunmarked", utf16le)]

/-- A name with underscores for its points. -/
def withoutPoints (name : String) : String :=
  String.ofList (name.toList.map fun c => if c = '.' then '_' else c)

/-- The charset of a name in normal form. Only in other names points may stand for underscores. -/
def ofNormalForm? (name : String) : Option Charset :=
  ((otherNames.lookup name).or (otherNames.lookup (withoutPoints name))).or
    (properNames.lookup name)

/-- Whether a name has a character that no name can have. -/
def holdsNul (name : String) : Bool :=
  name.toList.contains (Char.ofNat 0)

/-- The charset of a name. -/
def find (name : String) : Except Failure Charset :=
  if holdsNul name then .error (.runtime "ValueError")
  else
    match ofNormalForm? (normalForm name.toList) with
    | some charset => .ok charset
    | none => .error (.runtime "LookupError")

/-- The two octets of a 16-bit unit, the low one first. -/
def unitOctets (unit : Nat) : Octets :=
  [(unit % 0x100).toUInt8, (unit / 0x100).toUInt8]

/-- The octets of a character, if the charset has it. -/
def encodeChar (charset : Charset) (c : Char) : Option Octets :=
  match charset with
  | utf8 => some (Utf8.encodeChar c)
  | latin1 => if c.toNat < 0x100 then some [c.toNat.toUInt8] else none
  | ascii => if c.toNat < 0x80 then some [c.toNat.toUInt8] else none
  | utf16le =>
    if c.toNat < 0x10000 then some (unitOctets c.toNat)
    else
      let offset := c.toNat - 0x10000
      some (unitOctets (0xD800 + offset / 0x400) ++ unitOctets (0xDC00 + offset % 0x400))

/-- The octets of a text, if the charset has all of its characters. -/
def encode? (charset : Charset) (text : List Char) : Option Octets :=
  (text.mapM charset.encodeChar).map List.flatten

/-- The 16-bit unit of a low and a high octet. -/
def unitOf (low high : UInt8) : Nat :=
  low.toNat + high.toNat * 0x100

/-- Whether a 16-bit unit is the first half of a pair. -/
def isFirstHalf (unit : Nat) : Bool :=
  0xD800 ≤ unit && unit < 0xDC00

/-- Whether a 16-bit unit is the second half of a pair. -/
def isSecondHalf (unit : Nat) : Bool :=
  0xDC00 ≤ unit && unit < 0xE000

/-- The character of a pair, if a first half is waiting and the unit is a second half. -/
def joined? (waiting : Option Nat) (unit : Nat) : Option Char :=
  if isSecondHalf unit then
    waiting.map fun first => Char.ofNat (0x10000 + (first - 0xD800) * 0x400 + (unit - 0xDC00))
  else none

/--
Decodes 16-bit units after a first half of a pair, if one is waiting for its
other half. A unit that is half of a pair without its other half, and octets
left over at the end, are replaced by one character each; a half that waits at
the end is replaced together with what is left over.
-/
def decodeUnits (waiting : Option Nat) : Octets → List Char
  | low :: high :: rest =>
    let unit := unitOf low high
    match joined? waiting unit with
    | some c => c :: decodeUnits none rest
    | none =>
      (if waiting.isSome then [Utf8.replacement] else []) ++
        (if isFirstHalf unit then decodeUnits (some unit) rest
        else
          (if isSecondHalf unit then Utf8.replacement else Char.ofNat unit) ::
            decodeUnits none rest)
  | rest => if waiting.isSome || !rest.isEmpty then [Utf8.replacement] else []

/-- Decodes octets, with a replacement for what the charset does not have. -/
def decode (charset : Charset) (octets : Octets) : List Char :=
  match charset with
  | utf8 => Utf8.decode octets
  | latin1 => octets.map fun b => Char.ofNat b.toNat
  | ascii => octets.map fun b => if b.toNat < 0x80 then Char.ofNat b.toNat else Utf8.replacement
  | utf16le => decodeUnits none octets

/-- The text of octets by the charset of a name. Without octets the name need not be known. -/
def decodeNamed (name : String) (octets : Octets) : Except Failure String :=
  if octets.isEmpty && !holdsNul name then .ok ""
  else (find name).map fun charset => String.ofList (charset.decode octets)

/-- The octets of a text by the charset of a name. -/
def encodeNamed (name text : String) : Except Failure Octets := do
  let charset ← find name
  match charset.encode? text.toList with
  | some octets => .ok octets
  | none => .error (.runtime "UnicodeEncodeError")

theorem find_utf8 : find "utf-8" = .ok utf8 := by
  have hname : holdsNul "utf-8" = false := by decide +kernel
  have hnormal : ofNormalForm? (normalForm "utf-8".toList) = some utf8 := by decide +kernel
  unfold find
  rw [hname, hnormal]
  rfl

theorem encode?_utf8 (text : List Char) : utf8.encode? text = some (Utf8.encode text) := by
  have hchars : utf8.encodeChar = fun c => some (Utf8.encodeChar c) := rfl
  unfold encode?
  rw [hchars]
  change Option.map List.flatten (text.mapM fun c => pure (Utf8.encodeChar c)) = _
  rw [List.mapM_pure]
  rfl

theorem decodeNamed_utf8 (octets : Octets) :
    decodeNamed "utf-8" octets = .ok (Utf8.toText octets) := by
  unfold decodeNamed
  rw [find_utf8]
  cases octets with
  | nil =>
      have hname : holdsNul "utf-8" = false := by decide +kernel
      have hnone : Utf8.toText [] = "" := by
        unfold Utf8.toText Utf8.decode
        rw [Utf8.read]
        rfl
      rw [hname, hnone]
      rfl
  | cons b rest => rfl

theorem encodeNamed_utf8 (text : String) :
    encodeNamed "utf-8" text = .ok (Utf8.encode text.toList) := by
  unfold encodeNamed
  rw [find_utf8]
  change (match utf8.encode? text.toList with
    | some octets => Except.ok octets
    | none => .error (Failure.runtime "UnicodeEncodeError")) = _
  rw [encode?_utf8]

end Charset

namespace CommonCharsets

/-- A run-time system that has the common charsets and no others. -/
scoped instance : Charsets where
  decode := Charset.decodeNamed
  encode := Charset.encodeNamed
  decode_utf8 := Charset.decodeNamed_utf8
  encode_utf8 := Charset.encodeNamed_utf8

end CommonCharsets

end HttpBinding
