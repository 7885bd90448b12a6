import HttpBinding.Octets.Percent
import HttpBinding.Text.Quoted

/-!
# Octets in hexadecimal

Octets are written down as text with two lower case digits each. Such text is read
in either case, and blanks may stand around the octets.
-/

namespace HttpBinding.Hex

/-- The digits of octets. -/
def encodeChars (octets : Octets) : List Char :=
  octets.flatMap fun b => Text.hexDigits 2 b.toNat

/-- The text of octets. -/
def encode (octets : Octets) : String :=
  String.ofList (encodeChars octets)

/-- The octets that digits stand for, which must come in pairs. -/
def decodeChars? : List Char → Option Octets
  | [] => some []
  | [c] => if c.isWhitespace then some [] else none
  | a :: b :: rest =>
    if a.isWhitespace then decodeChars? (b :: rest)
    else do
      let high ← Percent.hexValue? a
      let low ← Percent.hexValue? b
      let octets ← decodeChars? rest
      some ((high * 16 + low).toUInt8 :: octets)

/-- The octets that a text stands for. -/
def decode? (text : String) : Option Octets :=
  decodeChars? text.toList

theorem hexValue?_hexDigit {n : Nat} (h : n < 16) : Percent.hexValue? (Text.hexDigit n) = some n :=
  (by decide : ∀ n : Fin 16, Percent.hexValue? (Text.hexDigit n) = some n.val) ⟨n, h⟩

end HttpBinding.Hex
