import HttpBinding.Text.CodeRanges

/-!
# Blanks

The blanks that trimming removes: the separators of Unicode together with the
control characters that move the cursor or separate records. Octet sequences
have a smaller set of blanks, all of them ASCII.
-/

namespace HttpBinding.Text

/-- The blank characters. -/
def blankRanges : CodeRanges :=
  [(0x9, 0xD), (0x1C, 0x20), (0x85, 0x85), (0xA0, 0xA0), (0x1680, 0x1680), (0x2000, 0x200A),
   (0x2028, 0x2029), (0x202F, 0x202F), (0x205F, 0x205F), (0x3000, 0x3000)]

/-- Whether trimming removes a character. -/
def isBlank (c : Char) : Bool :=
  blankRanges.holds c

/-- The ASCII blanks: tab, line feed, vertical tab, form feed, carriage return, space. -/
def isAsciiBlank (code : Nat) : Bool :=
  code == 0x20 || (0x09 ≤ code && code ≤ 0x0D)

/-- Removes what `drop` holds of from both ends. -/
def trimBy {α : Type} (drop : α → Bool) (items : List α) : List α :=
  ((items.dropWhile drop).reverse.dropWhile drop).reverse

/-- Removes the blanks at both ends. -/
def trim (text : List Char) : List Char :=
  trimBy isBlank text

end HttpBinding.Text
