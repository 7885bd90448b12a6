import HttpBinding.Number.Binary64

/-!
# Decimal text of binary64 numbers

The digits chosen for a number are the fewest that round back to it and, among
those, the nearest to it. Where the decimal point goes, and from where on an
exponent is written, is a `DecimalLayout`; there is one for text and one for
JSON. Reading a decimal is exact: a coefficient and a power of ten are rounded
once.
-/

namespace HttpBinding

namespace Number

/-- The decimal digits of a natural number, most significant first. -/
def digits (n : Nat) : List Char :=
  Nat.toDigits 10 n

/-- A natural number in decimal. -/
def natText (n : Nat) : String :=
  String.ofList (digits n)

/-- An integer in decimal. -/
def intText (n : Int) : String :=
  if n < 0 then "-" ++ natText n.natAbs else natText n.natAbs

/-- Drops the zeros at the end of a coefficient, counting them. -/
def stripZeros (fuel coefficient : Nat) (exponent : Int) : Nat × Int :=
  match fuel with
  | 0 => (coefficient, exponent)
  | fuel + 1 =>
    if coefficient != 0 && coefficient % 10 == 0 then
      stripZeros fuel (coefficient / 10) (exponent + 1)
    else (coefficient, exponent)

end Number

namespace Binary64

open Number

/-- `10 ^ p` units of a decimal grid, as a fraction of binary units. -/
def gridStep (p : Int) : Nat × Nat :=
  if 0 ≤ p then (Nat.pow 10 p.toNat * unitsInOne, 1) else (unitsInOne, Nat.pow 10 (-p).toNat)

/--
Whether `coefficient · 10 ^ p` rounds to a positive finite code: it lies between
the midpoints to the two neighbouring codes, which count as inside when the
code is even.
-/
def roundsTo (code coefficient : Nat) (p : Int) : Bool :=
  let (num, den) := gridStep p
  let twice := 2 * coefficient * num
  let low := (unitsOf (code - 1) + unitsOf code) * den
  let high := (unitsOf code + unitsOf (code + 1)) * den
  if code % 2 == 0 then low ≤ twice && twice ≤ high else low < twice && twice < high

/-- The exponent of the leading decimal digit of a positive magnitude. -/
def leadingExponent (code : Nat) : Int :=
  ((digits (unitsOf code * Nat.pow 10 400 / unitsInOne)).length : Int) - 401

/-- The grid point with exponent `p` that is nearest to a magnitude among those that round to it. -/
def nearestOnGrid? (code : Nat) (p : Int) : Option Nat :=
  let (num, den) := gridStep p
  let value := unitsOf code * den
  let floor := value / num
  let lowFits := roundsTo code floor p
  let highFits := roundsTo code (floor + 1) p
  match lowFits, highFits with
  | true, true => some (nearestEven value num)
  | true, false => some floor
  | false, true => some (floor + 1)
  | false, false => none

/-- Searches grids with ever more digits. -/
def shortestFrom (code : Nat) (fuel : Nat) (p : Int) : Nat × Int :=
  match fuel with
  | 0 => (nearestEven (unitsOf code * (gridStep p).2) (gridStep p).1, p)
  | fuel + 1 =>
    match nearestOnGrid? code p with
    | some coefficient => (coefficient, p)
    | none => shortestFrom code fuel (p - 1)

/-- The shortest decimal that rounds to a positive finite code, as coefficient and power of ten. -/
def shortest (code : Nat) : Nat × Int :=
  let (coefficient, p) := shortestFrom code 16 (leadingExponent code)
  stripZeros 20 coefficient p

/-- How the digits of a number are laid out. -/
structure DecimalLayout where
  /-- The least exponent written with leading zeros. -/
  leastPositional : Int
  /-- The first exponent that is too large for positional notation. -/
  firstScientific : Int
  /-- Whether a positive exponent has a sign. -/
  plusSign : Bool
  /-- The least number of digits of an exponent. -/
  exponentDigits : Nat

/-- Text is positional from `1e-4` to below `1e16`; exponents have a sign and two digits. -/
def textLayout : DecimalLayout := ⟨-4, 16, true, 2⟩

/-- JSON is positional from `1e-5` to below `1e16`; exponents have a sign and two digits. -/
def jsonLayout : DecimalLayout := ⟨-5, 16, true, 2⟩

/-- Lays out the digits of a coefficient whose first digit has the given exponent. -/
def DecimalLayout.write (layout : DecimalLayout) (ds : List Char) (lead : Int) : List Char :=
  if layout.leastPositional ≤ lead && lead < layout.firstScientific then
    if lead < 0 then
      ['0', '.'] ++ List.replicate (-lead - 1).toNat '0' ++ ds
    else
      let whole := lead.toNat + 1
      let padded := ds ++ List.replicate (whole + 1 - ds.length) '0'
      padded.take whole ++ ['.'] ++ padded.drop whole
  else
    let mantissa := match ds with
      | d :: e :: rest => d :: '.' :: e :: rest
      | short => short
    let size := digits lead.natAbs
    let padding := List.replicate (layout.exponentDigits - size.length) '0'
    let sign := if lead < 0 then ['-'] else if layout.plusSign then ['+'] else []
    mantissa ++ ['e'] ++ sign ++ padding ++ size

/-- A finite number with the shortest digits, in a layout. -/
def DecimalLayout.number (layout : DecimalLayout) (negative : Bool) (code : Nat) : String :=
  let sign := if negative then ['-'] else []
  let body :=
    if code = 0 then ['0', '.', '0']
    else
      let (coefficient, p) := shortest code
      let ds := digits coefficient
      layout.write ds (p + ds.length - 1)
  String.ofList (sign ++ body)

/-- The text of a number. -/
def text : Binary64 → String
  | nan => "nan"
  | signed negative code _ =>
    if code = infinityCode then (if negative then "-inf" else "inf")
    else textLayout.number negative code

/-- The number in JSON, which has no word for infinity or for what is not a number. -/
def json : Binary64 → String
  | nan => "null"
  | signed negative code _ =>
    if code = infinityCode then "null" else jsonLayout.number negative code

/-- The number with a fixed count of places, a half going to the even last digit. -/
def fixed (places : Nat) : Binary64 → String
  | nan => "nan"
  | signed negative code _ =>
    let sign := if negative then "-" else ""
    if code = infinityCode then sign ++ "inf"
    else
      let scaled := nearestEven (unitsOf code * Nat.pow 10 places) unitsInOne
      let whole := natText (scaled / Nat.pow 10 places)
      let part := digits (scaled % Nat.pow 10 places)
      let padded := List.replicate (places - part.length) '0' ++ part
      sign ++ whole ++ "." ++ String.ofList padded

/--
The number nearest to `coefficient · 10 ^ exponent`. Exponents far outside the
range of the format are decided without computing the power.
-/
def ofDecimal (negative : Bool) (coefficient : Nat) (exponent : Int) : Binary64 :=
  if coefficient = 0 then zeroOf negative
  else
    let lead := exponent + (digits coefficient).length
    if 400 < lead then infinityOf negative
    else if lead < -400 then zeroOf negative
    else if 0 ≤ exponent then ofRatio negative (coefficient * Nat.pow 10 exponent.toNat) 1
    else ofRatio negative coefficient (Nat.pow 10 (-exponent).toNat)

end Binary64

end HttpBinding
