import HttpBinding.Number.Rounding

/-!
# Binary64 numbers

The magnitudes of the binary64 format are numbered upward from zero, and the
number of a magnitude is its code: the codes below `2 ^ 53` are the magnitudes
counted in units of the smallest positive one, `2⁻¹⁰⁷⁴`, and every `2 ^ 52`
codes after that the step doubles. The code after the largest finite magnitude
is infinity. Order on codes is order on magnitudes, so rounding a quotient is
choosing a code. All arithmetic is exact on natural numbers of units and
rounds once, to nearest, a half to the even code.
-/

namespace HttpBinding

namespace Binary64

/-- The number of codes, `2 ^ 52`, after which the step between magnitudes doubles. -/
def codesPerStep : Nat := 0x10000000000000

/-- The code of infinity. -/
def infinityCode : Nat := 2047 * codesPerStep

/-- The number of units in one. -/
def unitsInOne : Nat := 1 <<< 1074

/-- The magnitude of a code, in units. -/
def unitsOf (code : Nat) : Nat :=
  if code < codesPerStep then code
  else (codesPerStep + code % codesPerStep) <<< (code / codesPerStep - 1)

/-- The code nearest to `num / den` units, with a rounding of halves left open. -/
def nearestCodeBy (round : Nat → Nat → Nat) (num den : Nat) : Nat :=
  let whole := num / den
  let shift := whole.log2 - 52
  min infinityCode (round num (den <<< shift) + shift * codesPerStep)

/-- The code nearest to `num / den` units. -/
def nearestCode (num den : Nat) : Nat :=
  nearestCodeBy Number.nearestEven num den

theorem nearestCodeBy_le (round : Nat → Nat → Nat) (num den : Nat) :
    nearestCodeBy round num den ≤ infinityCode :=
  Nat.min_le_left _ _

end Binary64

/-- A binary64 number: not a number, or a sign and the code of a magnitude. -/
inductive Binary64 where
  | nan
  | signed (negative : Bool) (code : Nat) (code_le : code ≤ Binary64.infinityCode)
  deriving DecidableEq, Repr

namespace Binary64

/-- The number nearest to `num / den` units. -/
def ofUnits (negative : Bool) (num den : Nat) : Binary64 :=
  .signed negative (nearestCode num den) (nearestCodeBy_le _ _ _)

/-- Zero, with the given sign. -/
def zeroOf (negative : Bool) : Binary64 :=
  .signed negative 0 (Nat.zero_le _)

/-- Infinity, with the given sign. -/
def infinityOf (negative : Bool) : Binary64 :=
  .signed negative infinityCode (Nat.le_refl _)

/-- Whether a number is neither infinite nor undefined. -/
def isFinite : Binary64 → Bool
  | nan => false
  | signed _ code _ => code != infinityCode

/-- Whether a number is not a number. -/
def isNaN : Binary64 → Bool
  | nan => true
  | signed .. => false

/-- The number nearest to `num / den`. -/
def ofRatio (negative : Bool) (num den : Nat) : Binary64 :=
  ofUnits negative (num * unitsInOne) den

/-- The number nearest to an integer. -/
def ofInt (n : Int) : Binary64 :=
  ofRatio (n < 0) n.natAbs 1

/-- The number nearest to an integer, unless that is infinite. -/
def ofInt? (n : Int) : Option Binary64 :=
  if (ofInt n).isFinite then some (ofInt n) else none

/-- The units of a finite number, with its sign. -/
def units (negative : Bool) (code : Nat) : Int :=
  if negative then -(unitsOf code : Int) else unitsOf code

/--
The place of a number in the order of all numbers; infinities are beyond every
finite number, and both zeros are at one place. Undefined numbers have none.
-/
def rank? : Binary64 → Option Int
  | nan => none
  | signed negative code _ => some (if negative then -(code : Int) else code)

/-- Whether one number is less than another; false when one is undefined. -/
def lt (a b : Binary64) : Bool :=
  match a.rank?, b.rank? with
  | some x, some y => x < y
  | _, _ => false

/-- Whether one number is at most another; false when one is undefined. -/
def le (a b : Binary64) : Bool :=
  match a.rank?, b.rank? with
  | some x, some y => x ≤ y
  | _, _ => false

/-- Whether two numbers are equal as numbers: zeros of both signs are, undefined numbers never. -/
def same (a b : Binary64) : Bool :=
  match a.rank?, b.rank? with
  | some x, some y => x == y
  | _, _ => false

/-- Compares with an integer exactly. `none` when the number is undefined. -/
def compareInt (a : Binary64) (n : Int) : Option Ordering :=
  match a with
  | nan => none
  | signed negative code _ =>
    if code = infinityCode then some (if negative then .lt else .gt)
    else some (compare (units negative code) (n * unitsInOne))

/-- The first number, unless the second is less. -/
def least (a b : Binary64) : Binary64 :=
  if b.lt a then b else a

/-- The first number, unless the second is greater. -/
def greatest (a b : Binary64) : Binary64 :=
  if a.lt b then b else a

/-- The number with the opposite sign. -/
def neg : Binary64 → Binary64
  | nan => nan
  | signed negative code h => signed (!negative) code h

/-- The sum, rounded. Infinities of opposite signs have no sum. -/
def add : Binary64 → Binary64 → Binary64
  | nan, _ => nan
  | _, nan => nan
  | signed sa a _, signed sb b _ =>
    if a = infinityCode then
      if b = infinityCode && sa != sb then nan else infinityOf sa
    else if b = infinityCode then infinityOf sb
    else
      let sum := units sa a + units sb b
      if sum = 0 then zeroOf (sa && sb) else ofUnits (sum < 0) sum.natAbs 1

/-- The product, rounded. Zero times infinity is undefined. -/
def mul : Binary64 → Binary64 → Binary64
  | nan, _ => nan
  | _, nan => nan
  | signed sa a _, signed sb b _ =>
    let negative := sa != sb
    if a = infinityCode || b = infinityCode then
      if a = 0 || b = 0 then nan else infinityOf negative
    else ofUnits negative (unitsOf a * unitsOf b) unitsInOne

/-- The quotient of two integers, rounded. -/
def ofQuotient (num : Int) (den : Nat) : Binary64 :=
  ofRatio (num < 0) num.natAbs den

/--
The power `1.5 ^ n`, correctly rounded to nearest with a half going up, or nothing
when it is beyond every finite number. A run-time system whose powers are not
correctly rounded can differ from it in the last place.
-/
def powThreeHalves? (n : Nat) : Option Binary64 :=
  let code := nearestCodeBy Number.nearestUp (Nat.pow 3 n * unitsInOne) (1 <<< n)
  if h : code < infinityCode then some (.signed false code (Nat.le_of_lt h)) else none

end Binary64

end HttpBinding
