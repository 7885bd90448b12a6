import HttpBinding.Number.Decimal

/-!
# Quantities

A quantity is a number of one of three kinds: a truth value that counts as zero
or one, a whole number of any size, or a binary64 number. Quantities of all kinds
are compared exactly, by the number that they are; the smaller and the greater of
two keep their kind.
-/

namespace HttpBinding

/-- A number of one of three kinds. -/
inductive Quantity where
  | truth (b : Bool)
  | whole (n : Int)
  | real (x : Binary64)
  deriving DecidableEq, Repr

namespace Quantity

/-- A truth value as a number. -/
def ofTruth (b : Bool) : Int :=
  if b then 1 else 0

/-- Compares an integer with a quantity. -/
def compareWhole (n : Int) : Quantity → Option Ordering
  | truth b => some (compare n (ofTruth b))
  | whole m => some (compare n m)
  | real x => (x.compareInt n).map Ordering.swap

/-- Compares a binary64 number with a quantity. -/
def compareReal (x : Binary64) : Quantity → Option Ordering
  | truth b => x.compareInt (ofTruth b)
  | whole m => x.compareInt m
  | real y =>
    match x.rank?, y.rank? with
    | some a, some b => some (compare a b)
    | _, _ => none

/-- Compares two quantities. There is no order when one of them is undefined. -/
def compare? : Quantity → Quantity → Option Ordering
  | truth b, q => compareWhole (ofTruth b) q
  | whole n, q => compareWhole n q
  | real x, q => compareReal x q

/-- Whether a quantity is less than another one. -/
def lt (a b : Quantity) : Bool :=
  a.compare? b == some .lt

/-- Whether a quantity is at most another one. -/
def le (a b : Quantity) : Bool :=
  match a.compare? b with
  | some order => order != .gt
  | none => false

/-- The first quantity, unless the second is less. -/
def least (a b : Quantity) : Quantity :=
  if b.lt a then b else a

/-- The first quantity, unless the second is greater. -/
def greatest (a b : Quantity) : Quantity :=
  if a.lt b then b else a

/-- The binary64 number nearest to a quantity, unless a whole number is too large for one. -/
def toReal? : Quantity → Option Binary64
  | truth b => some (.ofInt (ofTruth b))
  | whole n => Binary64.ofInt? n
  | real x => some x

/-- The text of a quantity. -/
def text : Quantity → String
  | truth b => if b then "True" else "False"
  | whole n => Number.intText n
  | real x => x.text

/-- A quantity with a fixed count of places. -/
def fixed (places : Nat) (q : Quantity) : String :=
  (q.toReal?.getD (.infinityOf false)).fixed places

end Quantity

end HttpBinding
