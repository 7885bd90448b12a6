import HttpBinding.Value

/-!
# The order of values

Some values come before others: numbers by their size, texts and octets by their
characters, tuples by the first place where they differ, and sets that never
change when they are contained in one another. Values of different kinds have no
order, so a list can be put in ascending order only if its values are of a kind.
-/

namespace HttpBinding.Value

mutual

/-- Whether a value comes strictly before another one, if the two have an order. -/
def precedes? : Value → Value → Option Bool
  | text a, text b => some (a < b)
  | octets a, octets b => some (a < b)
  | frozenset a, frozenset b => some (areAmong a b && a.length < b.length)
  | tuple as, tuple bs => precedeInTurn? as bs
  | a, b =>
    match a.quantity?, b.quantity? with
    | some p, some q => some (p.lt q)
    | _, _ => none

/-- Whether values come before others by the first place where they differ. -/
def precedeInTurn? : List Value → List Value → Option Bool
  | _, [] => some false
  | [], _ :: _ => some true
  | a :: as, b :: bs => if sameKey a b then precedeInTurn? as bs else precedes? a b

end

/-- Puts a value behind those of an ascending list that it does not come before. -/
def insert? (value : Value) : List Value → Option (List Value)
  | [] => some [value]
  | first :: rest => do
    if ← precedes? value first then some (value :: first :: rest)
    else (insert? value rest).map (first :: ·)

/-- Values in ascending order, if they have one. -/
def ascending? (values : List Value) : Option (List Value) :=
  values.foldlM (fun sorted value => insert? value sorted) []

end HttpBinding.Value
