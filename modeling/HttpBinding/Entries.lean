/-!
# Ordered entries

A mapping whose order is part of its meaning is a list of pairs with distinct
keys. Putting a key that is present replaces its value in place; a new key goes
to the end.
-/

namespace HttpBinding

/-- Pairs of a key and a value in order of insertion. -/
abbrev Entries (α β : Type) := List (α × β)

namespace Entries

variable {α β : Type} [DecidableEq α]

/-- Sets the value of a key, in place if the key is present and at the end otherwise. -/
def put (key : α) (value : β) : Entries α β → Entries α β
  | [] => [(key, value)]
  | (k, v) :: rest => if k = key then (key, value) :: rest else (k, v) :: put key value rest

/-- Puts pairs one after another: a repeated key keeps its first place and its last value. -/
def ofPairs (pairs : List (α × β)) : Entries α β :=
  pairs.foldl (fun entries pair => entries.put pair.1 pair.2) []

/-- Appends to the list that a key holds; a key that is absent is added at the end. -/
def extend {γ : Type} (key : α) (values : List γ) : Entries α (List γ) → Entries α (List γ)
  | [] => [(key, values)]
  | (k, v) :: rest =>
    if k = key then (k, v ++ values) :: rest else (k, v) :: extend key values rest

/-- Removes the first entry with a key. -/
def erase (key : α) : Entries α β → Entries α β
  | [] => []
  | (k, v) :: rest => if k = key then rest else (k, v) :: erase key rest

/-- The keys in order. -/
def keys (entries : Entries α β) : List α :=
  entries.map Prod.fst

theorem keys_put (key : α) (value : β) (entries : Entries α β) :
    (entries.put key value).keys =
      if key ∈ entries.keys then entries.keys else entries.keys ++ [key] := by
  induction entries with
  | nil => simp [put, keys]
  | cons entry rest ih =>
    obtain ⟨k, v⟩ := entry
    by_cases h : k = key
    · simp [put, keys, h]
    · have ih' : List.map Prod.fst (put key value rest) = if key ∈ List.map Prod.fst rest then
          List.map Prod.fst rest else List.map Prod.fst rest ++ [key] := ih
      simp only [put, h, if_false, keys, List.map_cons, ih', List.mem_cons, Ne.symm h, false_or]
      split <;> simp

theorem keys_extend {γ : Type} (key : α) (values : List γ) (entries : Entries α (List γ)) :
    (entries.extend key values).keys =
      if key ∈ entries.keys then entries.keys else entries.keys ++ [key] := by
  induction entries with
  | nil => simp [extend, keys]
  | cons entry rest ih =>
    obtain ⟨k, v⟩ := entry
    by_cases h : k = key
    · simp [extend, keys, h]
    · have ih' : List.map Prod.fst (extend key values rest) = if key ∈ List.map Prod.fst rest then
          List.map Prod.fst rest else List.map Prod.fst rest ++ [key] := ih
      simp only [extend, h, if_false, keys, List.map_cons, ih', List.mem_cons, Ne.symm h, false_or]
      split <;> simp

end Entries

end HttpBinding
