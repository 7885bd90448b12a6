/-!
# Cutting text at a separator

`cut` divides at the first separator, `splitOn` at every one, and `join` puts
pieces together again. All three work on lists, so that they serve text and
octets alike.
-/

namespace HttpBinding.Text

variable {α : Type} [DecidableEq α]

/--
The items before the first separator, and those after it when there is one.
-/
def cut (sep : α) : List α → List α × Option (List α)
  | [] => ([], none)
  | item :: rest =>
    if item = sep then ([], some rest)
    else
      let (before, after) := cut sep rest
      (item :: before, after)

/-- The pieces between separators; there is one more piece than there are separators. -/
def splitOn (sep : α) : List α → List (List α)
  | [] => [[]]
  | item :: rest =>
    if item = sep then [] :: splitOn sep rest
    else
      match splitOn sep rest with
      | [] => [[item]]
      | piece :: pieces => (item :: piece) :: pieces

/-- The pieces with a separating text between each two. -/
def join (sep : List α) : List (List α) → List α
  | [] => []
  | [piece] => piece
  | piece :: pieces => piece ++ sep ++ join sep pieces

@[simp]
theorem splitOn_ne_nil (sep : α) (items : List α) : splitOn sep items ≠ [] := by
  induction items with
  | nil => simp [splitOn]
  | cons item rest ih =>
    simp only [splitOn]
    split
    · simp
    · split <;> simp

theorem cut_fst_append (sep : α) (items : List α) :
    (cut sep items).1 ++ (match (cut sep items).2 with
      | none => []
      | some rest => sep :: rest) = items := by
  induction items with
  | nil => rfl
  | cons item rest ih =>
    by_cases h : item = sep
    · simp [cut, h]
    · simpa [cut, h] using ih

theorem not_mem_cut_fst (sep : α) (items : List α) : sep ∉ (cut sep items).1 := by
  induction items with
  | nil => simp [cut]
  | cons item rest ih =>
    by_cases h : item = sep
    · simp [cut, h]
    · simp [cut, h, ih, Ne.symm h]

/-- Joining the pieces with the separator gives the items back. -/
theorem join_splitOn (sep : α) (items : List α) : join [sep] (splitOn sep items) = items := by
  induction items with
  | nil => rfl
  | cons item rest ih =>
    have hne := splitOn_ne_nil sep rest
    by_cases h : item = sep
    · subst h
      simp only [splitOn, if_true]
      cases hs : splitOn item rest with
      | nil => exact absurd hs hne
      | cons piece pieces => simpa [join, hs] using ih
    · simp only [splitOn, h, if_false]
      cases hs : splitOn sep rest with
      | nil => exact absurd hs hne
      | cons piece pieces =>
        rw [hs] at ih
        cases pieces <;> simp_all [join]

end HttpBinding.Text
