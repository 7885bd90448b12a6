import HttpBinding.Proofs.Text.Split

/-!
# Splitting around a longer mark

A mark of several characters is looked for from left to right, and one that is found is
passed over as a whole. Joined pieces are found again as long as no mark begins in a piece,
neither in the piece alone nor with what follows it.
-/

namespace HttpBinding.Text

variable {α : Type}

/-- An item in front of the first piece. -/
def consFirst (item : α) : List (List α) → List (List α)
  | [] => [[item]]
  | piece :: pieces => (item :: piece) :: pieces

/-- No mark begins in a text, whatever comes after it. -/
inductive IsFree (mark : List α) : List α → Prop where
  | nil : IsFree mark []
  | cons {item : α} {rest : List α} (hitem : ∀ after, ¬ mark <+: item :: rest ++ after)
      (hrest : IsFree mark rest) : IsFree mark (item :: rest)

section Free

variable {mark items later : List α}

theorem IsFree.append (hitems : IsFree mark items) (hlater : IsFree mark later) :
    IsFree mark (items ++ later) := by
  induction hitems with
  | nil => exact hlater
  | @cons item rest hitem _ ih =>
      refine .cons (fun after => ?_) ih
      have hassoc : item :: (rest ++ later) ++ after = item :: rest ++ (later ++ after) := by simp
      exact hassoc ▸ hitem (later ++ after)

theorem IsFree.flatMap {β : Type} {f : β → List α} {sources : List β}
    (hfree : ∀ source ∈ sources, IsFree mark (f source)) : IsFree mark (sources.flatMap f) := by
  induction sources with
  | nil => exact .nil
  | cons source rest ih =>
      obtain ⟨hsource, hrest⟩ := List.forall_mem_cons.mp hfree
      rw [List.flatMap_cons]
      exact hsource.append (ih hrest)

/-- A mark begins with its first item or not at all. -/
theorem isFree_of_not_mem {first : α} {more : List α} (hitems : first ∉ items) :
    IsFree (first :: more) items := by
  induction items with
  | nil => exact .nil
  | cons item rest ih =>
      obtain ⟨hitem, hrest⟩ := List.ne_and_not_mem_of_not_mem_cons hitems
      exact .cons (fun after hbegins => hitem (List.cons_prefix_cons.mp hbegins).1) (ih hrest)

end Free

variable [DecidableEq α]

/-- The pieces between marks, behind a number of items that belong to a mark before them. -/
def splitAfter (mark : List α) : Nat → List α → List (List α)
  | _, [] => [[]]
  | skipped + 1, _ :: rest => splitAfter mark skipped rest
  | 0, item :: rest =>
    if mark.isPrefixOf (item :: rest) then [] :: splitAfter mark (mark.length - 1) rest
    else consFirst item (splitAfter mark 0 rest)

/-- The pieces between the marks of a text. A mark is not empty. -/
def splitAround (mark items : List α) : List (List α) :=
  splitAfter mark 0 items

variable {mark items : List α}

theorem splitAfter_append (skipped rest : List α) :
    splitAfter mark skipped.length (skipped ++ rest) = splitAround mark rest := by
  induction skipped with
  | nil => rfl
  | cons item skipped ih => exact ih

theorem splitAround_cons_of_other {item : α} {rest : List α} (hitem : ¬ mark <+: item :: rest) :
    splitAround mark (item :: rest) = consFirst item (splitAround mark rest) := by
  unfold splitAround
  rw [splitAfter, if_neg (mt List.isPrefixOf_iff_prefix.mp hitem)]

theorem splitAround_of_free (hfree : IsFree mark items) : splitAround mark items = [items] := by
  induction hfree with
  | nil => rfl
  | @cons item rest hitem _ ih =>
      have hother : ¬ mark <+: item :: rest := by simpa using hitem []
      rw [splitAround_cons_of_other hother, ih]
      rfl

/-- The first mark is found behind the first piece. -/
theorem splitAround_append (hfree : IsFree mark items) (hmark : mark ≠ []) (rest : List α) :
    splitAround mark (items ++ (mark ++ rest)) = items :: splitAround mark rest := by
  induction hfree with
  | nil =>
      cases mark with
      | nil => exact absurd rfl hmark
      | cons first more =>
          have hbegins : (first :: more).isPrefixOf (first :: (more ++ rest)) = true :=
            List.isPrefixOf_iff_prefix.mpr (List.prefix_append (first :: more) rest)
          rw [List.nil_append, List.cons_append, splitAround, splitAfter, if_pos hbegins]
          exact congrArg ([] :: ·) (splitAfter_append more rest)
  | @cons item items hitem _ ih =>
      have hother : ¬ mark <+: item :: (items ++ (mark ++ rest)) := hitem (mark ++ rest)
      rw [List.cons_append, splitAround_cons_of_other hother, ih]
      rfl

/-- Splitting around a mark finds the pieces that were joined by it. -/
theorem splitAround_intercalate {pieces : List (List α)} (hne : pieces ≠ []) (hmark : mark ≠ [])
    (hfree : ∀ piece ∈ pieces, IsFree mark piece) :
    splitAround mark (List.intercalate mark pieces) = pieces := by
  induction pieces with
  | nil => exact absurd rfl hne
  | cons piece rest ih =>
      obtain ⟨hpiece, hrest⟩ := List.forall_mem_cons.mp hfree
      cases rest with
      | nil => rw [List.intercalate_singleton, splitAround_of_free hpiece]
      | cons next rest =>
          rw [List.intercalate_cons_cons, List.append_assoc, splitAround_append hpiece hmark,
            ih (List.cons_ne_nil next rest) hrest]

example : splitAround ['a', 'a'] ['x', 'a', 'a', 'a'] = [['x'], ['a']] := by decide

end HttpBinding.Text
