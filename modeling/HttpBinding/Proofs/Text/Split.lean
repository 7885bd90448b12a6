import HttpBinding.Text.Split

/-!
# Cutting undoes joining

Pieces without the separator are found again in the text that joins them, and a
piece that is cut off at the first separator is the text before it. The other way
round, no piece that is found holds a separator.
-/

namespace HttpBinding.Text

variable {α : Type}

/-! ## Joining -/

/-- Everything in a joined text comes from the separator or from a piece. -/
theorem mem_intercalate {between : List α} {pieces : List (List α)} {item : α}
    (hitem : item ∈ List.intercalate between pieces) :
    item ∈ between ∨ ∃ piece ∈ pieces, item ∈ piece := by
  induction pieces with
  | nil => cases hitem
  | cons piece rest ih =>
      cases rest with
      | nil =>
          rw [List.intercalate_singleton] at hitem
          exact Or.inr ⟨piece, List.mem_cons_self, hitem⟩
      | cons next rest =>
          rw [List.intercalate_cons_cons, List.append_assoc] at hitem
          rcases List.mem_append.mp hitem with hpiece | hitem
          · exact Or.inr ⟨piece, List.mem_cons_self, hpiece⟩
          rcases List.mem_append.mp hitem with hbetween | hrest
          · exact Or.inl hbetween
          · refine (ih hrest).imp_right ?_
            rintro ⟨other, hother, hmem⟩
            exact ⟨other, List.mem_cons_of_mem _ hother, hmem⟩

theorem mem_intercalate_of_mem {between : List α} {pieces : List (List α)} {piece : List α} {item : α}
    (hpiece : piece ∈ pieces) (hitem : item ∈ piece) : item ∈ List.intercalate between pieces := by
  induction pieces with
  | nil => cases hpiece
  | cons first rest ih =>
      cases rest with
      | nil =>
          rw [List.intercalate_singleton, ← List.mem_singleton.mp hpiece]
          exact hitem
      | cons next rest =>
          rw [List.intercalate_cons_cons]
          rcases List.mem_cons.mp hpiece with rfl | hrest
          · exact List.mem_append_left _ (List.mem_append_left _ hitem)
          · exact List.mem_append_right _ (ih hrest)

theorem intercalate_nil_eq_flatten (pieces : List (List α)) :
    List.intercalate [] pieces = pieces.flatten := by
  induction pieces with
  | nil => rfl
  | cons piece rest ih =>
      cases rest with
      | nil => rw [List.intercalate_singleton, List.flatten_cons, List.flatten_nil, List.append_nil]
      | cons next rest =>
          rw [List.intercalate_cons_cons, List.append_nil, ih]
          rfl

/-- The last piece comes after the joined pieces before it, if there are any. -/
theorem intercalate_concat (between : List α) (pieces : List (List α)) (last : List α) :
    List.intercalate between (pieces ++ [last]) =
      (if pieces = [] then [] else List.intercalate between pieces ++ between) ++ last := by
  induction pieces with
  | nil => simp
  | cons piece rest ih =>
      cases rest with
      | nil => simp [List.intercalate_cons_cons]
      | cons next rest =>
          rw [if_neg (List.cons_ne_nil _ _)] at ih ⊢
          rw [List.cons_append, List.cons_append, List.intercalate_cons_cons, ← List.cons_append, ih,
            List.intercalate_cons_cons]
          simp only [List.append_assoc]

theorem intercalate_concat_inj {between : List α} {pieces : List (List α)} {last last' : List α}
    (heq : List.intercalate between (pieces ++ [last]) = List.intercalate between (pieces ++ [last'])) :
    last = last' := by
  rw [intercalate_concat, intercalate_concat] at heq
  exact List.append_cancel_left heq

theorem intercalate_concat_ne {last : List α} (hlast : last ≠ []) (between : List α)
    (pieces : List (List α)) :
    List.intercalate between (pieces ++ [last]) ≠ List.intercalate between pieces := by
  rw [intercalate_concat]
  split
  next hnone => simpa [hnone] using hlast
  next => simp [hlast]

theorem join_eq_intercalate (between : List α) (pieces : List (List α)) :
    join between pieces = List.intercalate between pieces := by
  induction pieces with
  | nil => rfl
  | cons piece rest ih =>
      cases rest with
      | nil => rw [join, List.intercalate_singleton]
      | cons next rest =>
          rw [List.intercalate_cons_cons, ← ih, join]
          exact List.cons_ne_nil _ _

/-! ## Splitting at every separator -/

variable [DecidableEq α] {sep : α}

theorem splitOn_of_not_mem {items : List α} (hitems : sep ∉ items) :
    splitOn sep items = [items] := by
  induction items with
  | nil => rfl
  | cons item rest ih =>
      obtain ⟨hitem, hrest⟩ := List.ne_and_not_mem_of_not_mem_cons hitems
      rw [splitOn, if_neg (Ne.symm hitem), ih hrest]

theorem splitOn_append (before after : List α) :
    splitOn sep (before ++ sep :: after) = splitOn sep before ++ splitOn sep after := by
  induction before with
  | nil => simp [splitOn]
  | cons item before ih =>
      rw [List.cons_append, splitOn, splitOn, ih]
      split
      · rfl
      · -- The item becomes part of the first piece, which there always is.
        cases hpieces : splitOn sep before with
        | nil => exact absurd hpieces (splitOn_ne_nil sep before)
        | cons first pieces => rfl

/-- Splitting finds the pieces that were joined. -/
theorem splitOn_intercalate {pieces : List (List α)} (hne : pieces ≠ [])
    (hpieces : ∀ piece ∈ pieces, sep ∉ piece) :
    splitOn sep (List.intercalate [sep] pieces) = pieces := by
  induction pieces with
  | nil => exact absurd rfl hne
  | cons piece rest ih =>
      have hpiece := hpieces piece List.mem_cons_self
      cases rest with
      | nil => rw [List.intercalate_singleton, splitOn_of_not_mem hpiece]
      | cons next rest =>
          rw [List.intercalate_cons_cons, List.append_assoc, List.singleton_append,
            splitOn_append, splitOn_of_not_mem hpiece,
            ih (List.cons_ne_nil next rest) fun p hp => hpieces p (List.mem_cons_of_mem _ hp)]
          rfl

/-- A piece without the separator is found again whatever the other pieces hold. -/
theorem mem_splitOn_intercalate {pieces : List (List α)} {piece : List α} (hpiece : piece ∈ pieces)
    (hsep : sep ∉ piece) : piece ∈ splitOn sep (List.intercalate [sep] pieces) := by
  induction pieces with
  | nil => cases hpiece
  | cons first rest ih =>
      cases rest with
      | nil =>
          rw [List.intercalate_singleton, ← List.mem_singleton.mp hpiece, splitOn_of_not_mem hsep]
          exact List.mem_singleton_self piece
      | cons next rest =>
          rw [List.intercalate_cons_cons, List.append_assoc, List.singleton_append, splitOn_append]
          rcases List.mem_cons.mp hpiece with rfl | hrest
          · rw [splitOn_of_not_mem hsep]
            exact List.mem_append_left _ (List.mem_singleton_self piece)
          · exact List.mem_append_right _ (ih hrest)

/-- No piece holds a separator. -/
theorem not_mem_of_mem_splitOn {items piece : List α} (hpiece : piece ∈ splitOn sep items) :
    sep ∉ piece := by
  induction items generalizing piece with
  | nil =>
      rw [List.mem_singleton.mp hpiece]
      exact List.not_mem_nil
  | cons item rest ih =>
      rw [splitOn] at hpiece
      split at hpiece
      · rcases List.mem_cons.mp hpiece with rfl | hrest
        · exact List.not_mem_nil
        · exact ih hrest
      next hitem =>
        split at hpiece
        next hnil => exact absurd hnil (splitOn_ne_nil sep rest)
        next first pieces hpieces =>
          rcases List.mem_cons.mp hpiece with rfl | hmem
          · have hfirst : sep ∉ first := ih (hpieces ▸ List.mem_cons_self)
            intro hmem
            rcases List.mem_cons.mp hmem with heq | hmem
            · exact hitem heq.symm
            · exact hfirst hmem
          · exact ih (hpieces ▸ List.mem_cons_of_mem _ hmem)

/-! ## Cutting at the first separator -/

theorem cut_of_not_mem {items : List α} (hitems : sep ∉ items) : cut sep items = (items, none) := by
  induction items with
  | nil => rfl
  | cons item rest ih =>
      obtain ⟨hitem, hrest⟩ := List.ne_and_not_mem_of_not_mem_cons hitems
      rw [cut, if_neg (Ne.symm hitem), ih hrest]

theorem cut_append {before : List α} (hbefore : sep ∉ before) (after : List α) :
    cut sep (before ++ sep :: after) = (before, some after) := by
  induction before with
  | nil => rw [List.nil_append, cut, if_pos rfl]
  | cons item before ih =>
      obtain ⟨hitem, hbefore⟩ := List.ne_and_not_mem_of_not_mem_cons hbefore
      rw [List.cons_append, cut, if_neg (Ne.symm hitem), ih hbefore]

/-- A beginning without the separator is not cut. -/
theorem prefix_cut_fst {start items : List α} (hstart : start <+: items) (hsep : sep ∉ start) :
    start <+: (cut sep items).1 := by
  induction start generalizing items with
  | nil => exact List.nil_prefix
  | cons item start ih =>
      obtain ⟨rest, rfl⟩ := hstart
      obtain ⟨hitem, hstart⟩ := List.ne_and_not_mem_of_not_mem_cons hsep
      rw [List.cons_append, cut, if_neg (Ne.symm hitem)]
      exact List.cons_prefix_cons.mpr ⟨rfl, ih (List.prefix_append start rest) hstart⟩

end HttpBinding.Text
