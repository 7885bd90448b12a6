import HttpBinding.Proofs.Template.Filling

/-!
# Marks in filled texts

What separates the parts of an address is a mark that no placeholder can hold. So a text
falls into the same parts at its marks before and after it is filled, with each part filled
on its own, unless a value brings in a mark of its own. Encoding keeps values from doing so;
where a text is filled with values as they are, it depends on their characters alone.
-/

namespace HttpBinding

/-- A character that neither stands in a placeholder nor between the texts of a list. -/
structure IsMark (mark : Char) : Prop where
  name : Piece.isNameChar mark = false
  opens : mark ≠ '{'
  closes : mark ≠ '}'
  between : mark ≠ ','

/-- A text is filled part by part, where the parts are what stands between its marks. -/
def FillsParts (mark : Char) (bindings : Bindings) (encode : String → String)
    (text filled : String) : Prop :=
  List.Forall₂
    (fun part filledPart =>
      fill bindings encode (String.ofList part) = .ok (String.ofList filledPart))
    (Text.splitOn mark text.toList) (Text.splitOn mark filled.toList)

section Marks

variable {mark : Char} (hmark : IsMark mark) {bindings : Bindings} {encode : String → String}

include hmark

theorem toList_filledText_append_cons (before after : List Char) :
    (filledText bindings encode (String.ofList (before ++ mark :: after))).toList =
      (filledText bindings encode (String.ofList before)).toList ++
        mark :: (filledText bindings encode (String.ofList after)).toList := by
  simp only [toList_filledText, piecesOf, String.toList_ofList,
    Piece.ofChars_append_cons hmark.name hmark.opens hmark.closes, List.flatMap_append,
    List.flatMap_cons]
  simp only [pieceText, String.toList_ofList, List.singleton_append]

theorem literal_mem_piecesOf_iff {text : String} : .literal mark ∈ piecesOf text ↔ mark ∈ text.toList := by
  refine ⟨mem_toList_of_literal, fun hmem => ?_⟩
  obtain ⟨before, after, htext⟩ := List.append_of_mem hmem
  unfold piecesOf
  rw [htext, Piece.ofChars_append_cons hmark.name hmark.opens hmark.closes]
  exact List.mem_append_right _ List.mem_cons_self

theorem mem_joined_iff {texts : List String} :
    mark ∈ (",".intercalate (texts.map encode)).toList ↔ ∃ s ∈ texts, mark ∈ (encode s).toList := by
  rw [String.toList_intercalate]
  constructor
  · intro hmem
    rcases Text.mem_intercalate hmem with hcomma | ⟨chars, hchars, hmem⟩
    · exact absurd (List.mem_singleton.mp hcomma) hmark.between
    · obtain ⟨encoded, hencoded, rfl⟩ := List.mem_map.mp hchars
      obtain ⟨s, hs, rfl⟩ := List.mem_map.mp hencoded
      exact ⟨s, hs, hmem⟩
  · rintro ⟨s, hs, hmem⟩
    exact Text.mem_intercalate_of_mem (List.mem_map_of_mem (List.mem_map_of_mem hs)) hmem

/-- A mark in a filled text stands in the text itself or in a value that is put into it. -/
theorem mem_filledText_iff {text : String} : mark ∈ (filledText bindings encode text).toList ↔
    mark ∈ text.toList ∨
      ∃ name ∈ placeholders text, ∃ s ∈ bindings.textsOf name, mark ∈ (encode s).toList := by
  rw [toList_filledText, List.mem_flatMap, ← literal_mem_piecesOf_iff hmark]
  constructor
  · rintro ⟨piece, hpiece, hmem⟩
    cases piece with
    | literal c =>
        obtain rfl : mark = c := by simpa [pieceText] using hmem
        exact Or.inl hpiece
    | slot name =>
        obtain ⟨s, hs, hmem⟩ := (mem_joined_iff hmark).mp hmem
        exact Or.inr ⟨_, List.mem_filterMap.mpr ⟨_, hpiece, rfl⟩, s, hs, hmem⟩
  · rintro (hliteral | ⟨name, hname, s, hs, hmem⟩)
    · exact ⟨_, hliteral, by simp [pieceText]⟩
    · obtain ⟨piece, hpiece, hslot⟩ := List.mem_filterMap.mp hname
      cases piece with
      | literal c => cases hslot
      | slot chars =>
          obtain rfl : String.ofList chars = name := Option.some.inj hslot
          exact ⟨_, hpiece, (mem_joined_iff hmark).mpr ⟨s, hs, hmem⟩⟩

/-- Values without the mark leave the parts between marks as they are. -/
theorem splitOn_filledText (hencode : ∀ s, mark ∉ (encode s).toList) (text : List Char) :
    Text.splitOn mark (filledText bindings encode (String.ofList text)).toList =
      (Text.splitOn mark text).map fun part =>
        (filledText bindings encode (String.ofList part)).toList := by
  have hkept : ∀ part : List Char, mark ∉ part →
      mark ∉ (filledText bindings encode (String.ofList part)).toList := by
    intro part hpart hmem
    rcases (mem_filledText_iff hmark).mp hmem with hliteral | ⟨_, -, s, -, hvalue⟩
    · rw [String.toList_ofList] at hliteral
      exact hpart hliteral
    · exact hencode s hvalue
  -- Each step takes off what stands before the first mark that is left.
  induction hcount : text.count mark generalizing text with
  | zero =>
      have hnone : mark ∉ text := List.count_eq_zero.mp hcount
      rw [Text.splitOn_of_not_mem hnone, Text.splitOn_of_not_mem (hkept text hnone)]
      rfl
  | succ count ih =>
      have hmem : mark ∈ text := List.count_pos_iff.mp (by omega)
      obtain ⟨before, after, rfl, hbefore⟩ := List.eq_append_cons_of_mem hmem
      have hafter : after.count mark = count := by
        rw [List.count_append, List.count_cons_self, List.count_eq_zero.mpr hbefore] at hcount
        omega
      rw [toList_filledText_append_cons hmark, Text.splitOn_append, Text.splitOn_append,
        Text.splitOn_of_not_mem hbefore, Text.splitOn_of_not_mem (hkept before hbefore), ih after hafter,
        List.map_append]
      rfl

theorem fillsParts_filledText (hencode : ∀ s, mark ∉ (encode s).toList)
    (htextual : bindings.AreTextual) (text : String) :
    FillsParts mark bindings encode text (filledText bindings encode text) := by
  have hsplit : Text.splitOn mark (filledText bindings encode text).toList =
      (Text.splitOn mark text.toList).map fun part =>
        (filledText bindings encode (String.ofList part)).toList := by
    rw [← splitOn_filledText hmark hencode, String.ofList_toList]
  unfold FillsParts
  rw [hsplit, List.forall₂_map_right_iff]
  refine List.forall₂_same.mpr fun part _ => ?_
  rw [fill_eq htextual, String.ofList_toList]

end Marks

end HttpBinding
