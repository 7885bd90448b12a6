import HttpBinding.Proofs.Success
import HttpBinding.Proofs.Text.Split
import HttpBinding.Template.Placeholder

/-!
# Filling with texts

When every variable is bound to a text or to a list of texts, filling cannot fail:
what a text becomes is the text of its pieces one after another. A text without
placeholders stays as it is, and everything in a filled text is a character of the
text, comes from the encoding of a value or is a comma between two values.
-/

namespace HttpBinding

/-! ## Pieces -/

theorem Piece.chars_of_closeName? {chars name rest : List Char}
    (hclose : closeName? chars = some (name, rest)) : chars = name ++ '}' :: rest := by
  unfold closeName? at hclose
  split at hclose
  next after hdrop =>
    split at hclose
    next => cases hclose
    next =>
      obtain ⟨rfl, rfl⟩ := Prod.mk.inj (Option.some.inj hclose)
      rw [← hdrop, List.takeWhile_append_dropWhile]
  next => cases hclose

/-- The pieces of a text make up the text. -/
theorem Piece.flatMap_chars_ofChars (chars : List Char) :
    (ofChars chars).flatMap Piece.chars = chars := by
  induction chars using ofChars.induct with
  | case1 => rw [ofChars]; rfl
  | case2 rest name after hclose ih =>
      rw [ofChars, hclose]
      dsimp only
      rw [List.flatMap_cons, ih, chars_of_closeName? hclose]
      simp [Piece.chars]
  | case3 rest hclose ih =>
      rw [ofChars, hclose]
      dsimp only
      rw [List.flatMap_cons, ih]
      rfl
  | case4 c rest hbrace ih =>
      rw [ofChars, List.flatMap_cons, ih]
      · rfl
      · exact hbrace

/-- A literal piece is a character of the text. -/
theorem mem_toList_of_literal {text : String} {c : Char} (hc : .literal c ∈ piecesOf text) :
    c ∈ text.toList := by
  rw [← Piece.flatMap_chars_ofChars text.toList]
  exact List.mem_flatMap.mpr ⟨_, hc, List.mem_singleton_self c⟩

/-- A text without placeholders has no pieces but its characters. -/
theorem piecesOf_of_no_placeholders {text : String} (hnone : placeholders text = []) :
    piecesOf text = text.toList.map .literal := by
  have hliterals : ∀ pieces : List Piece, pieces.filterMap Piece.name? = [] →
      (pieces.flatMap Piece.chars).map .literal = pieces := by
    intro pieces hpieces
    induction pieces with
    | nil => rfl
    | cons piece rest ih =>
        cases piece with
        | literal c => exact congrArg (.literal c :: ·) (ih hpieces)
        | slot name => cases hpieces
  have hall := hliterals (piecesOf text) hnone
  rw [← hall]
  congr 1
  exact Piece.flatMap_chars_ofChars text.toList

theorem solePlaceholder?_of_no_placeholders {text : String} (hnone : placeholders text = []) :
    solePlaceholder? text = none := by
  unfold solePlaceholder?
  rw [piecesOf_of_no_placeholders hnone]
  cases text.toList <;> rfl

/-- What opens no placeholder stands for itself. -/
theorem Piece.ofChars_append {start : List Char} (hbrace : '{' ∉ start) (rest : List Char) :
    ofChars (start ++ rest) = start.map .literal ++ ofChars rest := by
  induction start with
  | nil => rfl
  | cons c start ih =>
      obtain ⟨hc, hstart⟩ := List.ne_and_not_mem_of_not_mem_cons hbrace
      rw [List.cons_append, ofChars, ih hstart]
      · rfl
      · exact hc.symm

theorem placeholders_of_no_brace {text : String} (hbrace : '{' ∉ text.toList) :
    placeholders text = [] := by
  unfold placeholders piecesOf
  rw [← List.append_nil text.toList, Piece.ofChars_append hbrace, Piece.ofChars, List.append_nil,
    List.filterMap_map]
  exact List.filterMap_eq_nil_iff.mpr fun c _ => rfl

/-- A mark that no name may hold ends every placeholder that was begun before it. -/
theorem Piece.closeName?_append {mark : Char} (hname : isNameChar mark = false) (hclose : mark ≠ '}')
    (chars after : List Char) :
    closeName? (chars ++ mark :: after) =
      (closeName? chars).map fun found => (found.1, found.2 ++ mark :: after) := by
  have htake : (chars ++ mark :: after).takeWhile isNameChar = chars.takeWhile isNameChar := by
    rw [List.takeWhile_append, List.takeWhile_cons_of_neg (by simp [hname]), List.append_nil]
    split
    next hlength => exact (List.takeWhile_prefix isNameChar).eq_of_length hlength |>.symm
    next => rfl
  have hdrop : (chars ++ mark :: after).dropWhile isNameChar =
      chars.dropWhile isNameChar ++ mark :: after := by
    rw [List.dropWhile_append, List.dropWhile_cons_of_neg (by simp [hname])]
    split
    next hempty => rw [List.isEmpty_iff.mp hempty, List.nil_append]
    next => rfl
  unfold closeName?
  rw [htake, hdrop]
  cases chars.dropWhile isNameChar with
  | nil =>
      rw [List.nil_append]
      split
      next rest heq => exact absurd (List.cons.inj heq).1 hclose
      next => rfl
  | cons c rest =>
      rw [List.cons_append]
      by_cases hc : c = '}'
      · subst hc
        cases (chars.takeWhile isNameChar).isEmpty <;> rfl
      · split
        next heq => exact absurd (List.cons.inj heq).1 hc
        next =>
          split
          next heq => exact absurd (List.cons.inj heq).1 hc
          next => rfl

/-- So the pieces before such a mark and those after it are found apart. -/
theorem Piece.ofChars_append_cons {mark : Char} (hname : isNameChar mark = false)
    (hopen : mark ≠ '{') (hclose : mark ≠ '}') (before after : List Char) :
    ofChars (before ++ mark :: after) = ofChars before ++ .literal mark :: ofChars after := by
  have hmark : ofChars (mark :: after) = .literal mark :: ofChars after := by
    rw [ofChars]
    exact hopen
  induction before using ofChars.induct with
  | case1 =>
      rw [List.nil_append, hmark, ofChars]
      rfl
  | case2 rest name left hfound ih =>
      have hlonger : closeName? (rest ++ mark :: after) = some (name, left ++ mark :: after) := by
        rw [closeName?_append hname hclose, hfound]
        rfl
      rw [List.cons_append, ofChars, hlonger, ofChars, hfound]
      dsimp only
      rw [ih]
      rfl
  | case3 rest hfound ih =>
      have hlonger : closeName? (rest ++ mark :: after) = none := by
        rw [closeName?_append hname hclose, hfound]
        rfl
      rw [List.cons_append, ofChars, hlonger, ofChars, hfound]
      dsimp only
      rw [ih]
      rfl
  | case4 c rest hbrace ih =>
      rw [List.cons_append, ofChars, ofChars, ih]
      · rfl
      · exact hbrace
      · exact hbrace

/-- So are the names of the placeholders. -/
theorem placeholders_append_cons {mark : Char} (hname : Piece.isNameChar mark = false)
    (hopen : mark ≠ '{') (hclose : mark ≠ '}') (before after : List Char) :
    placeholders (String.ofList (before ++ mark :: after)) =
      placeholders (String.ofList before) ++ placeholders (String.ofList after) := by
  simp only [placeholders, piecesOf, String.toList_ofList,
    Piece.ofChars_append_cons hname hopen hclose, List.filterMap_append]
  rfl

/-! ## Bindings that can be filled in -/

/-- A value that is a text or a list of texts. -/
def Value.IsTextual (value : Value) : Prop :=
  (∃ s, value = .text s) ∨ ∃ texts : List String, value = .list (texts.map .text)

/-- Variables that are bound to texts and lists of texts. -/
def Bindings.AreTextual (bindings : Bindings) : Prop :=
  ∀ name value, bindings.lookup name = some value → value.IsTextual

/-- Variables that are bound to one text each. -/
def Bindings.ofTexts (texts : Entries String String) : Bindings :=
  texts.map fun entry => (entry.1, .text entry.2)

theorem Bindings.areTextual_nil : AreTextual [] := by
  intro name value hlookup
  cases hlookup

theorem Bindings.areTextual_cons {name : String} {value : Value} {rest : Bindings}
    (hvalue : value.IsTextual) (hrest : rest.AreTextual) : AreTextual ((name, value) :: rest) := by
  intro other found hlookup
  rw [List.lookup_cons] at hlookup
  split at hlookup
  · rwa [← Option.some.inj hlookup]
  · exact hrest other found hlookup

theorem Bindings.areTextual_ofTexts (texts : Entries String String) :
    (ofTexts texts).AreTextual := by
  induction texts with
  | nil => exact areTextual_nil
  | cons entry rest ih => exact areTextual_cons (Or.inl ⟨entry.2, rfl⟩) ih

/-- The number of texts that a value holds. -/
def Value.extent : Value → Nat
  | .list items => items.length
  | _ => 1

/-- Bindings of the same variables, each to as many texts. -/
def Bindings.SameExtents (bindings bindings' : Bindings) : Prop :=
  ∀ name, (bindings.lookup name).map Value.extent = (bindings'.lookup name).map Value.extent

namespace Filling

theorem ofValue_list (texts : List String) :
    ofValue (.list (texts.map .text)) = .ok (.many texts) := by
  have hfilter : (texts.map Value.text).filter (!·.isNull) = texts.map .text := by
    refine List.filter_eq_self.mpr ?_
    intro value hvalue
    obtain ⟨s, -, rfl⟩ := List.mem_map.mp hvalue
    rfl
  change Except.ok (many (((texts.map Value.text).filter (!·.isNull)).map Value.plainText)) = _
  rw [hfilter, List.map_map]
  exact congrArg (Except.ok <| many ·) (List.map_id texts)

theorem ofValue_of_textual {value : Value} (htextual : value.IsTextual) :
    ∃ filling, ofValue value = .ok filling := by
  rcases htextual with ⟨s, rfl⟩ | ⟨texts, rfl⟩
  · exact ⟨.one s, rfl⟩
  · exact ⟨.many texts, ofValue_list texts⟩

end Filling

/-- The texts that fill the placeholders of a variable; none when it is not bound. -/
def Bindings.textsOf (bindings : Bindings) (name : String) : List String :=
  match bindings.lookup name with
  | none => []
  | some value =>
    match Filling.ofValue value with
    | .ok filling => filling.texts
    | .error _ => []

theorem Bindings.textsOf_of_unbound {bindings : Bindings} {name : String}
    (hlookup : bindings.lookup name = none) : bindings.textsOf name = [] := by
  unfold textsOf
  rw [hlookup]

theorem Bindings.textsOf_of_bound {bindings : Bindings} {name : String} {value : Value}
    {filling : Filling} (hlookup : bindings.lookup name = some value)
    (hfilling : Filling.ofValue value = .ok filling) :
    bindings.textsOf name = filling.texts := by
  unfold textsOf
  rw [hlookup]
  dsimp only
  rw [hfilling]

theorem Bindings.length_textsOf {bindings : Bindings} (htextual : bindings.AreTextual)
    (name : String) :
    (bindings.textsOf name).length = ((bindings.lookup name).map Value.extent).getD 0 := by
  cases hlookup : bindings.lookup name with
  | none =>
      rw [textsOf_of_unbound hlookup]
      rfl
  | some value =>
      rcases htextual name value hlookup with ⟨s, rfl⟩ | ⟨texts, rfl⟩
      · rw [textsOf_of_bound hlookup rfl]
        rfl
      · rw [textsOf_of_bound hlookup (Filling.ofValue_list texts)]
        exact (List.length_map _).symm

/-- A variable is bound in both or in neither. -/
theorem Bindings.SameExtents.binds_eq {bindings bindings' : Bindings}
    (hsame : bindings.SameExtents bindings') : bindings.binds = bindings'.binds := by
  funext name
  have hmap := congrArg Option.isSome (hsame name)
  rwa [Option.isSome_map, Option.isSome_map] at hmap

/-- The text in the place of a piece. -/
def pieceText (bindings : Bindings) (encode : String → String) : Piece → String
  | .literal c => String.ofList [c]
  | .slot name => ",".intercalate ((bindings.textsOf (String.ofList name)).map encode)

/-- The text that a text becomes. -/
def filledText (bindings : Bindings) (encode : String → String) (text : String) : String :=
  "".intercalate ((piecesOf text).map (pieceText bindings encode))

variable {bindings : Bindings} {encode : String → String}

theorem fillPiece_eq (htextual : bindings.AreTextual) (piece : Piece) :
    fillPiece bindings encode piece = .ok (pieceText bindings encode piece) := by
  cases piece with
  | literal c => rfl
  | slot name =>
      unfold fillPiece pieceText
      dsimp only
      cases hlookup : bindings.lookup (String.ofList name) with
      | none =>
          rw [Bindings.textsOf_of_unbound hlookup]
          rfl
      | some value =>
          obtain ⟨filling, hfilling⟩ := Filling.ofValue_of_textual (htextual _ _ hlookup)
          rw [Bindings.textsOf_of_bound hlookup hfilling]
          dsimp only
          rw [hfilling]
          rfl

/-- Filling with texts does not fail. -/
theorem fill_eq (htextual : bindings.AreTextual) (text : String) :
    fill bindings encode text = .ok (filledText bindings encode text) := by
  have hpieces : fillPiece bindings encode = fun piece =>
      (pure (pieceText bindings encode piece) : Except Fault String) :=
    funext fun piece => fillPiece_eq htextual piece
  unfold fill
  rw [hpieces, List.mapM_pure]
  rfl

theorem toList_filledText (bindings : Bindings) (encode : String → String) (text : String) :
    (filledText bindings encode text).toList =
      (piecesOf text).flatMap fun piece => (pieceText bindings encode piece).toList := by
  unfold filledText
  rw [String.toList_intercalate]
  change List.intercalate [] _ = _
  rw [Text.intercalate_nil_eq_flatten, List.map_map, List.flatMap_def]
  rfl

theorem mem_joined {texts : List String} {c : Char}
    (hc : c ∈ (",".intercalate (texts.map encode)).toList) :
    c = ',' ∨ ∃ s, c ∈ (encode s).toList := by
  rw [String.toList_intercalate] at hc
  rcases Text.mem_intercalate hc with hcomma | ⟨chars, hchars, hc⟩
  · exact Or.inl (List.mem_singleton.mp hcomma)
  · obtain ⟨encoded, hencoded, rfl⟩ := List.mem_map.mp hchars
    obtain ⟨s, -, rfl⟩ := List.mem_map.mp hencoded
    exact Or.inr ⟨s, hc⟩

/-- Where the characters of a filled text come from. -/
theorem mem_filledText {text : String} {c : Char}
    (hc : c ∈ (filledText bindings encode text).toList) :
    c ∈ text.toList ∨ c = ',' ∨ ∃ s, c ∈ (encode s).toList := by
  rw [toList_filledText] at hc
  obtain ⟨piece, hpiece, hc⟩ := List.mem_flatMap.mp hc
  cases piece with
  | literal other =>
      obtain rfl : c = other := by simpa [pieceText] using hc
      exact Or.inl (mem_toList_of_literal hpiece)
  | slot name =>
      exact Or.inr (mem_joined hc)

/-! ## Filling with any values -/

/-- A text without placeholders has nothing to fill. -/
theorem fill_of_no_placeholders {text : String} (hnone : placeholders text = []) :
    fill bindings encode text = .ok text := by
  have hliterals : ∀ chars : List Char, (chars.map Piece.literal).mapM (fillPiece bindings encode) =
      .ok (chars.map fun c => String.ofList [c]) := by
    intro chars
    refine mapM_eq_ok.mpr (List.forall₂_map_left_iff.mpr (List.forall₂_map_right_iff.mpr ?_))
    exact List.forall₂_same.mpr fun c _ => rfl
  unfold fill
  rw [piecesOf_of_no_placeholders hnone, hliterals]
  have hchars : (String.toList ∘ fun c => String.ofList [c]) = fun c => [c] :=
    funext fun c => String.toList_ofList
  refine congrArg Except.ok (String.toList_inj.mp ?_)
  rw [String.toList_intercalate, String.toList_empty, Text.intercalate_nil_eq_flatten, List.map_map,
    hchars, ← List.flatMap_def]
  exact List.flatMap_singleton' text.toList

theorem fillIfBound_of_no_placeholders {text : String} (hnone : placeholders text = []) :
    fillIfBound bindings encode text = .ok (some text) := by
  unfold fillIfBound
  rw [hnone, fill_of_no_placeholders hnone]
  rfl

theorem fill_empty (bindings : Bindings) (encode : String → String) :
    fill bindings encode "" = .ok "" :=
  fill_of_no_placeholders (placeholders_of_no_brace (by simp))

section AnyValues

variable {text filled : String} (hfill : fill bindings encode text = .ok filled)

include hfill in
/-- A text that can be filled is filled piece by piece. -/
theorem fill_pieces : ∃ texts, List.Forall₂ (fun piece t => fillPiece bindings encode piece = .ok t)
    (piecesOf text) texts ∧ filled.toList = texts.flatMap String.toList := by
  unfold fill at hfill
  obtain ⟨texts, htexts, hjoined⟩ := bind_eq_ok.mp hfill
  refine ⟨texts, mapM_eq_ok.mp htexts, ?_⟩
  have hfilled : "".intercalate texts = filled := Except.ok.inj hjoined
  rw [← hfilled, String.toList_intercalate, String.toList_empty,
    Text.intercalate_nil_eq_flatten, List.flatMap_def]

theorem mem_of_fillPiece {piece : Piece} {t : String} (ht : fillPiece bindings encode piece = .ok t)
    {c : Char} (hc : c ∈ t.toList) :
    piece = .literal c ∨ c = ',' ∨ ∃ s, c ∈ (encode s).toList := by
  cases piece with
  | literal other =>
      have hother : String.ofList [other] = t := Except.ok.inj ht
      rw [← hother, String.toList_ofList, List.mem_singleton] at hc
      exact Or.inl (congrArg _ hc.symm)
  | slot name =>
      refine Or.inr ?_
      unfold fillPiece at ht
      dsimp only at ht
      split at ht
      · obtain rfl := Except.ok.inj ht
        simp at hc
      · obtain ⟨filling, -, hjoined⟩ := bind_eq_ok.mp ht
        have ht : ",".intercalate (filling.texts.map encode) = t := Except.ok.inj hjoined
        rw [← ht] at hc
        exact mem_joined hc

include hfill in
/-- Where the characters of a filled text come from, whatever the variables are bound to. -/
theorem mem_of_fill {c : Char} (hc : c ∈ filled.toList) :
    c ∈ text.toList ∨ c = ',' ∨ ∃ s, c ∈ (encode s).toList := by
  obtain ⟨texts, htexts, hfilled⟩ := fill_pieces hfill
  rw [hfilled] at hc
  obtain ⟨t, ht, hc⟩ := List.mem_flatMap.mp hc
  obtain ⟨piece, hpiece, hpieceText⟩ := exists_mem_left htexts ht
  refine (mem_of_fillPiece hpieceText hc).imp_left ?_
  rintro rfl
  exact mem_toList_of_literal hpiece

/-- Literal pieces are filled with themselves. -/
theorem prefix_of_literals {start : List Char} {pieces : List Piece} {texts : List String}
    (htexts : List.Forall₂ (fun piece t => fillPiece bindings encode piece = .ok t)
      (start.map .literal ++ pieces) texts) : start <+: texts.flatMap String.toList := by
  induction start generalizing texts with
  | nil => exact List.nil_prefix
  | cons c start ih =>
      obtain ⟨first, others, hfirst, hothers, rfl⟩ := List.forall₂_cons_left_iff.mp htexts
      have hfirst : String.ofList [c] = first := Except.ok.inj hfirst
      rw [List.flatMap_cons, ← hfirst, String.toList_ofList]
      exact List.cons_prefix_cons.mpr ⟨rfl, ih hothers⟩

include hfill in
/-- A text keeps what it begins with up to its first brace. -/
theorem prefix_of_fill {start : List Char} (hstart : start <+: text.toList) (hbrace : '{' ∉ start) :
    start <+: filled.toList := by
  obtain ⟨rest, hrest⟩ := hstart
  obtain ⟨texts, htexts, hfilled⟩ := fill_pieces hfill
  have hpieces : piecesOf text = start.map .literal ++ Piece.ofChars rest := by
    unfold piecesOf
    rw [← hrest, Piece.ofChars_append hbrace]
  rw [hpieces] at htexts
  rw [hfilled]
  exact prefix_of_literals htexts

include hfill in
/-- A text keeps the character that it begins with unless it is the start of a placeholder. -/
theorem head?_of_fill {c : Char} {rest : List Char} (htext : text.toList = c :: rest)
    (hc : c ≠ '{') : filled.toList.head? = some c := by
  have hstart : [c] <+: text.toList := ⟨rest, by rw [htext]; rfl⟩
  obtain ⟨more, hmore⟩ := prefix_of_fill hfill hstart (by simpa using hc.symm)
  rw [← hmore]
  rfl

end AnyValues

end HttpBinding
