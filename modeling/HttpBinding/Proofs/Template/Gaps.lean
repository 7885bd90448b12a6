import HttpBinding.Proofs.Template.Filling
import HttpBinding.Proofs.Entries
import HttpBinding.Proofs.Text.Gaps

/-!
# One variable, two texts

Two calls that differ in one argument resolve the same template with bindings that differ in
the variables of that argument only. A text of the template is then filled to one text with
gaps, plugged with the encoded texts of the two: a gap stands where a variable was mentioned.
-/

namespace HttpBinding

/-! ## Bindings -/

/-- One binding in two calls: a variable of the argument has its text, every other one its value. -/
def DifferAt (names : List String) (a b : String) (entry entry' : String × Value) : Prop :=
  entry'.1 = entry.1 ∧
    if entry.1 ∈ names then entry.2 = .text a ∧ entry'.2 = .text b else entry'.2 = entry.2

/-- The bindings of two calls that differ in the argument of some variables. -/
structure Bindings.Differ (names : List String) (a b : String) (bindings bindings' : Bindings) :
    Prop where
  entries : List.Forall₂ (DifferAt names a b) bindings bindings'
  bound : ∀ name ∈ names, name ∈ bindings.keys

/-- Whether a text has a placeholder for one of some variables. -/
def Mentions (names : List String) (text : String) : Prop :=
  ∃ name ∈ names, name ∈ placeholders text

variable {names : List String} {a b : String} {bindings bindings' : Bindings}

namespace Bindings

theorem lookup_of_differAt (hentries : List.Forall₂ (DifferAt names a b) bindings bindings')
    (name : String) :
    (name ∉ names → bindings'.lookup name = bindings.lookup name) ∧
      (name ∈ names → name ∈ bindings.keys →
        bindings.lookup name = some (.text a) ∧ bindings'.lookup name = some (.text b)) := by
  induction hentries with
  | nil => exact ⟨fun _ => rfl, fun _ hkey => by cases hkey⟩
  | @cons entry entry' rest rest' hentry _ ih =>
      obtain ⟨key, value⟩ := entry
      obtain ⟨key', value'⟩ := entry'
      obtain ⟨rfl, hvalues⟩ : key' = key ∧ _ := hentry
      dsimp only at hvalues
      rw [Entries.lookup_cons, Entries.lookup_cons]
      by_cases hname : name = key'
      · subst hname
        rw [if_pos rfl, if_pos rfl]
        constructor
        · intro hother
          rw [if_neg hother] at hvalues
          rw [hvalues]
        · intro hmem _
          rw [if_pos hmem] at hvalues
          rw [hvalues.1, hvalues.2]
          exact ⟨rfl, rfl⟩
      · rw [if_neg hname, if_neg hname]
        refine ⟨ih.1, ?_⟩
        intro hmem hkey
        exact ih.2 hmem ((List.mem_cons.mp hkey).resolve_left hname)

namespace Differ

variable (hdiffer : Differ names a b bindings bindings')

include hdiffer

theorem lookup_of_mem {name : String} (hname : name ∈ names) :
    bindings.lookup name = some (.text a) ∧ bindings'.lookup name = some (.text b) :=
  (lookup_of_differAt hdiffer.entries name).2 hname (hdiffer.bound name hname)

theorem lookup_of_not_mem {name : String} (hname : name ∉ names) :
    bindings'.lookup name = bindings.lookup name :=
  (lookup_of_differAt hdiffer.entries name).1 hname

theorem binds_eq : bindings'.binds = bindings.binds := by
  funext name
  unfold binds
  by_cases hname : name ∈ names
  · rw [(hdiffer.lookup_of_mem hname).1, (hdiffer.lookup_of_mem hname).2]
    rfl
  · rw [hdiffer.lookup_of_not_mem hname]

end Differ

end Bindings

/-! ## Texts -/

section Texts

variable {encode : String → String} {text : String} (hdiffer : Bindings.Differ names a b bindings bindings')

include hdiffer

/-- A piece is the same in both, unless it is a placeholder of the argument. -/
theorem fillPiece_gapped {piece : Piece} {s s' : String}
    (hs : fillPiece bindings encode piece = .ok s) (hs' : fillPiece bindings' encode piece = .ok s') :
    ∃ g : Gapped, s = g.text (encode a) ∧ s' = g.text (encode b) ∧
      (none ∈ g ↔ ∃ name ∈ names, piece.name? = some name) := by
  have hsame : (∀ name ∈ names, piece.name? ≠ some name) → s' = s → ∃ g : Gapped,
      s = g.text (encode a) ∧ s' = g.text (encode b) ∧
      (none ∈ g ↔ ∃ name ∈ names, piece.name? = some name) := by
    rintro hother rfl
    refine ⟨Gapped.literal s', by simp, by simp, ?_⟩
    constructor
    · exact fun hgap => absurd hgap (Gapped.not_mem_literal s')
    · rintro ⟨name, hname, hpiece⟩
      exact absurd hpiece (hother name hname)
  cases piece with
  | literal c =>
      refine hsame (fun name _ hpiece => by cases hpiece) ?_
      exact Except.ok.inj (hs'.symm.trans hs)
  | slot chars =>
      by_cases hname : String.ofList chars ∈ names
      · obtain ⟨ha, hb⟩ := hdiffer.lookup_of_mem hname
        have hone : ∀ x : String, ",".intercalate (([x] : List String).map encode) = encode x := fun x => by
          simp
        unfold fillPiece at hs hs'
        dsimp only at hs hs'
        rw [ha] at hs
        rw [hb] at hs'
        have hs : ",".intercalate (([a] : List String).map encode) = s := Except.ok.inj hs
        have hs' : ",".intercalate (([b] : List String).map encode) = s' := Except.ok.inj hs'
        rw [hone] at hs hs'
        refine ⟨[none], ?_, ?_, ?_⟩
        · rw [Gapped.text_gap, hs]
        · rw [Gapped.text_gap, hs']
        · simpa [Piece.name?] using hname
      · refine hsame ?_ ?_
        · rintro name hmem hpiece
          rw [← Option.some.inj hpiece] at hmem
          exact hname hmem
        · have hlookup := hdiffer.lookup_of_not_mem hname
          unfold fillPiece at hs hs'
          dsimp only at hs hs'
          rw [hlookup] at hs'
          exact Except.ok.inj (hs'.symm.trans hs)

theorem pieces_gapped {pieces : List Piece} {texts texts' : List String}
    (htexts : List.Forall₂ (fun piece t => fillPiece bindings encode piece = .ok t) pieces texts)
    (htexts' : List.Forall₂ (fun piece t => fillPiece bindings' encode piece = .ok t) pieces texts') :
    ∃ g : Gapped, texts.flatMap String.toList = g.plug (encode a).toList ∧
      texts'.flatMap String.toList = g.plug (encode b).toList ∧
      (none ∈ g ↔ ∃ name ∈ names, name ∈ pieces.filterMap Piece.name?) := by
  induction htexts generalizing texts' with
  | nil =>
      rw [List.forall₂_nil_left_iff.mp htexts']
      exact ⟨[], rfl, rfl, by simp⟩
  | @cons piece s pieces texts hs _ ih =>
      obtain ⟨s', rest', hs', hrest', rfl⟩ := List.forall₂_cons_left_iff.mp htexts'
      obtain ⟨g, hg, hg', hgap⟩ := fillPiece_gapped hdiffer hs hs'
      obtain ⟨rest, hrest, hrest'', hmore⟩ := ih hrest'
      refine ⟨g ++ rest, ?_, ?_, ?_⟩
      · rw [List.flatMap_cons, hg, hrest, Gapped.toList_text, Gapped.plug_append]
      · rw [List.flatMap_cons, hg', hrest'', Gapped.toList_text, Gapped.plug_append]
      · rw [List.mem_append, hgap, hmore]
        constructor
        · rintro (⟨name, hname, hpiece⟩ | ⟨name, hname, hpieces⟩)
          · exact ⟨name, hname, List.mem_filterMap.mpr ⟨piece, List.mem_cons_self, hpiece⟩⟩
          · obtain ⟨other, hother, hsome⟩ := List.mem_filterMap.mp hpieces
            exact ⟨name, hname, List.mem_filterMap.mpr ⟨other, List.mem_cons_of_mem _ hother, hsome⟩⟩
        · rintro ⟨name, hname, hmem⟩
          obtain ⟨other, hother, hsome⟩ := List.mem_filterMap.mp hmem
          rcases List.mem_cons.mp hother with rfl | hlater
          · exact Or.inl ⟨name, hname, hsome⟩
          · exact Or.inr ⟨name, hname, List.mem_filterMap.mpr ⟨other, hlater, hsome⟩⟩

/-- A text that is filled in both calls is one text with a gap where the argument is mentioned. -/
theorem fill_gapped {filled filled' : String} (hfill : fill bindings encode text = .ok filled)
    (hfill' : fill bindings' encode text = .ok filled') :
    ∃ g : Gapped, filled = g.text (encode a) ∧ filled' = g.text (encode b) ∧
      (none ∈ g ↔ Mentions names text) := by
  obtain ⟨texts, htexts, hjoined⟩ := fill_pieces hfill
  obtain ⟨texts', htexts', hjoined'⟩ := fill_pieces hfill'
  obtain ⟨g, hg, hg', hgap⟩ := pieces_gapped hdiffer htexts htexts'
  refine ⟨g, String.toList_inj.mp ?_, String.toList_inj.mp ?_, hgap⟩
  · rw [hjoined, hg, Gapped.toList_text]
  · rw [hjoined', hg', Gapped.toList_text]

/-- A text goes away in both calls or in neither; one that mentions the argument stays. -/
theorem fillIfBound_gapped {filled filled' : Option String}
    (hfill : fillIfBound bindings encode text = .ok filled)
    (hfill' : fillIfBound bindings' encode text = .ok filled') :
    (¬ Mentions names text ∧ filled = none ∧ filled' = none) ∨
      ∃ g : Gapped, filled = some (g.text (encode a)) ∧ filled' = some (g.text (encode b)) ∧
        (none ∈ g ↔ Mentions names text) := by
  unfold fillIfBound at hfill hfill'
  dsimp only at hfill hfill'
  rw [hdiffer.binds_eq] at hfill'
  split at hfill
  next hunbound =>
    rw [if_pos hunbound] at hfill'
    refine Or.inl ⟨?_, (Except.ok.inj hfill).symm, (Except.ok.inj hfill').symm⟩
    rintro ⟨name, hname, hmem⟩
    have hbinds : bindings.binds name = true := by
      unfold Bindings.binds
      rw [(hdiffer.lookup_of_mem hname).1]
      rfl
    have hany : (placeholders text).any bindings.binds = true := List.any_eq_true.mpr ⟨name, hmem, hbinds⟩
    rw [hany] at hunbound
    simp at hunbound
  next hbound =>
    rw [if_neg hbound] at hfill'
    obtain ⟨t, ht, rfl⟩ := map_eq_ok.mp hfill
    obtain ⟨t', ht', rfl⟩ := map_eq_ok.mp hfill'
    obtain ⟨g, rfl, rfl, hgap⟩ := fill_gapped hdiffer ht ht'
    exact Or.inr ⟨g, rfl, rfl, hgap⟩

end Texts

theorem placeholders_of_sole {text name : String} (hsole : solePlaceholder? text = some name) :
    placeholders text = [name] := by
  unfold solePlaceholder? at hsole
  unfold placeholders
  split at hsole
  next chars hpieces =>
    rw [hpieces, ← Option.some.inj hsole]
    rfl
  next => cases hsole

theorem mentions_of_sole {text name : String} (hsole : solePlaceholder? text = some name) :
    Mentions names text ↔ name ∈ names := by
  unfold Mentions
  rw [placeholders_of_sole hsole]
  simp

end HttpBinding
