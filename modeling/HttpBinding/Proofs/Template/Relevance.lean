import HttpBinding.Proofs.Template.Gaps
import HttpBinding.Proofs.Template.Preservation

/-!
# Which variables a template depends on

Resolving looks at no variable but those that placeholders of the template name. So bindings
that agree on these names make the same of a template, or stop at the same part of it for the
same reason. The lemmas follow the parts of a template down to a single piece of a text.
-/

namespace HttpBinding

/-- Bindings that agree on names: each is bound to the same value in both, or in neither. -/
def Bindings.AgreeOn (names : List String) (bindings bindings' : Bindings) : Prop :=
  ∀ name ∈ names, bindings.lookup name = bindings'.lookup name

variable {bindings bindings' : Bindings} {names : List String} {text : String}

theorem Bindings.AgreeOn.mono {fewer : List String} (hagree : bindings.AgreeOn names bindings')
    (hsubset : fewer ⊆ names) : bindings.AgreeOn fewer bindings' :=
  fun name hname => hagree name (hsubset hname)

/-- A binding that is not asked for makes no difference. -/
theorem Bindings.agreeOn_put {name : String} (hname : name ∉ names) (value : Value) :
    AgreeOn names (bindings.put name value) bindings := by
  intro other hother
  have hne : other ≠ name := fun heq => hname (heq ▸ hother)
  rw [Entries.lookup_put, if_neg hne]

theorem Bindings.AgreeOn.binds_eq {name : String} (hagree : bindings.AgreeOn names bindings')
    (hname : name ∈ names) : bindings.binds name = bindings'.binds name := by
  unfold binds
  rw [hagree name hname]

/-! ## Texts -/

theorem fillPiece_of_agreeOn (encode : String → String) {piece : Piece}
    (hagree : bindings.AgreeOn piece.name?.toList bindings') :
    fillPiece bindings encode piece = fillPiece bindings' encode piece := by
  cases piece with
  | literal c => rfl
  | slot name =>
      have hname : bindings.lookup (String.ofList name) = bindings'.lookup (String.ofList name) :=
        hagree _ (by simp [Piece.name?])
      simp only [fillPiece, hname]

theorem fill_of_agreeOn (encode : String → String) (hagree : bindings.AgreeOn (placeholders text) bindings') :
    fill bindings encode text = fill bindings' encode text := by
  have hpieces : ∀ pieces : List Piece, bindings.AgreeOn (pieces.filterMap Piece.name?) bindings' →
      pieces.mapM (fillPiece bindings encode) = pieces.mapM (fillPiece bindings' encode) := by
    intro pieces hagree
    induction pieces with
    | nil => rfl
    | cons piece rest ih =>
        have hsplit : (piece :: rest).filterMap Piece.name? =
            piece.name?.toList ++ rest.filterMap Piece.name? := by
          cases hname : piece.name? <;> simp [hname]
        rw [hsplit] at hagree
        have hfirst := fillPiece_of_agreeOn encode (hagree.mono (List.subset_append_left _ _))
        have hrest := ih (hagree.mono (List.subset_append_right _ _))
        simp only [List.mapM_cons, hfirst, hrest]
  simp only [fill, hpieces (piecesOf text) hagree]

theorem fillIfBound_of_agreeOn (encode : String → String)
    (hagree : bindings.AgreeOn (placeholders text) bindings') :
    fillIfBound bindings encode text = fillIfBound bindings' encode text := by
  have hbinds : (placeholders text).any bindings.binds = (placeholders text).any bindings'.binds := by
    rw [Bool.eq_iff_iff, List.any_eq_true, List.any_eq_true]
    refine exists_congr fun name => and_congr_right fun hname => ?_
    rw [hagree.binds_eq hname]
  simp only [fillIfBound, hbinds, fill_of_agreeOn encode hagree]

namespace Template

variable {t : Template}

/-! ## Query parameters -/

theorem resolveQueryValue_of_agreeOn (t : Template) {value : Option String}
    (hagree : bindings.AgreeOn (placeholders (value.getD "")) bindings') :
    t.resolveQueryValue bindings value = t.resolveQueryValue bindings' value := by
  cases value with
  | none => rfl
  | some text =>
      rw [Option.getD_some] at hagree
      cases hsole : solePlaceholder? text with
      | some name =>
          rw [placeholders_of_sole hsole] at hagree
          simp only [resolveQueryValue, hsole, hagree name List.mem_cons_self]
      | none => simp only [resolveQueryValue, hsole, fillIfBound_of_agreeOn Percent.encodeQuery hagree]

theorem resolveQueryValues_of_agreeOn (t : Template) {values : List (Option String)}
    (hagree : ∀ value ∈ values, bindings.AgreeOn (placeholders (value.getD "")) bindings') :
    t.resolveQueryValues bindings values = t.resolveQueryValues bindings' values := by
  induction values with
  | nil => rfl
  | cons value rest ih =>
      obtain ⟨hvalue, hrest⟩ := List.forall_mem_cons.mp hagree
      simp only [resolveQueryValues, resolveQueryValue_of_agreeOn t hvalue, ih hrest]

/-- Whether a parameter is left out depends on no other variables than what becomes of it. -/
theorem resolveQueriesFrom_of_agreeOn (t : Template) {done queries : Queries}
    (hnames : ∀ entry ∈ queries, bindings.AgreeOn (placeholders entry.1) bindings')
    (hvalues : ∀ entry ∈ queries, ∀ value ∈ entry.2,
      bindings.AgreeOn (placeholders (value.getD "")) bindings') :
    t.resolveQueriesFrom bindings done queries = t.resolveQueriesFrom bindings' done queries := by
  induction queries generalizing done with
  | nil => rfl
  | cons entry rest ih =>
      obtain ⟨hname, hnames⟩ := List.forall_mem_cons.mp hnames
      obtain ⟨hvalue, hvalues⟩ := List.forall_mem_cons.mp hvalues
      simp only [resolveQueriesFrom, fillIfBound_of_agreeOn id hname, resolveQueryValues_of_agreeOn t hvalue,
        ih hnames hvalues]

/-! ## Headers -/

theorem resolveHeaderValue_of_agreeOn (hagree : bindings.AgreeOn (placeholders text) bindings') :
    resolveHeaderValue bindings text = resolveHeaderValue bindings' text := by
  cases hsole : solePlaceholder? text with
  | some name =>
      rw [placeholders_of_sole hsole] at hagree
      simp only [resolveHeaderValue, hsole, hagree name List.mem_cons_self]
  | none => simp only [resolveHeaderValue, hsole, fillIfBound_of_agreeOn id hagree]

theorem resolveHeaderValues_of_agreeOn {values : List String}
    (hagree : ∀ value ∈ values, bindings.AgreeOn (placeholders value) bindings') :
    resolveHeaderValues bindings values = resolveHeaderValues bindings' values := by
  induction values with
  | nil => rfl
  | cons value rest ih =>
      obtain ⟨hvalue, hrest⟩ := List.forall_mem_cons.mp hagree
      simp only [resolveHeaderValues, resolveHeaderValue_of_agreeOn hvalue, ih hrest]

theorem resolveHeaders_of_agreeOn {headers : Headers}
    (hagree : ∀ entry ∈ headers, ∀ value ∈ entry.2, bindings.AgreeOn (placeholders value) bindings') :
    resolveHeaders bindings headers = resolveHeaders bindings' headers := by
  induction headers with
  | nil => rfl
  | cons entry rest ih =>
      obtain ⟨hentry, hrest⟩ := List.forall_mem_cons.mp hagree
      simp only [resolveHeaders, resolveHeaderValues_of_agreeOn hentry, ih hrest]

/-! ## Templates -/

/-- Bindings that agree on the variables of a template make the same of it, faults included. -/
theorem resolve_of_agreeOn [Charsets] (hagree : bindings.AgreeOn t.placeholderNames bindings') :
    t.resolve bindings = t.resolve bindings' := by
  have hpath : bindings.AgreeOn (placeholders t.path) bindings' :=
    hagree.mono fun _ hname => mem_placeholderNames_iff.mpr (.inl hname)
  have hnames : ∀ entry ∈ t.queries, bindings.AgreeOn (placeholders entry.1) bindings' :=
    fun entry hentry => hagree.mono fun _ hname =>
      mem_placeholderNames_iff.mpr (.inr (.inl ⟨entry, hentry, .inl hname⟩))
  have hvalues : ∀ entry ∈ t.queries, ∀ value ∈ entry.2,
      bindings.AgreeOn (placeholders (value.getD "")) bindings' :=
    fun entry hentry value hvalue => hagree.mono fun _ hname =>
      mem_placeholderNames_iff.mpr (.inr (.inl ⟨entry, hentry, .inr ⟨value, hvalue, hname⟩⟩))
  have hheaders : ∀ entry ∈ t.headers, ∀ value ∈ entry.2,
      bindings.AgreeOn (placeholders value) bindings' :=
    fun entry hentry value hvalue => hagree.mono fun _ hname =>
      mem_placeholderNames_iff.mpr (.inr (.inr (.inl ⟨entry, hentry, value, hvalue, hname⟩)))
  have hbody : bindings.AgreeOn (placeholders (t.bodyText.getD "")) bindings' :=
    hagree.mono fun _ hname => mem_placeholderNames_iff.mpr (.inr (.inr (.inr hname)))
  unfold resolve
  rw [fill_of_agreeOn _ hpath]
  cases fill bindings' (Percent.encodePath t.decodeSlash) t.path with
  | error fault => rfl
  | ok path =>
      simp only [resolveQueries, resolveQueriesFrom_of_agreeOn _ hnames hvalues,
        resolveHeaders_of_agreeOn hheaders]
      cases htext : t.bodyText with
      | none => rfl
      | some text =>
          rw [htext, Option.getD_some] at hbody
          simp only [resolveBody, fill_of_agreeOn id hbody]

/-! ## Templates that take over an address -/

/-- A name or a value of a query parameter has a placeholder. -/
def MentionedBy (queries : Queries) (name : String) : Prop :=
  ∃ entry ∈ queries, name ∈ placeholders entry.1 ∨ ∃ value ∈ entry.2, name ∈ placeholders (value.getD "")

variable {queries : Queries} {name : String}

theorem mentionedBy_extend {key : String} {values : List (Option String)}
    (hmentioned : MentionedBy (queries.extend key values) name) :
    MentionedBy queries name ∨ name ∈ placeholders key ∨
      ∃ value ∈ values, name ∈ placeholders (value.getD "") := by
  obtain ⟨entry, hentry, hname⟩ := hmentioned
  rcases Entries.mem_extend hentry with hold | rfl | ⟨old, hold, rfl⟩
  · exact .inl ⟨entry, hold, hname⟩
  · exact .inr hname
  · rcases hname with hkey | ⟨value, hvalue, hname⟩
    · exact .inr (.inl hkey)
    · rcases List.mem_append.mp hvalue with hbefore | hadded
      · exact .inl ⟨_, hold, .inr ⟨value, hbefore, hname⟩⟩
      · exact .inr (.inr ⟨value, hadded, hname⟩)

theorem mentionedBy_addPairs {pairs : List (String × Option String)}
    (hmentioned : MentionedBy (addPairs pairs queries) name) :
    MentionedBy queries name ∨
      ∃ pair ∈ pairs, name ∈ placeholders pair.1 ++ placeholders (pair.2.getD "") := by
  induction pairs generalizing queries with
  | nil => exact .inl hmentioned
  | cons pair rest ih =>
      rcases ih hmentioned with hextended | ⟨later, hlater, hname⟩
      · rcases mentionedBy_extend hextended with hbefore | hadded
        · exact .inl hbefore
        · exact .inr ⟨pair, List.mem_cons_self, by simpa using hadded⟩
      · exact .inr ⟨later, List.mem_cons_of_mem _ hlater, hname⟩

/-- The placeholders of parts are placeholders of the text that they are parts of. -/
theorem placeholders_part_subset {query part : List Char} (hpart : part ∈ Text.splitOn '&' query) :
    placeholders (String.ofList part) ⊆ placeholders (String.ofList query) := by
  have hjoined : ∀ parts : List (List Char), part ∈ parts →
      placeholders (String.ofList part) ⊆ placeholders (String.ofList (Text.join ['&'] parts)) := by
    intro parts hpart
    induction parts with
    | nil => cases hpart
    | cons first rest ih =>
        cases rest with
        | nil =>
            rw [List.mem_singleton.mp hpart]
            exact fun _ hname => hname
        | cons second rest =>
            have hsplit : Text.join ['&'] (first :: second :: rest) =
                first ++ '&' :: Text.join ['&'] (second :: rest) := by
              simp [Text.join]
            rw [hsplit, placeholders_append_cons rfl (by decide) (by decide)]
            rcases List.mem_cons.mp hpart with rfl | hlater
            · exact List.subset_append_left _ _
            · exact fun _ hname => List.mem_append_right _ (ih hlater hname)
  rw [← Text.join_splitOn '&' query]
  exact hjoined _ hpart

/-- An address brings no placeholders into a template but its own. -/
theorem mem_placeholderNames_target {address : String}
    (hname : name ∈ (t.target address).placeholderNames) :
    name ∈ t.placeholderNames ∨ name ∈ placeholders address := by
  rw [target_eq, mem_placeholderNames_iff] at hname
  rcases hname with hpath | hqueries | hother
  · exact .inl (mem_placeholderNames_iff.mpr (.inl hpath))
  · rcases mentionedBy_addPairs hqueries with hbefore | ⟨pair, hpair, hmentions⟩
    · exact .inl (mem_placeholderNames_iff.mpr (.inr (.inl hbefore)))
    · obtain ⟨part, hpart, rfl⟩ := List.mem_map.mp hpair
      rw [← placeholders_part] at hmentions
      have hquery := placeholders_part_subset (List.mem_of_mem_filter hpart) hmentions
      right
      cases hcut : (Text.cut '?' address.toList).2 with
      | none =>
          rw [hcut] at hquery
          simp [placeholders, piecesOf, Piece.ofChars] at hquery
      | some query =>
          rw [hcut, Option.getD_some] at hquery
          have haddress := Text.cut_fst_append '?' address.toList
          rw [hcut] at haddress
          rw [← String.ofList_toList (s := address), ← haddress,
            placeholders_append_cons rfl (by decide) (by decide)]
          exact List.mem_append_right _ hquery
  · exact .inl (mem_placeholderNames_iff.mpr (.inr (.inr hother)))

end Template

end HttpBinding
