import HttpBinding.Proofs.Entries
import HttpBinding.Proofs.Text.Split
import HttpBinding.Template.Basic

/-!
# Query parameters as text

The query of a template is written as parts with `&` between them, and each part is
a name or a name and a value with `=` between them. As long as no name holds one of
the two marks, no value holds the first one and the empty name has a value, nothing
is lost: splitting the text gives back the pairs. What a query text is parsed into
is of that kind, and it stays so when further texts are added.
-/

namespace HttpBinding

namespace Template

/-! ## Pairs and their text -/

/-- The pairs of one query parameter: those with a value, or the bare name when there are none. -/
def pairsOf (name : String) (values : List (Option String)) : List (String × Option String) :=
  match values.filterMap id with
  | [] => [(name, none)]
  | present => present.map fun value => (name, some value)

/-- The pairs of a name and a value that the query parameters of a template are. -/
def queryPairs (t : Template) : List (String × Option String) :=
  t.queries.flatMap fun (name, values) => pairsOf name values

/-- The text of a pair. -/
def pairText : String × Option String → String
  | (name, none) => name
  | (name, some value) => name ++ "=" ++ value

theorem queryParts_eq (name : String) (values : List (Option String)) :
    queryParts name values = (pairsOf name values).map pairText := by
  unfold queryParts pairsOf
  cases values.filterMap id with
  | nil => rfl
  | cons value rest =>
      dsimp only
      rw [List.map_map]
      rfl

theorem queryLine_eq (t : Template) :
    t.queryLine = "&".intercalate (t.queryPairs.map pairText) := by
  have hparts : ∀ entry : String × List (Option String),
      queryParts entry.1 entry.2 = (pairsOf entry.1 entry.2).map pairText :=
    fun entry => queryParts_eq entry.1 entry.2
  unfold queryLine queryPairs
  rw [List.map_flatMap]
  simp only [hparts]

theorem fst_of_mem_pairsOf {name : String} {values : List (Option String)}
    {pair : String × Option String} (hpair : pair ∈ pairsOf name values) : pair.1 = name := by
  unfold pairsOf at hpair
  split at hpair
  · rw [List.mem_singleton.mp hpair]
  · obtain ⟨value, -, rfl⟩ := List.mem_map.mp hpair
    rfl

theorem pairsOf_ne_nil (name : String) (values : List (Option String)) : pairsOf name values ≠ [] := by
  unfold pairsOf
  split
  next => exact List.cons_ne_nil _ _
  next hpresent => exact mt List.map_eq_nil_iff.mp hpresent

/-- Every parameter has a pair, and every pair is one of a parameter. -/
theorem mem_keys_queries_iff {t : Template} {name : String} :
    name ∈ t.queries.keys ↔ ∃ pair ∈ t.queryPairs, pair.1 = name := by
  constructor
  · intro hname
    obtain ⟨entry, hentry, rfl⟩ := List.mem_map.mp hname
    obtain ⟨pair, hpair⟩ := List.exists_mem_of_ne_nil _ (pairsOf_ne_nil entry.1 entry.2)
    exact ⟨pair, List.mem_flatMap.mpr ⟨entry, hentry, hpair⟩, fst_of_mem_pairsOf hpair⟩
  · rintro ⟨pair, hpair, rfl⟩
    obtain ⟨entry, hentry, hpair⟩ := List.mem_flatMap.mp hpair
    rw [fst_of_mem_pairsOf hpair]
    exact List.mem_map_of_mem hentry

/-- The value of a pair is a value of a parameter. -/
theorem exists_value_of_mem_queryPairs {t : Template} {name value : String}
    (hpair : (name, some value) ∈ t.queryPairs) : ∃ entry ∈ t.queries, some value ∈ entry.2 := by
  obtain ⟨entry, hentry, hpair⟩ := List.mem_flatMap.mp hpair
  refine ⟨entry, hentry, ?_⟩
  change (name, some value) ∈ pairsOf entry.1 entry.2 at hpair
  unfold pairsOf at hpair
  split at hpair
  · cases (Prod.mk.inj (List.mem_singleton.mp hpair)).2
  · obtain ⟨present, hpresent, heq⟩ := List.mem_map.mp hpair
    obtain ⟨item, hitem, rfl⟩ := List.mem_filterMap.mp hpresent
    rwa [← (Prod.mk.inj heq).2]

/-! ## Parameters that are read back -/

/-- A query parameter whose text is read back: the marks stand nowhere but between pairs. -/
structure IsReadable (name : String) (values : List (Option String)) : Prop where
  name_noMark : '&' ∉ name.toList
  name_noEquals : '=' ∉ name.toList
  value_noMark : ∀ value, some value ∈ values → '&' ∉ value.toList
  nonempty : values ≠ []
  /-- Without a name there are values only, since nothing at all is no part of a query. -/
  unnamed : name = "" → none ∉ values

/-- Query parameters that are read back, each under a name of its own. -/
structure AreReadable (queries : Queries) : Prop where
  readable : ∀ entry ∈ queries, IsReadable entry.1 entry.2
  nodup : queries.keys.Nodup

/-- A pair that is read back from its text. -/
structure IsReadablePair (pair : String × Option String) : Prop where
  noMark : '&' ∉ (pairText pair).toList
  name_noEquals : '=' ∉ pair.1.toList
  nonempty : pair ≠ ("", none)

theorem IsReadable.pair {name : String} {values : List (Option String)}
    (hreadable : IsReadable name values) {pair : String × Option String}
    (hpair : pair ∈ pairsOf name values) : IsReadablePair pair := by
  unfold pairsOf at hpair
  split at hpair
  next hnone =>
    rw [List.mem_singleton.mp hpair]
    refine ⟨hreadable.name_noMark, hreadable.name_noEquals, ?_⟩
    rintro heq
    -- A value that is not missing would be among the present ones.
    obtain ⟨value, hvalue⟩ := List.exists_mem_of_ne_nil _ hreadable.nonempty
    cases value with
    | none => exact hreadable.unnamed (congrArg Prod.fst heq) hvalue
    | some text =>
        have hmem : text ∈ values.filterMap id := List.mem_filterMap.mpr ⟨_, hvalue, rfl⟩
        rw [hnone] at hmem
        cases hmem
  next =>
    obtain ⟨value, hvalue, rfl⟩ := List.mem_map.mp hpair
    obtain ⟨present, hpresent, heq⟩ := List.mem_filterMap.mp hvalue
    have hsome : some value ∈ values := by
      rw [show present = some value from heq] at hpresent
      exact hpresent
    refine ⟨?_, hreadable.name_noEquals, fun habsurd => by cases habsurd⟩
    simp only [pairText, String.toList_append, List.mem_append, not_or]
    exact ⟨⟨hreadable.name_noMark, by decide⟩, hreadable.value_noMark value hsome⟩

/-- Cutting the text of a pair at the first `=` gives the pair back. -/
theorem queryPair_of_bare {part : List Char} (hbare : '=' ∉ part) :
    queryPair part = (String.ofList part, none) := by
  simp [queryPair, Text.cut_of_not_mem hbare]

theorem queryPair_append {name : List Char} (hname : '=' ∉ name) (value : List Char) :
    queryPair (name ++ '=' :: value) = (String.ofList name, some (String.ofList value)) := by
  simp [queryPair, Text.cut_append hname]

theorem queryPair_pairText {pair : String × Option String} (hname : '=' ∉ pair.1.toList) :
    queryPair (pairText pair).toList = pair := by
  obtain ⟨name, value⟩ := pair
  cases value with
  | none => rw [pairText, queryPair_of_bare hname, String.ofList_toList]
  | some value =>
      have htext : (pairText (name, some value)).toList = name.toList ++ '=' :: value.toList := by
        simp [pairText]
      rw [htext, queryPair_append hname, String.ofList_toList, String.ofList_toList]

theorem mem_toList_pairText {pair : String × Option String} {c : Char} (hc : c ≠ '=') :
    c ∈ (pairText pair).toList ↔ c ∈ pair.1.toList ∨ ∃ value, pair.2 = some value ∧ c ∈ value.toList := by
  obtain ⟨name, _ | value⟩ := pair
  · simp [pairText]
  · simp [pairText, hc]

theorem IsReadablePair.name_noMark {pair : String × Option String} (hpair : IsReadablePair pair) :
    '&' ∉ pair.1.toList := fun hmem =>
  hpair.noMark ((mem_toList_pairText (by decide)).mpr (Or.inl hmem))

theorem IsReadablePair.value_noMark {pair : String × Option String} (hpair : IsReadablePair pair)
    {value : String} (hvalue : pair.2 = some value) : '&' ∉ value.toList := fun hmem =>
  hpair.noMark ((mem_toList_pairText (by decide)).mpr (Or.inr ⟨value, hvalue, hmem⟩))

/-- Whatever stands in the query, marks between its pairs apart, stands in a name or a value. -/
theorem mem_queryLine_iff {t : Template} {c : Char} (hc : c ≠ '=') (hmark : c ≠ '&') :
    c ∈ t.queryLine.toList ↔ (∃ name ∈ t.queries.keys, c ∈ name.toList) ∨
      ∃ pair ∈ t.queryPairs, ∃ value, pair.2 = some value ∧ c ∈ value.toList := by
  have hpairs : c ∈ t.queryLine.toList ↔ ∃ pair ∈ t.queryPairs, c ∈ (pairText pair).toList := by
    rw [queryLine_eq, String.toList_intercalate]
    constructor
    · intro hmem
      rcases Text.mem_intercalate hmem with hbetween | ⟨part, hpart, hmem⟩
      · exact absurd (List.mem_singleton.mp hbetween) hmark
      · obtain ⟨text, htext, rfl⟩ := List.mem_map.mp hpart
        obtain ⟨pair, hpair, rfl⟩ := List.mem_map.mp htext
        exact ⟨pair, hpair, hmem⟩
    · rintro ⟨pair, hpair, hmem⟩
      exact Text.mem_intercalate_of_mem (List.mem_map_of_mem (List.mem_map_of_mem hpair)) hmem
  simp only [hpairs, mem_toList_pairText hc, mem_keys_queries_iff, and_or_left, exists_or]
  refine or_congr_left ⟨fun ⟨pair, hpair, hmem⟩ => ⟨_, ⟨pair, hpair, rfl⟩, hmem⟩, ?_⟩
  rintro ⟨_, ⟨pair, hpair, rfl⟩, hmem⟩
  exact ⟨pair, hpair, hmem⟩

/-- The text of the pair that a part is parsed into is the part. -/
theorem pairText_queryPair (part : List Char) : (pairText (queryPair part)).toList = part := by
  have hcut := Text.cut_fst_append '=' part
  change (pairText (String.ofList (Text.cut '=' part).1,
    (Text.cut '=' part).2.map String.ofList)).toList = part
  cases hvalue : (Text.cut '=' part).2 with
  | none =>
      rw [hvalue, List.append_nil] at hcut
      rw [Option.map_none, pairText, String.toList_ofList, hcut]
  | some value =>
      rw [hvalue] at hcut
      simp only [Option.map_some, pairText, String.toList_append, String.toList_ofList]
      rw [List.append_assoc]
      exact hcut

theorem isEmpty_pairText {pair : String × Option String} (hpair : IsReadablePair pair) :
    (pairText pair).toList.isEmpty = false := by
  obtain ⟨name, value⟩ := pair
  refine Bool.eq_false_iff.mpr fun hempty => ?_
  have hnil : (pairText (name, value)).toList = [] := List.isEmpty_iff.mp hempty
  cases value with
  | none => exact hpair.nonempty (Prod.ext (String.toList_eq_nil_iff.mp hnil) rfl)
  | some value => simp [pairText] at hnil

/-! ## Splitting the text -/

/-- Parts with marks between them are split one by one. -/
theorem splitQuery_intercalate (parts : List (List Char)) :
    splitQuery (List.intercalate ['&'] parts) = parts.flatMap splitQuery := by
  induction parts with
  | nil => rfl
  | cons part rest ih =>
      cases rest with
      | nil => simp
      | cons next rest =>
          rw [List.intercalate_cons_cons, List.append_assoc, List.singleton_append,
            List.flatMap_cons, ← ih]
          unfold splitQuery
          rw [Text.splitOn_append, List.filter_append, List.map_append]

theorem splitQuery_pairText {pair : String × Option String} (hpair : IsReadablePair pair) :
    splitQuery (pairText pair).toList = [pair] := by
  simp [splitQuery, Text.splitOn_of_not_mem hpair.noMark, isEmpty_pairText hpair,
    queryPair_pairText hpair.name_noEquals]

section Splitting

variable {t : Template} (hreadable : AreReadable t.queries)

include hreadable in
theorem isReadablePair_of_mem {pair : String × Option String} (hpair : pair ∈ t.queryPairs) :
    IsReadablePair pair := by
  obtain ⟨entry, hentry, hpair⟩ := List.mem_flatMap.mp hpair
  exact (hreadable.readable entry hentry).pair hpair

/-- The parts of the query text are the texts of the pairs. -/
theorem splitOn_queryLine (hsome : t.queryPairs ≠ [])
    (hmarks : ∀ pair ∈ t.queryPairs, '&' ∉ (pairText pair).toList) :
    Text.splitOn '&' t.queryLine.toList = t.queryPairs.map fun pair => (pairText pair).toList := by
  rw [queryLine_eq, String.toList_intercalate, List.map_map]
  refine Text.splitOn_intercalate (mt List.map_eq_nil_iff.mp hsome) ?_
  intro piece hpiece
  obtain ⟨pair, hpair, rfl⟩ := List.mem_map.mp hpiece
  exact hmarks pair hpair

/--
Splitting the query text at every `&` and each part at its first `=` gives the pairs exactly
if their names hold neither mark, as long as their values do not hold the first one.
-/
theorem map_queryPair_splitOn_iff (hsome : t.queryPairs ≠ [])
    (hvalues : ∀ pair ∈ t.queryPairs, ∀ value, pair.2 = some value → '&' ∉ value.toList) :
    (Text.splitOn '&' t.queryLine.toList).map queryPair = t.queryPairs ↔
      ∀ name ∈ t.queries.keys, '&' ∉ name.toList ∧ '=' ∉ name.toList := by
  have hpairs : (∀ name ∈ t.queries.keys, '&' ∉ name.toList ∧ '=' ∉ name.toList) ↔
      ∀ pair ∈ t.queryPairs, '&' ∉ pair.1.toList ∧ '=' ∉ pair.1.toList := by
    simp only [mem_keys_queries_iff, forall_exists_index, and_imp, forall_apply_eq_imp_iff₂]
  rw [hpairs]
  constructor
  · -- Each pair is read off a part, and no part holds a mark that it was found by.
    intro hsplit pair hpair
    rw [← hsplit] at hpair
    obtain ⟨part, hpart, rfl⟩ := List.mem_map.mp hpair
    refine ⟨fun hmem => Text.not_mem_of_mem_splitOn hpart ?_, ?_⟩
    · rw [← pairText_queryPair part]
      exact (mem_toList_pairText (by decide)).mpr (Or.inl hmem)
    · change '=' ∉ (String.ofList (Text.cut '=' part).1).toList
      rw [String.toList_ofList]
      exact Text.not_mem_cut_fst '=' part
  · intro hnames
    have hmarks : ∀ pair ∈ t.queryPairs, '&' ∉ (pairText pair).toList := by
      intro pair hpair hmem
      rcases (mem_toList_pairText (by decide)).mp hmem with hname | ⟨value, hvalue, hmem⟩
      · exact (hnames pair hpair).1 hname
      · exact hvalues pair hpair value hvalue hmem
    rw [splitOn_queryLine hsome hmarks, List.map_map]
    refine (List.map_congr_left ?_).trans (List.map_id t.queryPairs)
    intro pair hpair
    exact queryPair_pairText (hnames pair hpair).2

include hreadable in
/-- Readable parameters are read back as the pairs that they are. -/
theorem map_queryPair_splitOn (hsome : t.queryPairs ≠ []) :
    (Text.splitOn '&' t.queryLine.toList).map queryPair = t.queryPairs := by
  refine (map_queryPair_splitOn_iff hsome ?_).mpr ?_
  · intro pair hpair value hvalue
    exact (isReadablePair_of_mem hreadable hpair).value_noMark hvalue
  · intro name hname
    obtain ⟨pair, hpair, rfl⟩ := mem_keys_queries_iff.mp hname
    have hpair := isReadablePair_of_mem hreadable hpair
    exact ⟨hpair.name_noMark, hpair.name_noEquals⟩

theorem queryLine_of_no_pairs (hnone : t.queryPairs = []) : t.queryLine = "" := by
  rw [queryLine_eq, hnone]
  rfl

include hreadable in
/-- Parsing the query text gives the pairs, also when there are none. -/
theorem splitQuery_queryLine : splitQuery t.queryLine.toList = t.queryPairs := by
  by_cases hnone : t.queryPairs = []
  · rw [queryLine_of_no_pairs hnone, hnone]
    rfl
  · -- Parsing leaves empty parts out, but no pair has an empty text.
    have hkept : (Text.splitOn '&' t.queryLine.toList).filter (!·.isEmpty) =
        Text.splitOn '&' t.queryLine.toList := by
      refine List.filter_eq_self.mpr ?_
      intro part hpart
      rw [splitOn_queryLine hnone fun pair hpair => (isReadablePair_of_mem hreadable hpair).noMark] at hpart
      obtain ⟨pair, hpair, rfl⟩ := List.mem_map.mp hpart
      rw [isEmpty_pairText (isReadablePair_of_mem hreadable hpair)]
      rfl
    unfold splitQuery
    rw [hkept, map_queryPair_splitOn hreadable hnone]

end Splitting

/-! ## Parsed parameters -/

/-- What is parsed from a query text is read back. -/
theorem isReadablePair_of_mem_splitQuery {text : List Char} {pair : String × Option String}
    (hpair : pair ∈ splitQuery text) : IsReadablePair pair := by
  obtain ⟨part, hpart, rfl⟩ := List.mem_map.mp hpair
  obtain ⟨hpart, hsome⟩ := List.mem_filter.mp hpart
  refine ⟨?_, ?_, ?_⟩
  · rw [pairText_queryPair]
    exact Text.not_mem_of_mem_splitOn hpart
  · change '=' ∉ (String.ofList (Text.cut '=' part).1).toList
    rw [String.toList_ofList]
    exact Text.not_mem_cut_fst '=' part
  · intro heq
    have htext := pairText_queryPair part
    rw [heq] at htext
    rw [← htext] at hsome
    cases hsome

theorem isReadable_append {name : String} {old values : List (Option String)}
    (hold : IsReadable name old) (hvalues : IsReadable name values) :
    IsReadable name (old ++ values) where
  name_noMark := hold.name_noMark
  name_noEquals := hold.name_noEquals
  value_noMark value hvalue := by
    rcases List.mem_append.mp hvalue with hvalue | hvalue
    · exact hold.value_noMark value hvalue
    · exact hvalues.value_noMark value hvalue
  nonempty := List.append_ne_nil_of_left_ne_nil hold.nonempty values
  unnamed hname hmem := by
    rcases List.mem_append.mp hmem with hmem | hmem
    · exact hold.unnamed hname hmem
    · exact hvalues.unnamed hname hmem

theorem IsReadablePair.isReadable {pair : String × Option String} (hpair : IsReadablePair pair) :
    IsReadable pair.1 [pair.2] := by
  refine ⟨hpair.name_noMark, hpair.name_noEquals, ?_, List.cons_ne_nil _ _, ?_⟩
  · intro text htext
    exact hpair.value_noMark (List.mem_singleton.mp htext).symm
  · intro hname hmem
    exact hpair.nonempty (Prod.ext hname (List.mem_singleton.mp hmem).symm)

theorem areReadable_extend {queries : Queries} (hqueries : AreReadable queries)
    {name : String} {values : List (Option String)} (hvalues : IsReadable name values) :
    AreReadable (queries.extend name values) := by
  refine ⟨?_, Entries.nodup_keys_extend hqueries.nodup⟩
  intro entry hentry
  rcases Entries.mem_extend hentry with hold | rfl | ⟨old, hold, rfl⟩
  · exact hqueries.readable entry hold
  · exact hvalues
  · exact isReadable_append (hqueries.readable _ hold) hvalues

theorem areReadable_addPairs {queries : Queries} (hqueries : AreReadable queries)
    {pairs : List (String × Option String)} (hpairs : ∀ pair ∈ pairs, IsReadablePair pair) :
    AreReadable (addPairs pairs queries) := by
  induction pairs generalizing queries with
  | nil => exact hqueries
  | cons pair rest ih =>
      exact ih (areReadable_extend hqueries (hpairs pair List.mem_cons_self).isReadable) fun p hp =>
        hpairs p (List.mem_cons_of_mem _ hp)

end Template

end HttpBinding
