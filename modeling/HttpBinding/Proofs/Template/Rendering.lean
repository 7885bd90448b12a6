import HttpBinding.Proofs.Entries
import HttpBinding.Proofs.Template.Queries

/-!
# Rendered queries are parsed into themselves

Parsing a query brings the values of a name together where the name occurs first, and
rendering leaves out bare names that have values beside them. What comes out is the query
name after name, each with its values in order or else bare and once. Such a query has
nothing left to bring together or to leave out, so that parsing and rendering it again
changes nothing.
-/

namespace HttpBinding.Template

/-- The names of pairs, each where it occurs first. -/
def namesOf (pairs : List (String × Option String)) : List String :=
  (pairs.map Prod.fst).eraseDups

/-- The values that pairs give a name, in order. A bare name is given none. -/
def valuesGiven (name : String) (pairs : List (String × Option String)) : List String :=
  pairs.filterMap fun pair => if pair.1 = name then pair.2 else none

/-- Pairs name after name: the values that are given to each, or else the bare name, once. -/
def nameByName (pairs : List (String × Option String)) : List (String × Option String) :=
  (namesOf pairs).flatMap fun name =>
    match valuesGiven name pairs with
    | [] => [(name, none)]
    | values => values.map fun value => (name, some value)

variable {pairs : List (String × Option String)} {queries : Queries} {name : String}

theorem valuesGiven_append (name : String) (first second : List (String × Option String)) :
    valuesGiven name (first ++ second) = valuesGiven name first ++ valuesGiven name second :=
  List.filterMap_append

theorem valuesGiven_eq (name : String) (pairs : List (String × Option String)) :
    valuesGiven name pairs = ((pairs.filter (·.1 = name)).map Prod.snd).filterMap id := by
  unfold valuesGiven
  rw [List.filterMap_map, List.filterMap_filter]
  congr 1
  funext pair
  by_cases hname : pair.1 = name <;> simp [hname]

/-! ## Pairs of a table -/

/-- The pairs of parameters, parameter after parameter. -/
def tablePairs (queries : Queries) : List (String × Option String) :=
  queries.flatMap fun (name, values) => pairsOf name values

theorem map_fst_pairsOf (name : String) (values : List (Option String)) :
    ∃ more, (pairsOf name values).map Prod.fst = name :: List.replicate more name := by
  have hsame : ∀ other ∈ (pairsOf name values).map Prod.fst, other = name := by
    intro other hother
    obtain ⟨pair, hpair, rfl⟩ := List.mem_map.mp hother
    exact fst_of_mem_pairsOf hpair
  have hreplicate := List.eq_replicate_of_mem hsame
  rw [List.length_map] at hreplicate
  have hpos : 0 < (pairsOf name values).length := List.length_pos_iff.mpr (pairsOf_ne_nil name values)
  refine ⟨(pairsOf name values).length - 1, hreplicate.trans ?_⟩
  rw [← List.replicate_succ, Nat.sub_add_cancel hpos]

theorem valuesGiven_pairsOf (name other : String) (values : List (Option String)) :
    valuesGiven name (pairsOf other values) = if other = name then values.filterMap id else [] := by
  unfold pairsOf valuesGiven
  by_cases hname : other = name
  · cases values.filterMap id with
    | nil => simp [hname]
    | cons value rest => simp [hname, List.filterMap_map]
  · cases values.filterMap id with
    | nil => simp [hname]
    | cons value rest => simp [hname]

theorem mem_map_fst_tablePairs_iff :
    name ∈ (tablePairs queries).map Prod.fst ↔ name ∈ queries.keys := by
  rw [mem_keys_queries_iff (t := { queries := queries }), List.mem_map]
  rfl

/-- The names of the pairs of a table are its keys. -/
theorem namesOf_tablePairs (hnodup : queries.keys.Nodup) : namesOf (tablePairs queries) = queries.keys := by
  induction queries with
  | nil => rfl
  | cons entry rest ih =>
      obtain ⟨hfirst, hrest⟩ := List.nodup_cons.mp hnodup
      have hnames := ih hrest
      unfold namesOf at hnames ⊢
      obtain ⟨more, hmore⟩ := map_fst_pairsOf entry.1 entry.2
      have hsplit : (tablePairs (entry :: rest)).map Prod.fst =
          entry.1 :: (List.replicate more entry.1 ++ (tablePairs rest).map Prod.fst) := by
        rw [tablePairs, List.flatMap_cons, List.map_append, hmore, List.cons_append]
        rfl
      -- Of the first key only its first occurrence is kept, and it does not occur later.
      have hother : ∀ name ∈ (tablePairs rest).map Prod.fst, name ≠ entry.1 := by
        rintro name hname rfl
        exact hfirst (mem_map_fst_tablePairs_iff.mp hname)
      have hkept : (List.replicate more entry.1 ++ (tablePairs rest).map Prod.fst).filter
          (fun name => !name == entry.1) = (tablePairs rest).map Prod.fst := by
        rw [List.filter_append, List.filter_eq_nil_iff.mpr (by simp), List.nil_append,
          List.filter_eq_self.mpr (by simpa using hother)]
      rw [hsplit, List.eraseDups_cons, hkept, hnames]
      rfl

/-- The values of the pairs of a table are those that it has under the name. -/
theorem valuesGiven_tablePairs (hnodup : queries.keys.Nodup) (name : String) :
    valuesGiven name (tablePairs queries) = ((queries.lookup name).getD []).filterMap id := by
  induction queries with
  | nil => rfl
  | cons entry rest ih =>
      obtain ⟨hfirst, hrest⟩ := List.nodup_cons.mp hnodup
      rw [tablePairs, List.flatMap_cons, valuesGiven_append, valuesGiven_pairsOf, ← tablePairs, ih hrest,
        Entries.lookup_cons]
      by_cases hname : entry.1 = name
      · have hnone : rest.lookup name = none := Entries.lookup_eq_none_iff.mpr (hname ▸ hfirst)
        simp [hname, hnone]
      · simp [hname, Ne.symm hname]

theorem pairsOf_eq (name : String) (values : List (Option String)) :
    pairsOf name values =
      match values.filterMap id with
      | [] => [(name, none)]
      | values => values.map fun value => (name, some value) := rfl

/-! ## Parsing and rendering -/

/-- Pairs that are parsed are rendered name after name. -/
theorem tablePairs_gathered (pairs : List (String × Option String)) :
    tablePairs (Entries.gathered pairs) = nameByName pairs := by
  rw [Entries.eq_map_keys (Entries.nodup_keys_gathered pairs), Entries.keys_gathered]
  unfold tablePairs nameByName
  rw [List.flatMap_map]
  simp only [Entries.lookup_gathered, pairsOf_eq, ← valuesGiven_eq]
  rfl

theorem namesOf_nameByName (pairs : List (String × Option String)) :
    namesOf (nameByName pairs) = namesOf pairs := by
  rw [← tablePairs_gathered, namesOf_tablePairs (Entries.nodup_keys_gathered pairs),
    Entries.keys_gathered]
  rfl

theorem valuesGiven_nameByName (name : String) (pairs : List (String × Option String)) :
    valuesGiven name (nameByName pairs) = valuesGiven name pairs := by
  rw [← tablePairs_gathered, valuesGiven_tablePairs (Entries.nodup_keys_gathered pairs),
    Entries.lookup_gathered, ← valuesGiven_eq]

/-- Nothing is left to bring together. -/
theorem nameByName_nameByName (pairs : List (String × Option String)) :
    nameByName (nameByName pairs) = nameByName pairs := by
  rw [nameByName, namesOf_nameByName]
  simp only [valuesGiven_nameByName]
  rfl

/-- Under a name that is only ever bare there is one bare pair. -/
theorem filter_nameByName_of_bare (hname : name ∈ namesOf pairs) (hbare : valuesGiven name pairs = []) :
    (nameByName pairs).filter (·.1 = name) = [(name, none)] := by
  obtain ⟨before, after, hsplit⟩ := List.append_of_mem hname
  have hnodup : (namesOf pairs).Nodup := by
    have hkeys := Entries.nodup_keys_gathered pairs
    rwa [Entries.keys_gathered] at hkeys
  rw [hsplit] at hnodup
  obtain ⟨hbefore, hafter⟩ := not_or.mp (mt List.mem_append.mpr (List.nodup_middle.mp hnodup).notMem)
  have hother : ∀ names : List String, name ∉ names →
      ((names.flatMap fun other =>
        match valuesGiven other pairs with
        | [] => [(other, none)]
        | values => values.map fun value => (other, some value)).filter (·.1 = name)) = [] := by
    intro names hnames
    refine List.filter_eq_nil_iff.mpr ?_
    intro pair hpair
    obtain ⟨other, hother, hpair⟩ := List.mem_flatMap.mp hpair
    have hfst : pair.1 = other := by
      split at hpair
      · rw [List.mem_singleton.mp hpair]
      · obtain ⟨value, -, rfl⟩ := List.mem_map.mp hpair
        rfl
    rw [hfst, decide_eq_true_iff]
    rintro rfl
    exact hnames hother
  unfold nameByName
  rw [hsplit, List.flatMap_append, List.flatMap_cons, hbare, List.filter_append, List.filter_append,
    hother before hbefore, hother after hafter]
  simp

/-! ## The query of a template that has no other -/

/-- What stands after the `?` of an address without a query before is all that is parsed. -/
theorem queryPairs_uri (query : String) :
    (uri {} ("/x?" ++ query) false).queryPairs = nameByName (splitQuery query.toList) := by
  have hcut : Text.cut '?' ("/x?" ++ query).toList = (['/', 'x'], some query.toList) := by
    have hpath : '?' ∉ ['/', 'x'] := by decide
    rw [String.toList_append]
    exact Text.cut_append hpath query.toList
  unfold uri
  rw [hcut]
  exact tablePairs_gathered (splitQuery query.toList)

theorem areReadable_uri (query : String) : AreReadable (uri {} ("/x?" ++ query) false).queries := by
  have hempty : AreReadable ([] : Queries) :=
    ⟨fun _ hentry => (List.not_mem_nil hentry).elim, List.nodup_nil⟩
  exact areReadable_addPairs hempty fun _ => isReadablePair_of_mem_splitQuery

/-- The names that pairs have only without a value. -/
def IsOnlyBare (name : String) (pairs : List (String × Option String)) : Prop :=
  (name, none) ∈ pairs ∧ valuesGiven name pairs = []

/--
A query that was parsed is written name after name, and parsing that text changes nothing any
more: names keep the order in which they first occurred, each has the values that it was
given, in order, and a name that was only bare is there once, without a value.
-/
theorem queryLine_uri_parsed (query : String) :
    let line := (uri {} ("/x?" ++ query) false).queryLine
    (uri {} ("/x?" ++ line) false).queryLine = line ∧
      splitQuery line.toList = nameByName (splitQuery query.toList) ∧
      namesOf (splitQuery line.toList) = namesOf (splitQuery query.toList) ∧
      (∀ name, valuesGiven name (splitQuery line.toList) = valuesGiven name (splitQuery query.toList)) ∧
      ∀ name, IsOnlyBare name (splitQuery query.toList) →
        (splitQuery line.toList).filter (·.1 = name) = [(name, none)] := by
  intro line
  have hpairs : splitQuery line.toList = nameByName (splitQuery query.toList) :=
    (splitQuery_queryLine (areReadable_uri query)).trans (queryPairs_uri query)
  refine ⟨?_, hpairs, ?_, ?_, ?_⟩
  · calc (uri {} ("/x?" ++ line) false).queryLine
        = "&".intercalate ((nameByName (splitQuery line.toList)).map pairText) := by
          rw [queryLine_eq, queryPairs_uri]
      _ = "&".intercalate ((nameByName (splitQuery query.toList)).map pairText) := by
          rw [hpairs, nameByName_nameByName]
      _ = line := by rw [← queryPairs_uri, ← queryLine_eq]
  · rw [hpairs, namesOf_nameByName]
  · intro name
    rw [hpairs, valuesGiven_nameByName]
  · rintro name ⟨hname, hbare⟩
    rw [hpairs]
    exact filter_nameByName_of_bare (List.mem_eraseDups.mpr (List.mem_map_of_mem hname)) hbare

example : (uri {} "/x?b=2&a&&b&b=1=?&a" false).queryLine = "b=2&b=1=?&a" := by decide +kernel

end HttpBinding.Template
