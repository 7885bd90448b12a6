import HttpBinding.Plan.Filling
import HttpBinding.Proofs.Entries
import HttpBinding.Proofs.Octets.Percent
import HttpBinding.Proofs.Template.Queries
import HttpBinding.Schema.Adapters

/-!
# Setting query parameters by a map

A query map sets one parameter after another, each under its encoded name. As long as
no two parameters of a template have the same decoded name, setting several of them one
by one is the same as setting all of them at once: every parameter that the map speaks
of is replaced where it stands or taken out, every other one stays, and what is new
comes at the end in the order of the map. In the text of the query the map is read
back as it was given.
-/

namespace HttpBinding

namespace Template

/-- The decoded names of query parameters. -/
def plainNames (queries : Queries) : List String :=
  queries.map fun entry => Percent.decode entry.1

/-- A parameter as it is written, given its name and its values in plain text. -/
def writtenEntry (setting : String × List (Option String)) : String × List (Option String) :=
  (Percent.encode setting.1, setting.2.map (Option.map Percent.encode))

/-- What takes the place of a parameter once others are set. -/
def slotAfter (settings : Queries) (entry : String × List (Option String)) :
    Option (String × List (Option String)) :=
  match settings.find? fun setting => setting.1 = Percent.decode entry.1 with
  | none => some entry
  | some setting => if setting.2.isEmpty then none else some (writtenEntry setting)

/-- The parameters that are set and have no place yet. -/
def arrivals (settings queries : Queries) : Queries :=
  (settings.filter fun setting => setting.2 ≠ [] ∧ setting.1 ∉ plainNames queries).map writtenEntry

/-- Parameters after others are set all at once. -/
def setAll (settings queries : Queries) : Queries :=
  queries.filterMap (slotAfter settings) ++ arrivals settings queries

section Slots

variable {settings : Queries} {setting entry entry' : String × List (Option String)}

@[simp]
theorem decode_writtenEntry (setting : String × List (Option String)) :
    Percent.decode (writtenEntry setting).1 = setting.1 :=
  Percent.decode_encode setting.1

@[simp]
theorem isEmpty_writtenEntry (setting : String × List (Option String)) :
    (writtenEntry setting).2.isEmpty = setting.2.isEmpty :=
  List.isEmpty_map

theorem slotAfter_of_not_mem (hname : Percent.decode entry.1 ∉ settings.keys) :
    slotAfter settings entry = some entry := by
  have hnone : settings.find? (fun setting => setting.1 = Percent.decode entry.1) = none := by
    refine List.find?_eq_none.mpr ?_
    intro other hother
    have hne := Entries.fst_ne_of_not_mem hname hother
    simpa using hne
  unfold slotAfter
  rw [hnone]

theorem slotAfter_of_mem (hkeys : settings.keys.Nodup) (hsetting : setting ∈ settings)
    (hname : Percent.decode entry.1 = setting.1) :
    slotAfter settings entry = if setting.2.isEmpty then none else some (writtenEntry setting) := by
  unfold slotAfter
  rw [hname, Entries.find?_of_mem hkeys hsetting]

theorem decode_of_slotAfter (hslot : slotAfter settings entry = some entry') :
    Percent.decode entry'.1 = Percent.decode entry.1 := by
  unfold slotAfter at hslot
  split at hslot
  · obtain rfl := Option.some.inj hslot
    rfl
  next setting hfound =>
    split at hslot
    · cases hslot
    · obtain rfl := Option.some.inj hslot
      have hname : setting.1 = Percent.decode entry.1 := by simpa using List.find?_some hfound
      rw [decode_writtenEntry, hname]

theorem slotAfter_cons (setting : String × List (Option String)) (rest : Queries)
    (entry : String × List (Option String)) :
    slotAfter (setting :: rest) entry =
      if Percent.decode entry.1 = setting.1 then
        if setting.2.isEmpty then none else some (writtenEntry setting)
      else slotAfter rest entry := by
  unfold slotAfter
  rw [List.find?_cons]
  by_cases hname : setting.1 = Percent.decode entry.1
  · simp [hname]
  · simp [hname, Ne.symm hname]

theorem slotAfter_singleton (setting entry : String × List (Option String)) :
    slotAfter [setting] entry =
      if Percent.decode entry.1 = setting.1 then
        if setting.2.isEmpty then none else some (writtenEntry setting)
      else some entry :=
  slotAfter_cons setting [] entry

theorem slots_of_empty (queries : Queries) (hempty : setting.2 = []) :
    queries.filterMap (slotAfter [setting]) =
      queries.filter fun entry => Percent.decode entry.1 ≠ setting.1 := by
  rw [← List.filterMap_eq_filter]
  apply List.filterMap_congr
  intro entry hentry
  rw [slotAfter_singleton]
  by_cases hname : Percent.decode entry.1 = setting.1
  · rw [if_pos hname, if_pos (by simpa using hempty)]
    exact (Option.guard_eq_none_iff.mpr (by simpa using hname)).symm
  · simp [hname]

theorem slots_of_values (queries : Queries) (hvalues : setting.2 ≠ []) :
    queries.filterMap (slotAfter [setting]) =
      queries.map fun entry =>
        if Percent.decode entry.1 = setting.1 then writtenEntry setting else entry := by
  rw [← List.filterMap_eq_map]
  apply List.filterMap_congr
  intro entry hentry
  rw [slotAfter_singleton]
  by_cases hname : Percent.decode entry.1 = setting.1
  · simp [hname, hvalues]
  · simp [hname]

theorem plainNames_replaced (setting : String × List (Option String)) (queries : Queries) :
    plainNames (queries.map fun entry =>
      if Percent.decode entry.1 = setting.1 then writtenEntry setting else entry) =
        plainNames queries := by
  unfold plainNames
  rw [List.map_map]
  apply List.map_congr_left
  intro entry hentry
  by_cases hname : Percent.decode entry.1 = setting.1
  · simp [hname]
  · simp [hname]

end Slots

/-! ## One parameter -/

section One

variable {t : Template} {setting : String × List (Option String)}

theorem sameQuery_eq (a b : String) :
    sameQuery a b = decide (Percent.decode a = Percent.decode b) := by
  rw [Bool.eq_iff_iff, decide_eq_true_iff]
  unfold sameQuery
  rw [Bool.or_eq_true, beq_iff_eq, beq_iff_eq]
  constructor
  · rintro (rfl | hdecoded)
    · rfl
    · exact hdecoded
  · exact Or.inr

theorem queryKey?_eq (queries : Queries) (name : String) :
    queryKey? queries name =
      (queries.find? fun entry => decide (Percent.decode entry.1 = Percent.decode name)).map
        Prod.fst := by
  simp only [queryKey?, sameQuery_eq]

/-- A parameter whose name is not there yet is put at the end. -/
theorem queries_query_of_new (hnew : setting.1 ∉ plainNames t.queries) :
    (t.query (writtenEntry setting).1 (writtenEntry setting).2).queries =
      setAll [setting] t.queries := by
  have hother : ∀ entry ∈ t.queries, Percent.decode entry.1 ≠ setting.1 := by
    simpa [plainNames] using hnew
  have hnone : queryKey? t.queries (writtenEntry setting).1 = none := by
    rw [queryKey?_eq]
    simpa using hother
  have hslots : t.queries.filterMap (slotAfter [setting]) = t.queries := by
    refine (List.filterMap_congr ?_).trans List.filterMap_some
    intro entry hentry
    rw [slotAfter_singleton, if_neg (hother entry hentry)]
  have hkey : (writtenEntry setting).1 ∉ t.queries.keys := by
    intro hmem
    obtain ⟨entry, hentry, hname⟩ := List.mem_map.mp hmem
    exact hother entry hentry (by rw [hname, decode_writtenEntry])
  unfold query setAll
  dsimp only
  rw [hnone, hslots, isEmpty_writtenEntry]
  dsimp only
  by_cases hempty : setting.2 = []
  · simp [arrivals, hempty]
  · rw [if_neg (by simpa using hempty), Entries.put_of_not_mem hkey]
    simp [arrivals, hempty, hnew]

/-- A parameter whose name is there is replaced in place or taken out. -/
theorem queries_query_of_old (hnames : (plainNames t.queries).Nodup)
    (hold : setting.1 ∈ plainNames t.queries) :
    (t.query (writtenEntry setting).1 (writtenEntry setting).2).queries =
      setAll [setting] t.queries := by
  obtain ⟨found, hfound⟩ : ∃ found, t.queries.find? (fun entry =>
      decide (Percent.decode entry.1 = Percent.decode (writtenEntry setting).1)) = some found := by
    obtain ⟨entry, hentry, hname⟩ := List.mem_map.mp hold
    refine Option.isSome_iff_exists.mp (List.find?_isSome.mpr ⟨entry, hentry, ?_⟩)
    simpa using hname
  have hiff : ∀ entry ∈ t.queries, entry.1 = found.1 ↔ Percent.decode entry.1 = setting.1 := by
    intro entry hentry
    rw [Entries.fst_eq_iff_of_find? hnames hfound hentry, decode_writtenEntry]
  have hkey : queryKey? t.queries (writtenEntry setting).1 = some found.1 := by
    rw [queryKey?_eq, hfound]
    rfl
  have harrivals : arrivals [setting] t.queries = [] := by
    simp [arrivals, hold]
  unfold query setAll
  dsimp only
  rw [hkey, harrivals, List.append_nil, isEmpty_writtenEntry]
  dsimp only
  by_cases hempty : setting.2 = []
  · rw [if_pos (by simpa using hempty), slots_of_empty _ hempty,
      Entries.erase_of_find? hnames hfound, decode_writtenEntry]
  · -- The entry is replaced in place, whether its name is written as before or not.
    have hmap : (t.queries.map fun entry =>
        if entry.1 = found.1 then writtenEntry setting else entry) =
          t.queries.map fun entry =>
            if Percent.decode entry.1 = setting.1 then writtenEntry setting else entry := by
      apply List.map_congr_left
      intro entry hentry
      simp only [hiff entry hentry]
    rw [if_neg (by simpa using hempty), slots_of_values _ hempty, ← hmap]
    split
    next hspelling =>
      have hmem : (writtenEntry setting).1 ∈ t.queries.keys := by
        rw [← hspelling]
        exact List.mem_map_of_mem (List.mem_of_find?_eq_some hfound)
      rw [Entries.put_of_mem (Entries.nodup_keys_of_meanings hnames) hmem, hspelling]
    next hspelling =>
      -- The new spelling is no other entry's, since it has the decoded name of this one.
      have hrenamed : (plainNames (t.queries.map fun entry =>
          if entry.1 = found.1 then writtenEntry setting else entry)).Nodup := by
        rw [hmap, plainNames_replaced]
        exact hnames
      exact Entries.ofPairs_eq_self (Entries.nodup_keys_of_meanings hrenamed)

/-- Setting one parameter replaces it in place, takes it out or puts it at the end. -/
theorem queries_query (hnames : (plainNames t.queries).Nodup)
    (setting : String × List (Option String)) :
    (t.query (writtenEntry setting).1 (writtenEntry setting).2).queries =
      setAll [setting] t.queries := by
  by_cases hname : setting.1 ∈ plainNames t.queries
  · exact queries_query_of_old hnames hname
  · exact queries_query_of_new hname

end One

/-! ## Several parameters -/

section Several

variable {settings rest queries : Queries} {setting : String × List (Option String)}

theorem plainName_mem_of_arrival {entry : String × List (Option String)}
    (hentry : entry ∈ arrivals settings queries) :
    ∃ setting ∈ settings, entry = writtenEntry setting ∧ setting.2 ≠ [] ∧
      setting.1 ∉ plainNames queries := by
  obtain ⟨setting, hsetting, rfl⟩ := List.mem_map.mp hentry
  obtain ⟨hsetting, hnew⟩ := List.mem_filter.mp hsetting
  obtain ⟨hvalues, hname⟩ := of_decide_eq_true hnew
  exact ⟨setting, hsetting, rfl, hvalues, hname⟩

/-- Parameters that are not set stay as they are and where they are. -/
theorem filter_setAll (settings queries : Queries) :
    (setAll settings queries).filter (fun entry => Percent.decode entry.1 ∉ settings.keys) =
      queries.filter fun entry => Percent.decode entry.1 ∉ settings.keys := by
  have harrivals : (arrivals settings queries).filter
      (fun entry => Percent.decode entry.1 ∉ settings.keys) = [] := by
    refine List.filter_eq_nil_iff.mpr ?_
    intro entry hentry
    obtain ⟨setting, hsetting, rfl, -⟩ := plainName_mem_of_arrival hentry
    have hkey : setting.1 ∈ settings.keys := List.mem_map_of_mem hsetting
    simpa using hkey
  unfold setAll
  rw [List.filter_append, harrivals, List.append_nil, List.filter_filterMap,
    ← List.filterMap_eq_filter]
  apply List.filterMap_congr
  intro entry hentry
  by_cases hname : Percent.decode entry.1 ∈ settings.keys
  · have hgone : ∀ entry', slotAfter settings entry = some entry' →
        Percent.decode entry'.1 ∈ settings.keys := by
      intro entry' hslot
      rwa [decode_of_slotAfter hslot]
    have hfilter : (slotAfter settings entry).filter
        (fun entry => Percent.decode entry.1 ∉ settings.keys) = none := by
      refine Option.filter_eq_none_iff.mpr ?_
      intro entry' hslot
      simpa using hgone entry' hslot
    rw [hfilter]
    exact (Option.guard_eq_none_iff.mpr (by simpa using hname)).symm
  · simp [slotAfter_of_not_mem hname, hname]

theorem mem_plainNames_setAll {name : String} (hname : name ∉ settings.keys) :
    name ∈ plainNames (setAll settings queries) ↔ name ∈ plainNames queries := by
  have hiff : ∀ others : Queries, name ∈ plainNames others ↔
      name ∈ plainNames (others.filter fun entry => Percent.decode entry.1 ∉ settings.keys) := by
    intro others
    simp only [plainNames, List.mem_map, List.mem_filter, decide_eq_true_eq]
    constructor
    · rintro ⟨entry, hentry, rfl⟩
      exact ⟨entry, ⟨hentry, hname⟩, rfl⟩
    · rintro ⟨entry, ⟨hentry, -⟩, rfl⟩
      exact ⟨entry, hentry, rfl⟩
  rw [hiff, filter_setAll, ← hiff]

theorem plainNames_replaced_sublist (settings queries : Queries) :
    (plainNames (queries.filterMap (slotAfter settings))).Sublist (plainNames queries) := by
  induction queries with
  | nil => exact List.Sublist.slnil
  | cons entry rest ih =>
      cases hslot : slotAfter settings entry with
      | none =>
          rw [List.filterMap_cons_none hslot]
          exact ih.cons _
      | some entry' =>
          have hname := decode_of_slotAfter hslot
          rw [List.filterMap_cons_some hslot]
          simpa [plainNames, hname] using ih

/-- Setting parameters keeps the decoded names apart. -/
theorem nodup_plainNames_setAll (hnames : (plainNames queries).Nodup) (hkeys : settings.keys.Nodup) :
    (plainNames (setAll settings queries)).Nodup := by
  have hreplaced := plainNames_replaced_sublist settings queries
  have harrivals : plainNames (arrivals settings queries) = Entries.keys
      (settings.filter fun setting => setting.2 ≠ [] ∧ setting.1 ∉ plainNames queries) := by
    simp [plainNames, arrivals, Entries.keys, Function.comp_def]
  unfold setAll
  rw [plainNames, List.map_append, List.nodup_append]
  refine ⟨hreplaced.nodup hnames, ?_, ?_⟩
  · change (plainNames (arrivals settings queries)).Nodup
    rw [harrivals]
    exact (List.filter_sublist.map Prod.fst).nodup hkeys
  · intro a ha b hb
    obtain ⟨entry, hentry, rfl⟩ := List.mem_map.mp hb
    obtain ⟨setting, -, rfl, -, hnew⟩ := plainName_mem_of_arrival hentry
    rintro rfl
    rw [decode_writtenEntry] at ha
    exact hnew (hreplaced.subset ha)

theorem arrivals_cons (setting : String × List (Option String)) (rest queries : Queries) :
    arrivals (setting :: rest) queries = arrivals [setting] queries ++ arrivals rest queries := by
  unfold arrivals
  rw [← List.map_append, ← List.filter_append, List.singleton_append]

/-- One parameter and then the others is all of them. -/
theorem setAll_setAll (hsetting : setting.1 ∉ rest.keys) (queries : Queries) :
    setAll rest (setAll [setting] queries) = setAll (setting :: rest) queries := by
  have hwritten : slotAfter rest (writtenEntry setting) = some (writtenEntry setting) := by
    apply slotAfter_of_not_mem
    rwa [decode_writtenEntry]
  have hslots : (queries.filterMap (slotAfter [setting])).filterMap (slotAfter rest) =
      queries.filterMap (slotAfter (setting :: rest)) := by
    rw [List.filterMap_filterMap]
    apply List.filterMap_congr
    intro entry hentry
    rw [slotAfter_singleton, slotAfter_cons]
    by_cases hname : Percent.decode entry.1 = setting.1
    · by_cases hempty : setting.2 = []
      · simp [hname, hempty]
      · simp [hname, hempty, hwritten]
    · simp [hname]
  have hfirst : (arrivals [setting] queries).filterMap (slotAfter rest) =
      arrivals [setting] queries := by
    refine (List.filterMap_congr ?_).trans List.filterMap_some
    intro entry hentry
    obtain ⟨other, hother, rfl, -⟩ := plainName_mem_of_arrival hentry
    rw [List.mem_singleton.mp hother]
    exact hwritten
  -- Setting the first one brings no name of the others in and takes none out.
  have hothers : arrivals rest (setAll [setting] queries) = arrivals rest queries := by
    unfold arrivals
    congr 1
    apply List.filter_congr
    intro other hother
    have hne : other.1 ∉ Entries.keys [setting] := by
      intro hmem
      rw [Entries.keys, List.map_singleton, List.mem_singleton] at hmem
      exact hsetting (hmem ▸ List.mem_map_of_mem hother)
    simp [mem_plainNames_setAll hne]
  calc setAll rest (setAll [setting] queries)
      = (setAll [setting] queries).filterMap (slotAfter rest) ++ arrivals rest queries := by
        rw [setAll, hothers]
    _ = queries.filterMap (slotAfter (setting :: rest)) ++ arrivals [setting] queries ++
          arrivals rest queries := by
        rw [setAll, List.filterMap_append, hslots, hfirst]
    _ = setAll (setting :: rest) queries := by
        rw [setAll, arrivals_cons setting rest, List.append_assoc]

theorem mem_setAll (hkeys : settings.keys.Nodup) (hsetting : setting ∈ settings)
    (hvalues : setting.2 ≠ []) : writtenEntry setting ∈ setAll settings queries := by
  unfold setAll
  rw [List.mem_append]
  by_cases hname : setting.1 ∈ plainNames queries
  · obtain ⟨entry, hentry, hdecoded⟩ := List.mem_map.mp hname
    refine Or.inl (List.mem_filterMap.mpr ⟨entry, hentry, ?_⟩)
    rw [slotAfter_of_mem hkeys hsetting hdecoded, if_neg (by simpa using hvalues)]
  · have hnew : setting.2 ≠ [] ∧ setting.1 ∉ plainNames queries := ⟨hvalues, hname⟩
    exact Or.inr (List.mem_map_of_mem (List.mem_filter.mpr ⟨hsetting, decide_eq_true hnew⟩))

theorem not_mem_plainNames_setAll (hkeys : settings.keys.Nodup) (hsetting : setting ∈ settings)
    (hvalues : setting.2 = []) : setting.1 ∉ plainNames (setAll settings queries) := by
  intro hmem
  obtain ⟨entry, hentry, hname⟩ := List.mem_map.mp hmem
  rcases List.mem_append.mp hentry with hreplaced | harrival
  · obtain ⟨old, -, hslot⟩ := List.mem_filterMap.mp hreplaced
    have hold : Percent.decode old.1 = setting.1 := (decode_of_slotAfter hslot).symm.trans hname
    rw [slotAfter_of_mem hkeys hsetting hold, hvalues] at hslot
    simp at hslot
  · obtain ⟨other, hother, rfl, hne, -⟩ := plainName_mem_of_arrival harrival
    rw [decode_writtenEntry] at hname
    rw [List.inj_on_of_nodup_map hkeys hother hsetting hname] at hne
    exact hne hvalues

end Several

/-! ## The text of the query -/

section Reading

variable {setting : String × List (Option String)}

/-- What the text of one query parameter is split into. -/
def readPairs (entry : String × List (Option String)) : List (String × Option String) :=
  splitQuery ("&".intercalate (queryParts entry.1 entry.2)).toList

/-- A pair of a name and a value in plain text. -/
def plainPair (pair : String × Option String) : String × Option String :=
  (Percent.decode pair.1, pair.2.map Percent.decode)

/-- The query text is split into what the text of each parameter is split into. -/
theorem splitQuery_queryLine_eq (t : Template) :
    splitQuery t.queryLine.toList = t.queries.flatMap readPairs := by
  unfold queryLine readPairs
  simp only [String.toList_intercalate]
  change splitQuery (List.intercalate ['&'] _) =
    t.queries.flatMap fun entry => splitQuery (List.intercalate ['&'] _)
  simp only [splitQuery_intercalate]
  rw [List.flatMap_map, List.flatMap_assoc]
  simp only [List.flatMap_map]

theorem isReadable_writtenEntry (hname : setting.1 ≠ "") (hvalues : setting.2 ≠ []) :
    IsReadable (writtenEntry setting).1 (writtenEntry setting).2 where
  name_noMark := Percent.not_mem_encode rfl (by decide) rfl _
  name_noEquals := Percent.not_mem_encode rfl (by decide) rfl _
  value_noMark value hvalue := by
    obtain ⟨plain, -, hplain⟩ := List.mem_map.mp hvalue
    obtain ⟨text, -, rfl⟩ := Option.map_eq_some_iff.mp hplain
    exact Percent.not_mem_encode rfl (by decide) rfl _
  nonempty := by simpa [writtenEntry] using hvalues
  unnamed hempty := by
    have hdecoded := decode_writtenEntry setting
    have hnone : Percent.decode "" = "" := Percent.decode_encode ""
    rw [hempty, hnone] at hdecoded
    exact absurd hdecoded.symm hname

theorem pairsOf_writtenEntry (setting : String × List (Option String)) :
    pairsOf (writtenEntry setting).1 (writtenEntry setting).2 =
      (pairsOf setting.1 setting.2).map fun pair =>
        (Percent.encode pair.1, pair.2.map Percent.encode) := by
  have hpresent : (writtenEntry setting).2.filterMap id =
      (setting.2.filterMap id).map Percent.encode := by
    simp [writtenEntry, List.filterMap_map, List.map_filterMap]
  unfold pairsOf
  rw [hpresent]
  cases setting.2.filterMap id with
  | nil => rfl
  | cons first others => simp [writtenEntry, Function.comp_def]

/-- A parameter that was set is read back as its name with its values. -/
theorem plainPair_readPairs (hname : setting.1 ≠ "") (hvalues : setting.2 ≠ []) :
    (readPairs (writtenEntry setting)).map plainPair = pairsOf setting.1 setting.2 := by
  have hreadable : AreReadable [writtenEntry setting] := by
    refine ⟨?_, List.nodup_singleton _⟩
    intro entry hentry
    rw [List.mem_singleton.mp hentry]
    exact isReadable_writtenEntry hname hvalues
  have hread := splitQuery_queryLine (t := { queries := [writtenEntry setting] }) hreadable
  rw [splitQuery_queryLine_eq] at hread
  simp only [queryPairs, List.flatMap_singleton] at hread
  rw [hread, pairsOf_writtenEntry, List.map_map]
  refine (List.map_congr_left ?_).trans (List.map_id _)
  rintro ⟨name, value⟩ -
  cases value <;> simp [plainPair]

end Reading

/-! ## Query maps -/

/-- The texts that a value of a query map stands for: one for each member, and none for null. -/
def memberTexts (value : Value) : List (Option String) :=
  (value.members?.getD [value]).map fun member =>
    if member.isNull then none else some member.plainText

/-- What the entries of a query map with the given names set. -/
def settingsOf (map : Entries String Value) : Queries :=
  map.map fun entry => (entry.1, memberTexts entry.2)

/-- What a query map does to the template that it is added to. -/
structure SetsParameters (settings : Queries) (t t' : Template) : Prop where
  frame : t' = { t with queries := t'.queries }
  /-- Parameters that are there already keep their places; new ones come in the order of the map. -/
  slots : t'.queries = setAll settings t.queries
  once : ∀ setting ∈ settings, setting.2 ≠ [] →
    t'.queries.filter (fun entry => Percent.decode entry.1 = setting.1) = [writtenEntry setting]
  gone : ∀ setting ∈ settings, setting.2 = [] →
    ∀ entry ∈ t'.queries, Percent.decode entry.1 ≠ setting.1
  kept : t'.queries.filter (fun entry => Percent.decode entry.1 ∉ settings.keys) =
    t.queries.filter fun entry => Percent.decode entry.1 ∉ settings.keys
  line : splitQuery t'.queryLine.toList = t'.queries.flatMap readPairs
  pairs : ∀ setting ∈ settings, setting.2 ≠ [] →
    (readPairs (writtenEntry setting)).map plainPair = pairsOf setting.1 setting.2

section Maps

variable {t : Template} {map : Entries String Value}

theorem queryTexts_eq (value : Value) :
    queryTexts false value = (memberTexts value).map (Option.map Percent.encode) := by
  have htext : ∀ member : Value, queryText false member =
      (if member.isNull then none else some member.plainText).map Percent.encode := by
    intro member
    unfold queryText
    split <;> rfl
  unfold queryTexts memberTexts
  rw [List.map_map]
  split
  next items hitems =>
    rw [hitems]
    exact List.map_congr_left fun member _ => htext member
  next hnone =>
    rw [hnone]
    exact congrArg (· :: []) (htext value)

theorem addQueryMap_frame (t : Template) (encoded : Bool) (entries : ValueEntries) :
    t.addQueryMap encoded entries = { t with queries := (t.addQueryMap encoded entries).queries } := by
  induction entries generalizing t with
  | nil => rfl
  | cons entry rest ih => exact ih (t.query _ _)

theorem keys_settingsOf (map : Entries String Value) : (settingsOf map).keys = map.keys := by
  simp [settingsOf, Entries.keys]

theorem queries_addQueryMap (hkeys : map.keys.Nodup) (hnames : (plainNames t.queries).Nodup) :
    (t.addQueryMap false (map.map fun entry => (.text entry.1, entry.2))).queries =
      setAll (settingsOf map) t.queries := by
  induction map generalizing t with
  | nil =>
      change t.queries = setAll [] t.queries
      have hkept : slotAfter [] = some := rfl
      rw [setAll, hkept, List.filterMap_some]
      exact (List.append_nil _).symm
  | cons entry rest ih =>
      obtain ⟨hfirst, hrest⟩ := List.nodup_cons.mp hkeys
      have hstep := queries_query hnames (entry.1, memberTexts entry.2)
      have hnext : (plainNames (setAll [(entry.1, memberTexts entry.2)] t.queries)).Nodup :=
        nodup_plainNames_setAll hnames (List.nodup_singleton entry.1)
      have hkey : entry.1 ∉ (settingsOf rest).keys := by
        rwa [keys_settingsOf]
      have hset : t.query (queryName false (.text entry.1)) (queryTexts false entry.2) =
          t.query (writtenEntry (entry.1, memberTexts entry.2)).1
            (writtenEntry (entry.1, memberTexts entry.2)).2 := by
        rw [queryTexts_eq]
        rfl
      -- The names stay distinct after the first parameter, which the others need to be set.
      change ((t.query (queryName false (.text entry.1)) (queryTexts false entry.2)).addQueryMap
        false (rest.map fun entry => (.text entry.1, entry.2))).queries = _
      rw [hset, ih hrest (hstep ▸ hnext), hstep, setAll_setAll hkey]
      rfl

theorem setsParameters_addQueryMap (hkeys : map.keys.Nodup) (hnonempty : "" ∉ map.keys)
    (hnames : (plainNames t.queries).Nodup) :
    SetsParameters (settingsOf map) t
      (t.addQueryMap false (map.map fun entry => (.text entry.1, entry.2))) := by
  have hslots := queries_addQueryMap hkeys hnames
  have hsettings : (settingsOf map).keys.Nodup := by
    rwa [keys_settingsOf]
  refine ⟨addQueryMap_frame t _ _, hslots, ?_, ?_, ?_, splitQuery_queryLine_eq _, ?_⟩
  · intro setting hsetting hvalues
    have hnames' := nodup_plainNames_setAll hnames hsettings
    have hfilter := Entries.filter_of_mem hnames' (mem_setAll hsettings hsetting hvalues)
    rw [decode_writtenEntry] at hfilter
    rw [hslots]
    exact hfilter
  · intro setting hsetting hvalues entry hentry hname
    rw [hslots] at hentry
    exact not_mem_plainNames_setAll hsettings hsetting hvalues
      (List.mem_map.mpr ⟨entry, hentry, hname⟩)
  · rw [hslots]
    exact filter_setAll _ _
  · intro setting hsetting hvalues
    refine plainPair_readPairs ?_ hvalues
    intro hname
    have hmem : setting.1 ∈ (settingsOf map).keys := List.mem_map_of_mem hsetting
    rw [keys_settingsOf, hname] at hmem
    exact hnonempty hmem

end Maps

end Template

namespace Plan

open Template

variable {plan : Plan} {encoder : QueryMapEncoder} {arguments : List Value} {t : Template}

/--
Adding a query map that is not encoded yet sets the parameters that its entries stand for, as
long as the names of the template and those of the map are distinct once they are decoded.
-/
theorem addQueryMap_setsParameters {index : Nat} {value : Value} {map : Entries String Value}
    (hindex : plan.queryMapIndex = some index) (hencoded : plan.queryMapEncoded = false)
    (hvalue : arguments[index]? = some value)
    (hmap : value.entries? = some (map.map fun entry => (.text entry.1, entry.2)))
    (hkeys : map.keys.Nodup) (hnonempty : "" ∉ map.keys) (hnames : (plainNames t.queries).Nodup) :
    ∃ t', plan.addQueryMap encoder arguments t = .ok t' ∧ SetsParameters (settingsOf map) t t' := by
  refine ⟨_, ?_, setsParameters_addQueryMap hkeys hnonempty hnames⟩
  unfold addQueryMap argument
  rw [hindex]
  dsimp only
  rw [hvalue, hencoded]
  change (queryEntries encoder value).bind _ = _
  unfold queryEntries Value.isMapping entriesOf
  rw [hmap]
  rfl

/-- A map that replaces one parameter, removes another and brings in a third. -/
theorem addQueryMap_setsParameters_ofSearch :
    ∃ t', addQueryMap { key := "Api#search(dict)", api := "Api", method := { name := "search" }
                        queryMapIndex := some 0 } (.usual (Schema.adapters []))
        [.dict [(.text "a b", .list [.text "2", .null]), (.text "q", .list []), (.text "n", .null)]]
        { queries := [("a%20b", [some "1"]), ("q", [some "x"])], resolved := true } = .ok t' ∧
      SetsParameters [("a b", [some "2", none]), ("q", []), ("n", [none])]
        { queries := [("a%20b", [some "1"]), ("q", [some "x"])], resolved := true } t' := by
  have hspaced : Percent.decode "a%20b" = "a b" := Percent.decode_encode "a b"
  have hplain : Percent.decode "q" = "q" := Percent.decode_encode "q"
  have hnames : (plainNames [("a%20b", [some "1"]), ("q", [some "x"])]).Nodup := by
    simp [plainNames, hspaced, hplain]
  have hmap : Value.entries? (.dict [(.text "a b", .list [.text "2", .null]),
      (.text "q", .list []), (.text "n", .null)]) =
        some ((([("a b", .list [.text "2", .null]), ("q", .list []), ("n", .null)] :
          Entries String Value)).map fun entry => (.text entry.1, entry.2)) := rfl
  exact addQueryMap_setsParameters rfl rfl rfl hmap (by decide) (by decide) hnames

end Plan

end HttpBinding
