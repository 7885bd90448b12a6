import HttpBinding.Octets.Charset
import HttpBinding.Plan.Filling
import HttpBinding.Proofs.Octets.Percent
import HttpBinding.Proofs.Template.Replacement

/-!
# Names of query parameters that stand for different octets

Names of query parameters are compared as text, and octets that are not UTF-8 have no text of
their own: replacements stand in their places. So two names can be taken for one though they
stand for different octets, but only if one of them is not UTF-8. Setting a parameter keeps
every parameter of other octets exactly if the entry that is replaced is not of that kind, and
what a query map sets stays exactly if no later name of it is taken for the same and no old
values are put over the new ones.
-/

namespace HttpBinding.Template

/-- The octets that the name of a query parameter stands for. -/
def nameOctets (name : String) : Octets :=
  Percent.octets name.toList

/-- Two names are taken for one though they stand for different octets. -/
def AreConflated (first second : String) : Prop :=
  nameOctets first ≠ nameOctets second ∧ sameQuery first second = true

/-- The entries of parameters whose names stand for other octets. -/
def distinct (name : String) (queries : Queries) : Queries :=
  queries.filter fun entry => nameOctets entry.1 ≠ nameOctets name

/-- Parameters whose names stand for other octets stay where they are, with their values. -/
structure KeepsDistinct (name : String) (t t' : Template) : Prop where
  frame : t' = { t with queries := t'.queries }
  distinct : distinct name t'.queries = distinct name t.queries

/-- A parameter stands in a template with other values, and another spelling of it stands before. -/
def IsShadowed (name : String) (values : List (Option String)) (t : Template) : Prop :=
  queryKey? t.queries name ≠ some name ∧ ∃ old, t.queries.lookup name = some old ∧ old ≠ values

variable {t : Template} {name other key : String} {values old : List (Option String)}
  {before after : Queries}

/-! ## Names as text -/

/-- Names mean the same parameter if their octets are decoded to the same text. -/
theorem sameQuery_iff_octets (first second : String) :
    sameQuery first second = true ↔
      Utf8.decode (nameOctets first) = Utf8.decode (nameOctets second) := by
  rw [sameQuery_eq, decide_eq_true_iff, Percent.decode, Percent.decode, Percent.decodeChars_eq,
    Percent.decodeChars_eq, String.ofList_inj]
  rfl

/-- Of two names that are taken for one at least one is not UTF-8. -/
theorem AreConflated.decode?_eq_none (hconflated : AreConflated name other) :
    Utf8.decode? (nameOctets name) = none ∨ Utf8.decode? (nameOctets other) = none := by
  obtain ⟨hoctets, hsame⟩ := hconflated
  cases hname : Utf8.decode? (nameOctets name) with
  | none => exact Or.inl rfl
  | some text =>
      cases hother : Utf8.decode? (nameOctets other) with
      | none => exact Or.inr rfl
      | some text' =>
          rw [sameQuery_iff_octets, Utf8.decode_of_decode? hname, Utf8.decode_of_decode? hother] at hsame
          refine absurd ?_ hoctets
          rw [← Utf8.encode_of_decode? hname, ← Utf8.encode_of_decode? hother, hsame]

/-! ## One parameter -/

theorem distinct_append (name : String) (first second : Queries) :
    distinct name (first ++ second) = distinct name first ++ distinct name second :=
  List.filter_append ..

theorem distinct_cons_of_octets (hoctets : nameOctets key = nameOctets name) :
    distinct name ((key, old) :: after) = distinct name after := by
  simp [distinct, hoctets]

theorem distinct_cons_of_ne (hoctets : nameOctets key ≠ nameOctets name) :
    distinct name ((key, old) :: after) = (key, old) :: distinct name after := by
  simp [distinct, hoctets]

theorem distinct_erase_self (name : String) (queries : Queries) :
    distinct name (queries.erase name) = distinct name queries := by
  induction queries with
  | nil => rfl
  | cons entry rest ih =>
      obtain ⟨key, old⟩ := entry
      rw [Entries.erase]
      split
      next hkey => rw [distinct_cons_of_octets (congrArg nameOctets hkey)]
      next =>
        unfold distinct at ih ⊢
        rw [List.filter_cons, List.filter_cons, ih]

/-- Setting a parameter keeps those of other octets unless the entry that it replaces is one. -/
theorem keepsDistinct_query_iff (hnames : t.queries.keys.Nodup) (name : String)
    (values : List (Option String)) :
    KeepsDistinct name t (t.query name values) ↔
      ∀ key, queryKey? t.queries name = some key → nameOctets key = nameOctets name := by
  have hframe : t.query name values = { t with queries := (t.query name values).queries } := rfl
  cases hfound : queryKey? t.queries name with
  | none =>
      have hkept : distinct name (t.query name values).queries = distinct name t.queries := by
        rw [queries_query_of_none hfound, distinct_append]
        split <;> simp [distinct]
      exact iff_of_true ⟨hframe, hkept⟩ (by simp)
  | some key =>
      obtain ⟨before, old, after, hqueries, hbefore, hsame⟩ := queryKey?_eq_some hfound
      have hleft : distinct name (t.query name values).queries =
          distinct name before ++ distinct name after := by
        rw [queries_query_of_some hnames hqueries hbefore hsame, distinct_append]
        split
        · rfl
        · rw [distinct_cons_of_octets rfl, distinct_erase_self]
      have hright : distinct name t.queries =
          distinct name before ++ distinct name ((key, old) :: after) := by
        rw [hqueries, distinct_append]
      simp only [Option.some.injEq, forall_eq']
      constructor
      · rintro ⟨-, hkept⟩
        by_contra hoctets
        rw [hleft, hright, distinct_cons_of_ne hoctets, List.append_cancel_left_eq] at hkept
        exact List.cons_ne_self _ _ hkept.symm
      · intro hoctets
        exact ⟨hframe, by rw [hleft, hright, distinct_cons_of_octets hoctets]⟩

/-! ## Several parameters -/

/-- Setting a parameter leaves the entries of others as they are. -/
theorem matching_query_of_other (hnames : t.queries.keys.Nodup) (hother : sameQuery other name = false)
    (values : List (Option String)) :
    matching name (t.query other values).queries = matching name t.queries := by
  have hothers : ∀ queries : Queries, matching name (others other queries) = matching name queries := by
    intro queries
    unfold matching others
    rw [List.filter_filter]
    apply List.filter_congr
    intro entry _
    have : sameQuery entry.1 name = true → sameQuery entry.1 other = false := by
      simp only [sameQuery_eq, decide_eq_true_iff, decide_eq_false_iff_not] at hother ⊢
      exact fun heq => heq ▸ Ne.symm hother
    cases hentry : sameQuery entry.1 name with
    | false => simp
    | true => simp [this hentry]
  rw [← hothers (t.query other values).queries, (keepsOthers_query hnames other values).others, hothers]

/-- What is set comes first of its parameter, with its values unless old ones are put over them. -/
theorem exists_matching_query (hnames : t.queries.keys.Nodup) (name : String) (hvalues : values ≠ []) :
    ∃ present rest, matching name (t.query name values).queries = (name, present) :: rest ∧
      (present = values ↔ ¬ IsShadowed name values t) := by
  cases hfound : queryKey? t.queries name with
  | none =>
      have hother := queryKey?_eq_none hfound
      have hnone : t.queries.lookup name = none := by
        refine Entries.lookup_eq_none_iff.mpr fun hmem => ?_
        obtain ⟨entry, hentry, rfl⟩ := List.mem_map.mp hmem
        exact absurd (sameQuery_self entry.1) (by simp [hother entry hentry])
      refine ⟨values, [], ?_, iff_of_true rfl ?_⟩
      · rw [queries_query_of_none hfound, matching_append, matching_of_other hother, if_neg hvalues]
        exact matching_cons_of_same (sameQuery_self name)
      · rintro ⟨-, old, hold, -⟩
        rw [hnone] at hold
        cases hold
  | some key =>
      obtain ⟨before, old, after, hqueries, hbefore, hsame⟩ := queryKey?_eq_some hfound
      have hname : name ∉ Entries.keys before := by
        intro hmem
        obtain ⟨entry, hentry, rfl⟩ := List.mem_map.mp hmem
        exact absurd (sameQuery_self entry.1) (by simp [hbefore entry hentry])
      have hlookup : t.queries.lookup name = if name = key then some old else after.lookup name := by
        rw [hqueries, List.lookup_append, Entries.lookup_eq_none_iff.mpr hname, Option.none_or,
          Entries.lookup_cons]
      refine ⟨(after.lookup name).getD values, matching name (Entries.erase name after), ?_, ?_⟩
      · rw [queries_query_of_some hnames hqueries hbefore hsame, if_neg hvalues, matching_append,
          matching_of_other hbefore, List.nil_append, matching_cons_of_same (sameQuery_self name)]
      · unfold IsShadowed
        rw [hfound, hlookup, ne_eq, Option.some.injEq]
        by_cases hkey : key = name
        · subst hkey
          have hnone := Entries.lookup_eq_none_iff.mpr (not_mem_keys_of_split hnames hqueries).2
          simp [hnone]
        · rw [if_neg (Ne.symm hkey)]
          cases after.lookup name <;> simp [hkey]

theorem queryKey?_eq_head (name : String) (queries : Queries) :
    queryKey? queries name = (matching name queries).head?.map Prod.fst := by
  rw [queryKey?, matching, List.head?_filter]

/-- The spelling that stands first is gone once the parameter is set under another one. -/
theorem mem_keys_of_mem_keys_query (hnames : t.queries.keys.Nodup) (hother : name ≠ other)
    (hmem : name ∈ (t.query other values).queries.keys) :
    name ∈ t.queries.keys ∧ queryKey? t.queries other ≠ some name := by
  cases hfound : queryKey? t.queries other with
  | none =>
      rw [queries_query_of_none hfound, Entries.keys_append, List.mem_append] at hmem
      refine ⟨hmem.resolve_right ?_, fun habsurd => by cases habsurd⟩
      split
      · exact List.not_mem_nil
      · simpa [Entries.keys] using hother
  | some key =>
      obtain ⟨before, old, after, hqueries, hbefore, hsame⟩ := queryKey?_eq_some hfound
      obtain ⟨hkey, hkey'⟩ := not_mem_keys_of_split hnames hqueries
      have hsplit : name ∈ Entries.keys before ∨ name ∈ Entries.keys after := by
        rw [queries_query_of_some hnames hqueries hbefore hsame, Entries.keys_append,
          List.mem_append] at hmem
        refine hmem.imp_right fun hrest => ?_
        split at hrest
        · exact hrest
        · have herased := (List.mem_cons.mp hrest).resolve_left hother
          exact ((Entries.erase_sublist other after).map Prod.fst).subset herased
      refine ⟨?_, ?_⟩
      · rw [hqueries, Entries.keys_append, Entries.keys_cons, List.mem_append, List.mem_cons]
        exact hsplit.imp_right Or.inr
      · rw [ne_eq, Option.some.injEq]
        rintro rfl
        exact hsplit.elim hkey hkey'

/-! ## Query maps -/

/-- The names that the entries of a query map are written under. -/
def writtenNames (entries : ValueEntries) : List String :=
  entries.map fun entry => queryName true entry.1

section Maps

variable {entries : ValueEntries} (hnames : t.queries.keys.Nodup)

include hnames

theorem queryNames_addQueryMap : (t.addQueryMap true entries).queries.keys.Nodup := by
  induction entries generalizing t with
  | nil => exact hnames
  | cons entry rest ih => exact ih (queryNames_query hnames)

theorem matching_addQueryMap_of_other
    (hother : ∀ other ∈ writtenNames entries, sameQuery other name = false) :
    matching name (t.addQueryMap true entries).queries = matching name t.queries := by
  induction entries generalizing t with
  | nil => rfl
  | cons entry rest ih =>
      obtain ⟨hfirst, hrest⟩ := List.forall_mem_cons.mp hother
      exact (ih (queryNames_query hnames) hrest).trans (matching_query_of_other hnames hfirst _)

theorem mem_keys_of_mem_keys_addQueryMap (hother : name ∉ writtenNames entries)
    (hmem : name ∈ (t.addQueryMap true entries).queries.keys) : name ∈ t.queries.keys := by
  induction entries generalizing t with
  | nil => exact hmem
  | cons entry rest ih =>
      obtain ⟨hfirst, hrest⟩ := List.ne_and_not_mem_of_not_mem_cons hother
      exact (mem_keys_of_mem_keys_query hnames hfirst (ih (queryNames_query hnames) hrest hmem)).1

/-- A spelling that stands first is left by a query map only if nothing in it is taken for the same. -/
theorem other_of_mem_keys_addQueryMap (hfirst : queryKey? t.queries name = some name)
    (hdiffers : name ∉ writtenNames entries)
    (hmem : name ∈ (t.addQueryMap true entries).queries.keys) :
    ∀ other ∈ writtenNames entries, sameQuery other name = false := by
  induction entries generalizing t with
  | nil => exact fun _ hother => (List.not_mem_nil hother).elim
  | cons entry rest ih =>
      obtain ⟨hentry, hrest⟩ := List.ne_and_not_mem_of_not_mem_cons hdiffers
      have hstep := mem_keys_of_mem_keys_addQueryMap (queryNames_query hnames) hrest hmem
      have hother : sameQuery (queryName true entry.1) name = false := by
        rw [← Bool.not_eq_true]
        intro hsame
        refine (mem_keys_of_mem_keys_query hnames hentry hstep).2 ?_
        rw [← hfirst, queryKey?_eq, queryKey?_eq]
        rw [sameQuery_eq, decide_eq_true_iff] at hsame
        rw [hsame]
      have hkept : queryKey? (t.query (queryName true entry.1) (queryTexts true entry.2)).queries name =
          some name := by
        rw [queryKey?_eq_head, matching_query_of_other hnames hother, ← queryKey?_eq_head, hfirst]
      exact List.forall_mem_cons.mpr ⟨hother, ih (queryNames_query hnames) hkept hrest hmem⟩

/--
What an entry of a query map sets is still there in the end exactly if no later entry has a name
that is taken for the same and the values were not lost when they were set.
-/
theorem mem_addQueryMap_iff {first last : ValueEntries} {entry : Value × Value}
    (hdiffers : (writtenNames (first ++ entry :: last)).Nodup) (htexts : queryTexts true entry.2 ≠ []) :
    (queryName true entry.1, queryTexts true entry.2) ∈
        (t.addQueryMap true (first ++ entry :: last)).queries ↔
      (∀ later ∈ last, sameQuery (queryName true later.1) (queryName true entry.1) = false) ∧
        ¬ IsShadowed (queryName true entry.1) (queryTexts true entry.2) (t.addQueryMap true first) := by
  have hfirst : (t.addQueryMap true first).queries.keys.Nodup := queryNames_addQueryMap hnames
  have hset : ((t.addQueryMap true first).query (queryName true entry.1)
      (queryTexts true entry.2)).queries.keys.Nodup := queryNames_query hfirst
  have hlast : (((t.addQueryMap true first).query (queryName true entry.1)
      (queryTexts true entry.2)).addQueryMap true last).queries.keys.Nodup := queryNames_addQueryMap hset
  have hrun : t.addQueryMap true (first ++ entry :: last) =
      ((t.addQueryMap true first).query (queryName true entry.1)
        (queryTexts true entry.2)).addQueryMap true last := by
    unfold addQueryMap
    rw [List.foldl_append, List.foldl_cons]
  obtain ⟨present, rest, hmatching, hpresent⟩ :=
    exists_matching_query hfirst (queryName true entry.1) htexts
  have hkey : queryKey? ((t.addQueryMap true first).query (queryName true entry.1)
      (queryTexts true entry.2)).queries (queryName true entry.1) = some (queryName true entry.1) := by
    rw [queryKey?_eq_head, hmatching]
    rfl
  have hother : queryName true entry.1 ∉ writtenNames last := by
    unfold writtenNames at hdiffers
    rw [List.map_append, List.map_cons, List.nodup_middle] at hdiffers
    exact fun hmem => (List.nodup_cons.mp hdiffers).1 (List.mem_append_right _ hmem)
  rw [hrun, ← hpresent]
  constructor
  · intro hmem
    have hnone := other_of_mem_keys_addQueryMap hset hkey hother (List.mem_map_of_mem hmem)
    refine ⟨List.forall_mem_map.mp hnone, ?_⟩
    rw [← matching_addQueryMap_of_other hset hnone] at hmatching
    have hfound := List.mem_of_mem_filter (hmatching ▸ List.mem_cons_self)
    exact (Prod.mk.inj (List.inj_on_of_nodup_map hlast hfound hmem rfl)).2
  · rintro ⟨hnone, rfl⟩
    rw [← matching_addQueryMap_of_other hset (List.forall_mem_map.mpr hnone)] at hmatching
    exact List.mem_of_mem_filter (hmatching ▸ List.mem_cons_self)

end Maps

/-! ## Templates however they came about -/

/--
Names of different octets are taken for one only if one of them is not UTF-8. Whatever was done
to a template, setting a parameter keeps all parameters of other octets exactly if the entry that
it replaces, if any, has its octets. And of a query map that is encoded already, with names of
different octets, an entry with values is lost exactly if a later name is taken for its own, or
if its values are not put down since the template has others behind another spelling.
-/
theorem distinct_kept_iff [Charsets] (operations : List Operation) :
    (∀ first second, AreConflated first second →
      Utf8.decode? (nameOctets first) = none ∨ Utf8.decode? (nameOctets second) = none) ∧
    (∀ name values,
      KeepsDistinct name (performAll {} operations) ((performAll {} operations).query name values) ↔
        ∀ key, queryKey? (performAll {} operations).queries name = some key →
          nameOctets key = nameOctets name) ∧
    ∀ first entry last, ((writtenNames (first ++ entry :: last)).map nameOctets).Nodup →
      queryTexts true entry.2 ≠ [] →
      ((queryName true entry.1, queryTexts true entry.2) ∉
          ((performAll {} operations).addQueryMap true (first ++ entry :: last)).queries ↔
        (∃ later ∈ last, AreConflated (queryName true later.1) (queryName true entry.1)) ∨
          IsShadowed (queryName true entry.1) (queryTexts true entry.2)
            ((performAll {} operations).addQueryMap true first)) := by
  have hnames := (isWellFormed_performAll isWellFormed_fresh operations).queryNames
  refine ⟨fun first second => AreConflated.decode?_eq_none, keepsDistinct_query_iff hnames, ?_⟩
  intro first entry last hoctets htexts
  have hlater : ∀ later ∈ last,
      nameOctets (queryName true later.1) ≠ nameOctets (queryName true entry.1) := by
    intro later hlater heq
    unfold writtenNames at hoctets
    rw [List.map_append, List.map_cons, List.map_append, List.map_cons, List.nodup_middle] at hoctets
    refine (List.nodup_cons.mp hoctets).1 (List.mem_append_right _ ?_)
    rw [← heq]
    exact List.mem_map_of_mem (List.mem_map_of_mem hlater)
  have hconflated : (∃ later ∈ last, AreConflated (queryName true later.1) (queryName true entry.1)) ↔
      ¬ ∀ later ∈ last, sameQuery (queryName true later.1) (queryName true entry.1) = false := by
    simp only [not_forall, Bool.not_eq_false, exists_prop]
    refine exists_congr fun later => and_congr_right fun hmem => ?_
    exact and_iff_right (hlater later hmem)
  rw [mem_addQueryMap_iff hnames (List.Nodup.of_map nameOctets hoctets) htexts, hconflated,
    not_and_or, not_not]

open scoped CommonCharsets

/-- Two letters in the octets of an older charset, which are not UTF-8. -/
def latinSettings : ValueEntries :=
  [(.text "%E9", .text "1"), (.text "%E8", .text "2")]

theorem distinct_kept_iff_latinSettings :
    ((writtenNames latinSettings).map nameOctets).Nodup ∧
      queryTexts true (.text "1") ≠ [] ∧ queryTexts true (.text "2") ≠ [] ∧
      ("%E9", [some "1"]) ∉
        ((performAll {} [.uri "/x?q=0" false]).addQueryMap true latinSettings).queries ∧
      ("%E8", [some "2"]) ∈
        ((performAll {} [.uri "/x?q=0" false]).addQueryMap true latinSettings).queries := by
  have hoctets : ((writtenNames latinSettings).map nameOctets).Nodup := by decide +kernel
  have hvalues := (distinct_kept_iff [.uri "/x?q=0" false]).2.2
  refine ⟨hoctets, by decide, by decide, ?_, ?_⟩
  · refine (hvalues [] (.text "%E9", .text "1") [(.text "%E8", .text "2")] hoctets
      (by decide)).mpr (Or.inl ?_)
    exact ⟨_, List.mem_singleton_self _, by decide +kernel, by decide +kernel⟩
  · -- No entry follows, and nothing stands before the name that is replaced.
    refine Decidable.not_not.mp fun hlost => ?_
    rcases (hvalues [(.text "%E9", .text "1")] (.text "%E8", .text "2") [] hoctets
      (by decide)).mp hlost with ⟨_, hlater, -⟩ | ⟨-, old, hold, -⟩
    · cases hlater
    · have hnone : List.lookup "%E8" ((performAll {} [.uri "/x?q=0" false]).addQueryMap true
          [(.text "%E9", .text "1")]).queries = none := by decide +kernel
      change List.lookup "%E8" _ = some old at hold
      rw [hnone] at hold
      cases hold

/-- Two octets that are not UTF-8 have the same text, so that one parameter takes the place of the other. -/
theorem query_conflates :
    AreConflated "%E9" "%E8" ∧
      ((performAll {} [.uri "/x?%E9=1" false]).query "%E8" [some "2"]).queries = [("%E8", [some "2"])] ∧
      ¬ KeepsDistinct "%E8" (performAll {} [.uri "/x?%E9=1" false])
        ((performAll {} [.uri "/x?%E9=1" false]).query "%E8" [some "2"]) ∧
      (({} : Template).addQueryMap true latinSettings).queries = [("%E8", [some "2"])] := by
  have hqueries : ((performAll {} [.uri "/x?%E9=1" false]).query "%E8" [some "2"]).queries =
      [("%E8", [some "2"])] := by decide +kernel
  have hoctets : nameOctets "%E9" ≠ nameOctets "%E8" := by decide +kernel
  have hlost : distinct "%E8" [("%E8", [some "2"])] ≠
      distinct "%E8" (performAll {} [.uri "/x?%E9=1" false]).queries := by decide +kernel
  refine ⟨⟨hoctets, by decide +kernel⟩, hqueries, ?_, by decide +kernel⟩
  rintro ⟨-, hkept⟩
  rw [hqueries] at hkept
  exact hlost hkept

end HttpBinding.Template
