import HttpBinding.Octets.Charset
import HttpBinding.Proofs.Template.QueryMap
import HttpBinding.Proofs.Template.WellFormed

/-!
# Replacing the values of a query parameter

One parameter can stand in a template under several spellings of its name, which a path
or an address brought in. Replacing its values puts them in the place of the first of
these and leaves the parameters of other names alone. The other spellings are not looked
for: one that is there stays there, and if it is the spelling that was asked for, its old
values are put over the new ones. So the values are replaced as a whole exactly if there is
one spelling at most, apart from values that were there already under a second one.
-/

namespace HttpBinding.Template

/-- The entries of a parameter, under all spellings of its name. -/
def matching (name : String) (queries : Queries) : Queries :=
  queries.filter fun entry => sameQuery entry.1 name

/-- The entries of all other parameters. -/
def others (name : String) (queries : Queries) : Queries :=
  queries.filter fun entry => !sameQuery entry.1 name

/-- The entries that stand before those of a parameter. -/
def leading (name : String) (queries : Queries) : Queries :=
  queries.takeWhile fun entry => !sameQuery entry.1 name

/-- Other parameters stay as they are, and nothing but them stands before the new values. -/
structure KeepsOthers (name : String) (values : List (Option String)) (t t' : Template) : Prop where
  frame : t' = { t with queries := t'.queries }
  others : others name t'.queries = others name t.queries
  leading : values ≠ [] → leading name t'.queries = leading name t.queries

/-- A parameter has just the given values, under its name as it is spelled here; or it is gone. -/
def HasJust (name : String) (values : List (Option String)) (t : Template) : Prop :=
  matching name t.queries = if values = [] then [] else [(name, values)]

/--
A parameter has one spelling at most, or two of which the second is the one that is asked for
and has the values that it is to have.
-/
def IsReplaceable (name : String) (values : List (Option String)) (t : Template) : Prop :=
  (matching name t.queries).length ≤ 1 ∨
    values ≠ [] ∧ ∃ old, old.1 ≠ name ∧ matching name t.queries = [old, (name, values)]

variable {t : Template} {name key : String} {values old : List (Option String)}
  {before after : Queries}

theorem sameQuery_self (name : String) : sameQuery name name = true := by
  simp [sameQuery_eq]

/-! ## Entries before and after -/

@[simp]
theorem matching_append (name : String) (first second : Queries) :
    matching name (first ++ second) = matching name first ++ matching name second :=
  List.filter_append ..

@[simp]
theorem others_append (name : String) (first second : Queries) :
    others name (first ++ second) = others name first ++ others name second :=
  List.filter_append ..

theorem matching_cons_of_same (hkey : sameQuery key name = true) :
    matching name ((key, old) :: after) = (key, old) :: matching name after := by
  simp [matching, hkey]

theorem others_cons_of_same (hkey : sameQuery key name = true) :
    others name ((key, old) :: after) = others name after := by
  simp [others, hkey]

section Before

variable (hbefore : ∀ entry ∈ before, sameQuery entry.1 name = false)

include hbefore

theorem matching_of_other : matching name before = [] := by
  apply List.filter_eq_nil_iff.mpr
  simpa using hbefore

theorem leading_of_other : leading name before = before := by
  apply List.takeWhile_eq_self_iff.mpr
  simpa using hbefore

theorem leading_append_cons (hkey : sameQuery key name = true) :
    leading name (before ++ (key, old) :: after) = before := by
  have hall : ∀ entry ∈ before, (!sameQuery entry.1 name) = true := by simpa using hbefore
  unfold leading
  rw [List.takeWhile_append_of_pos hall, List.takeWhile_cons_of_neg (by simp [hkey]), List.append_nil]

end Before

/-- A name that means the parameter is the name of no entry of the others. -/
theorem others_erase (hsame : sameQuery key name = true) (queries : Queries) :
    others name (queries.erase key) = others name queries := by
  induction queries with
  | nil => rfl
  | cons entry rest ih =>
      rw [Entries.erase]
      split
      next hfirst =>
        obtain ⟨first, old⟩ := entry
        obtain rfl : first = key := hfirst
        rw [others_cons_of_same hsame]
      next =>
        unfold others at ih ⊢
        rw [List.filter_cons, List.filter_cons, ih]

/-! ## Finding and replacing -/

theorem queryKey?_eq_none (hnone : queryKey? t.queries name = none) :
    ∀ entry ∈ t.queries, sameQuery entry.1 name = false := by
  simpa [queryKey?] using hnone

/-- The first entry of a parameter and what stands before and after it. -/
theorem queryKey?_eq_some (hsome : queryKey? t.queries name = some key) :
    ∃ before old after, t.queries = before ++ (key, old) :: after ∧
      (∀ entry ∈ before, sameQuery entry.1 name = false) ∧ sameQuery key name = true := by
  obtain ⟨found, hfound, rfl⟩ := Option.map_eq_some_iff.mp hsome
  obtain ⟨hsame, before, after, hqueries, hbefore⟩ := List.find?_eq_some_iff_append.mp hfound
  exact ⟨before, found.2, after, hqueries, by simpa using hbefore, hsame⟩

/-- A parameter that is new comes last. -/
theorem queries_query_of_none (hnone : queryKey? t.queries name = none) :
    (t.query name values).queries = t.queries ++ if values = [] then [] else [(name, values)] := by
  have hnew : name ∉ t.queries.keys := by
    intro hmem
    obtain ⟨entry, hentry, hname⟩ := List.mem_map.mp hmem
    have hother := queryKey?_eq_none hnone entry hentry
    rw [hname, sameQuery_self] at hother
    cases hother
  unfold query
  dsimp only
  rw [hnone]
  by_cases hvalues : values = []
  · simp [hvalues]
  · simp [hvalues, Entries.put_of_not_mem hnew]

section Found

variable (hnames : t.queries.keys.Nodup) (hqueries : t.queries = before ++ (key, old) :: after)

include hnames hqueries

theorem not_mem_keys_of_split : key ∉ before.keys ∧ key ∉ after.keys := by
  rw [hqueries, Entries.keys_append, Entries.keys_cons, List.nodup_middle, List.nodup_cons,
    List.mem_append, not_or] at hnames
  exact hnames.1

theorem nodup_keys_of_split : (Entries.keys (before ++ after)).Nodup := by
  rw [hqueries] at hnames
  refine hnames.sublist (List.Sublist.map Prod.fst ?_)
  exact (List.Sublist.refl before).append (List.sublist_cons_self _ after)

/-- Renaming the first entry brings back the values of an entry that has the new name already. -/
theorem ofPairs_renamed (hname : name ∉ before.keys) :
    Entries.ofPairs (t.queries.map fun entry => if entry.1 = key then (name, values) else entry) =
      before ++ (name, (after.lookup name).getD values) :: after.erase name := by
  obtain ⟨hkey, hkey'⟩ := not_mem_keys_of_split hnames hqueries
  have hdistinct := nodup_keys_of_split hnames hqueries
  have hkept : ∀ entries : Queries, key ∉ entries.keys →
      entries.map (fun entry => if entry.1 = key then (name, values) else entry) = entries := by
    intro entries hentries
    refine (List.map_congr_left ?_).trans (List.map_id entries)
    intro entry hentry
    exact if_neg (Entries.fst_ne_of_not_mem hentries hentry)
  have hrenamed : t.queries.map (fun entry => if entry.1 = key then (name, values) else entry) =
      before ++ (name, values) :: after := by
    rw [hqueries, List.map_append, List.map_cons, if_pos rfl, hkept before hkey, hkept after hkey']
  rw [hrenamed]
  cases hlookup : after.lookup name with
  | none =>
      have hnew : name ∉ after.keys := Entries.lookup_eq_none_iff.mp hlookup
      rw [Entries.erase_of_not_mem hnew]
      apply Entries.ofPairs_eq_self
      rw [List.map_append, List.map_cons, List.nodup_middle, ← List.map_append]
      refine List.nodup_cons.mpr ⟨?_, hdistinct⟩
      rw [← Entries.keys, Entries.keys_append, List.mem_append, not_or]
      exact ⟨hname, hnew⟩
  | some taken =>
      obtain ⟨middle, rest, rfl, hmiddle⟩ := List.lookup_eq_some_iff.mp hlookup
      have hnew : name ∉ Entries.keys middle := by
        intro hmem
        obtain ⟨entry, hentry, rfl⟩ := List.mem_map.mp hmem
        simpa using hmiddle entry hentry
      rw [Entries.erase_append_cons hnew]
      apply Entries.ofPairs_of_repeated
      simpa [← List.append_assoc, List.nodup_middle] using hdistinct

/-- What setting a parameter makes of the entries from its first one on. -/
theorem queries_query_of_some (hbefore : ∀ entry ∈ before, sameQuery entry.1 name = false)
    (hsame : sameQuery key name = true) :
    (t.query name values).queries = before ++
      if values = [] then after else (name, (after.lookup name).getD values) :: after.erase name := by
  obtain ⟨hkey, hkey'⟩ := not_mem_keys_of_split hnames hqueries
  have hname : name ∉ before.keys := by
    intro hmem
    obtain ⟨entry, hentry, rfl⟩ := List.mem_map.mp hmem
    have hother := hbefore entry hentry
    rw [sameQuery_self] at hother
    cases hother
  have hfound : queryKey? t.queries name = some key := by
    unfold queryKey?
    rw [hqueries, List.find?_append, List.find?_eq_none.mpr (by simpa using hbefore)]
    simp [hsame]
  unfold query
  dsimp only
  rw [hfound]
  by_cases hvalues : values = []
  · simp [hvalues, hqueries, Entries.erase_append_cons hkey]
  · by_cases hspelling : key = name
    · subst hspelling
      simp [hvalues, hqueries, Entries.put_append_cons hkey, Entries.erase_of_not_mem hkey',
        Entries.lookup_eq_none_iff.mpr hkey']
    · simpa [hvalues, hspelling] using ofPairs_renamed hnames hqueries hname

end Found

/-! ## Replacing -/

/-- Setting a parameter leaves other parameters where they are. -/
theorem keepsOthers_query (hnames : t.queries.keys.Nodup) (name : String)
    (values : List (Option String)) : KeepsOthers name values t (t.query name values) := by
  cases hfound : queryKey? t.queries name with
  | none =>
      have hother := queryKey?_eq_none hfound
      refine ⟨rfl, ?_, ?_⟩
      · rw [queries_query_of_none hfound]
        split <;> simp [others, sameQuery_self]
      · intro hvalues
        rw [queries_query_of_none hfound, if_neg hvalues, leading_of_other hother,
          leading_append_cons hother (sameQuery_self name)]
  | some key =>
      obtain ⟨before, old, after, hqueries, hbefore, hsame⟩ := queryKey?_eq_some hfound
      refine ⟨rfl, ?_, ?_⟩
      · rw [queries_query_of_some hnames hqueries hbefore hsame, hqueries]
        split
        · simp [others_cons_of_same hsame]
        · simp [others_cons_of_same hsame, others_cons_of_same (sameQuery_self name),
            others_erase (sameQuery_self name)]
      · intro hvalues
        rw [queries_query_of_some hnames hqueries hbefore hsame, if_neg hvalues, hqueries,
          leading_append_cons hbefore hsame, leading_append_cons hbefore (sameQuery_self name)]

/-- What is left of a parameter behind its first entry: nothing, or what was asked for. -/
theorem matching_erase_iff (name : String) (values : List (Option String)) (after : Queries) :
    (after.lookup name).getD values = values ∧ matching name (after.erase name) = [] ↔
      matching name after = [] ∨ matching name after = [(name, values)] := by
  cases hlookup : after.lookup name with
  | none =>
      have hnew : name ∉ after.keys := Entries.lookup_eq_none_iff.mp hlookup
      have hnone : matching name after ≠ [(name, values)] := by
        intro heq
        have hmem : (name, values) ∈ matching name after := by simp [heq]
        exact hnew (List.mem_map_of_mem (List.mem_of_mem_filter hmem))
      simp [Entries.erase_of_not_mem hnew, hnone]
  | some taken =>
      obtain ⟨middle, rest, rfl, hmiddle⟩ := List.lookup_eq_some_iff.mp hlookup
      have hnew : name ∉ Entries.keys middle := by
        intro hmem
        obtain ⟨entry, hentry, rfl⟩ := List.mem_map.mp hmem
        simpa using hmiddle entry hentry
      rw [Entries.erase_append_cons hnew, matching_append, matching_append,
        matching_cons_of_same (sameQuery_self name), Option.getD_some]
      cases matching name middle with
      | nil => simp
      | cons => simp

/-- A parameter has just its new values if it had one entry, or a second one with these values. -/
theorem hasJust_query_iff (hnames : t.queries.keys.Nodup) (name : String)
    (values : List (Option String)) :
    HasJust name values (t.query name values) ↔ IsReplaceable name values t := by
  unfold HasJust IsReplaceable
  cases hfound : queryKey? t.queries name with
  | none =>
      have hother := queryKey?_eq_none hfound
      rw [queries_query_of_none hfound, matching_append, matching_of_other hother]
      by_cases hvalues : values = []
      · simp [hvalues, matching]
      · simp [hvalues, matching, sameQuery_self]
  | some key =>
      obtain ⟨before, old, after, hqueries, hbefore, hsame⟩ := queryKey?_eq_some hfound
      have hmatching : matching name t.queries = (key, old) :: matching name after := by
        rw [hqueries, matching_append, matching_of_other hbefore, matching_cons_of_same hsame,
          List.nil_append]
      rw [queries_query_of_some hnames hqueries hbefore hsame, matching_append,
        matching_of_other hbefore, List.nil_append, hmatching]
      by_cases hvalues : values = []
      · simp [hvalues]
      · rw [if_neg hvalues, if_neg hvalues, matching_cons_of_same (sameQuery_self name)]
        -- No entry behind the first one has its spelling.
        have hspelling : matching name after = [(name, values)] → key ≠ name := by
          rintro heq rfl
          have hmem : (key, values) ∈ matching key after := by simp [heq]
          exact (not_mem_keys_of_split hnames hqueries).2
            (List.mem_map_of_mem (List.mem_of_mem_filter hmem))
        have hleft : (name, (after.lookup name).getD values) ::
            matching name (Entries.erase name after) = [(name, values)] ↔
              matching name after = [] ∨ matching name after = [(name, values)] := by
          rw [← matching_erase_iff]
          simp
        have hright : ((key, old) :: matching name after).length ≤ 1 ↔ matching name after = [] := by
          simp
        rw [hleft, hright]
        refine or_congr_right ⟨fun heq => ⟨hvalues, (key, old), hspelling heq, by rw [heq]⟩, ?_⟩
        rintro ⟨-, first, -, heq⟩
        exact (List.cons.inj heq).2

/--
Whatever was done to a template, setting a parameter keeps all other parameters; and its values
are replaced as a whole exactly if its name has one spelling at most, or if the values
that were asked for stand there already under a second spelling, which is the one asked for.
-/
theorem query_replaces_iff [Charsets] (operations : List Operation) (name : String)
    (values : List (Option String)) :
    KeepsOthers name values (performAll {} operations) ((performAll {} operations).query name values) ∧
      (HasJust name values ((performAll {} operations).query name values) ↔
        IsReplaceable name values (performAll {} operations)) := by
  have hnames := (isWellFormed_performAll isWellFormed_fresh operations).queryNames
  exact ⟨keepsOthers_query hnames name values, hasJust_query_iff hnames name values⟩

open scoped CommonCharsets

/-- The values of a parameter that stands in a path under two spellings are lost when they are set. -/
theorem query_loses_values :
    ((performAll {} [.uri "/x?a%62=1&ab=2" false]).query "ab" [some "3"]).queries =
        [("ab", [some "2"])] ∧
      ¬ HasJust "ab" [some "3"] ((performAll {} [.uri "/x?a%62=1&ab=2" false]).query "ab" [some "3"]) := by
  have hqueries : ((performAll {} [.uri "/x?a%62=1&ab=2" false]).query "ab" [some "3"]).queries =
        [("ab", [some "2"])] := by
    decide +kernel
  refine ⟨hqueries, ?_⟩
  unfold HasJust
  rw [hqueries]
  decide +kernel

end HttpBinding.Template
