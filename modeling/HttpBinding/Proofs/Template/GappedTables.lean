import HttpBinding.Plan.Filling
import HttpBinding.Proofs.Target.Below
import HttpBinding.Proofs.Template.Gaps

/-!
# Parameters and headers of two calls

The query parameters and the headers of two calls that differ in one argument are tables with
gaps, plugged with the texts of the two. The names of the parameters are taken not to mention
the variables of the argument: a name that does is another one in each call, and may come
together with the other names in different ways.
-/

namespace HttpBinding

variable {names : List String} {a b : String} {bindings bindings' : Bindings}

namespace Template

/-! ## Query parameters -/

/-- Query parameters whose values have gaps. -/
abbrev GappedQueries := Entries String (List (Option Gapped))

/-- Query parameters with the same plug in every gap. -/
def GappedQueries.plug (s : String) (table : GappedQueries) : Queries :=
  table.mapLists (Option.map (Gapped.text s))

/-- Whether some value has a gap. -/
def GappedQueries.HasGap (table : GappedQueries) : Prop :=
  ∃ name g, table.Has name (some g) ∧ none ∈ g

theorem GappedQueries.HasGap.extend {table : GappedQueries} (hgap : table.HasGap) (name : String)
    (values : List (Option Gapped)) : HasGap (Entries.extend name values table) := by
  obtain ⟨other, g, hhas, hnone⟩ := hgap
  exact ⟨other, g, hhas.extend, hnone⟩

theorem map_text_literal (s : String) (values : List (Option String)) :
    (values.map (Option.map Gapped.literal)).map (Option.map (Gapped.text s)) = values := by
  rw [List.map_map]
  refine (List.map_congr_left ?_).trans (List.map_id values)
  intro value _
  cases value <;> simp

namespace GappedQueries

/-- Query parameters without gaps, and with one value added that is nothing but a gap. -/
def withGap (name : String) (queries : Queries) : GappedQueries :=
  Entries.extend name [some [none]] (queries.mapLists (Option.map Gapped.literal))

theorem plug_withGap (name s : String) (queries : Queries) :
    (withGap name queries).plug s = queries.extend name [some s] := by
  have hliteral : Entries.mapLists (Option.map (Gapped.text s))
      (queries.mapLists (Option.map Gapped.literal)) = queries := by
    simp only [Entries.mapLists, List.map_map]
    refine (List.map_congr_left ?_).trans (List.map_id queries)
    intro entry _
    exact Prod.ext rfl (map_text_literal s entry.2)
  rw [plug, withGap, ← Entries.extend_mapLists, hliteral]
  simp

theorem hasGap_withGap (name : String) (queries : Queries) : (withGap name queries).HasGap :=
  ⟨name, [none], Entries.has_extend_self (List.mem_singleton_self _), List.mem_singleton_self _⟩

end GappedQueries

section Queries

variable {t t' : Template} {queries resolved resolved' : Queries} {table : GappedQueries}
  {values values' : List (Option String)} (hdiffer : Bindings.Differ names a b bindings bindings')

include hdiffer

theorem resolveQueryValue_gapped {value : Option String}
    (hvalues : t.resolveQueryValue bindings value = .ok values)
    (hvalues' : t.resolveQueryValue bindings' value = .ok values') :
    ∃ gs : List (Option Gapped),
      values = gs.map (Option.map (Gapped.text (Percent.encodeQuery a))) ∧
      values' = gs.map (Option.map (Gapped.text (Percent.encodeQuery b))) ∧
      ∀ text, value = some text → Mentions names text → ∃ g, some g ∈ gs ∧ none ∈ g := by
  have hsame : values' = values → (∀ text, value = some text → ¬ Mentions names text) →
      ∃ gs : List (Option Gapped),
        values = gs.map (Option.map (Gapped.text (Percent.encodeQuery a))) ∧
        values' = gs.map (Option.map (Gapped.text (Percent.encodeQuery b))) ∧
        ∀ text, value = some text → Mentions names text → ∃ g, some g ∈ gs ∧ none ∈ g := by
    rintro rfl hother
    exact ⟨values'.map (Option.map Gapped.literal), (map_text_literal _ _).symm,
      (map_text_literal _ _).symm, fun text htext hmem => absurd hmem (hother text htext)⟩
  cases value with
  | none =>
      rw [resolveQueryValue] at hvalues hvalues'
      refine hsame (Except.ok.inj (hvalues'.symm.trans hvalues)) ?_
      intro text habsent
      cases habsent
  | some text =>
      rw [resolveQueryValue] at hvalues hvalues'
      cases hsole : solePlaceholder? text with
      | some name =>
          rw [hsole] at hvalues hvalues'
          dsimp only at hvalues hvalues'
          by_cases hname : name ∈ names
          · obtain ⟨ha, hb⟩ := hdiffer.lookup_of_mem hname
            rw [ha] at hvalues
            rw [hb] at hvalues'
            obtain rfl := Except.ok.inj hvalues
            obtain rfl := Except.ok.inj hvalues'
            refine ⟨[some [none]], by simp, by simp, ?_⟩
            rintro - - -
            exact ⟨[none], List.mem_singleton_self _, List.mem_singleton_self _⟩
          · rw [hdiffer.lookup_of_not_mem hname] at hvalues'
            refine hsame (Except.ok.inj (hvalues'.symm.trans hvalues)) ?_
            intro other hother hmem
            rw [← Option.some.inj hother] at hmem
            exact hname ((mentions_of_sole hsole).mp hmem)
      | none =>
          rw [hsole] at hvalues hvalues'
          dsimp only at hvalues hvalues'
          obtain ⟨filled, hfilled, hvalues⟩ := bind_eq_ok.mp hvalues
          obtain ⟨filled', hfilled', hvalues'⟩ := bind_eq_ok.mp hvalues'
          obtain rfl := Except.ok.inj hvalues
          obtain rfl := Except.ok.inj hvalues'
          rcases fillIfBound_gapped hdiffer hfilled hfilled' with ⟨hother, rfl, rfl⟩ | ⟨g, rfl, rfl, hgap⟩
          · refine hsame rfl ?_
            intro other heq
            rw [← Option.some.inj heq]
            exact hother
          · refine ⟨[some g], rfl, rfl, ?_⟩
            intro other heq hmem
            rw [← Option.some.inj heq] at hmem
            exact ⟨g, List.mem_singleton_self _, hgap.mpr hmem⟩

theorem resolveQueryValues_gapped {items : List (Option String)}
    (hvalues : t.resolveQueryValues bindings items = .ok values)
    (hvalues' : t.resolveQueryValues bindings' items = .ok values') :
    ∃ gs : List (Option Gapped),
      values = gs.map (Option.map (Gapped.text (Percent.encodeQuery a))) ∧
      values' = gs.map (Option.map (Gapped.text (Percent.encodeQuery b))) ∧
      ∀ text, some text ∈ items → Mentions names text → ∃ g, some g ∈ gs ∧ none ∈ g := by
  induction items generalizing values values' with
  | nil =>
      obtain rfl := Except.ok.inj hvalues
      obtain rfl := Except.ok.inj hvalues'
      exact ⟨[], rfl, rfl, fun text habsent => by cases habsent⟩
  | cons item rest ih =>
      rw [resolveQueryValues] at hvalues hvalues'
      obtain ⟨first, hfirst, hvalues⟩ := bind_eq_ok.mp hvalues
      obtain ⟨first', hfirst', hvalues'⟩ := bind_eq_ok.mp hvalues'
      obtain ⟨others, hothers, hvalues⟩ := bind_eq_ok.mp hvalues
      obtain ⟨others', hothers', hvalues'⟩ := bind_eq_ok.mp hvalues'
      obtain rfl := Except.ok.inj hvalues
      obtain rfl := Except.ok.inj hvalues'
      obtain ⟨gs, rfl, rfl, hmention⟩ := resolveQueryValue_gapped hdiffer hfirst hfirst'
      obtain ⟨hs, rfl, rfl, hmore⟩ := ih hothers hothers'
      refine ⟨gs ++ hs, List.map_append.symm, List.map_append.symm, ?_⟩
      intro text htext hmem
      rcases List.mem_cons.mp htext with hitem | hrest
      · obtain ⟨g, hg, hgap⟩ := hmention text hitem.symm hmem
        exact ⟨g, List.mem_append_left _ hg, hgap⟩
      · obtain ⟨g, hg, hgap⟩ := hmore text hrest hmem
        exact ⟨g, List.mem_append_right _ hg, hgap⟩

/-- A parameter is added to those of both calls or to neither, with a gap for each mention. -/
theorem resolveQueriesFrom_gapped_step {entry : String × List (Option String)} {rest : Queries}
    (hname : ¬ Mentions names entry.1)
    (hresolved : t.resolveQueriesFrom bindings (table.plug (Percent.encodeQuery a)) (entry :: rest) =
      .ok resolved)
    (hresolved' : t.resolveQueriesFrom bindings' (table.plug (Percent.encodeQuery b)) (entry :: rest) =
      .ok resolved') :
    ∃ next : GappedQueries,
      t.resolveQueriesFrom bindings (next.plug (Percent.encodeQuery a)) rest = .ok resolved ∧
      t.resolveQueriesFrom bindings' (next.plug (Percent.encodeQuery b)) rest = .ok resolved' ∧
      (table.HasGap → next.HasGap) ∧
      ∀ text, some text ∈ entry.2 → Mentions names text →
        fillIfBound bindings id entry.1 ≠ .ok none → next.HasGap := by
  rw [resolveQueriesFrom] at hresolved hresolved'
  obtain ⟨filled, hfilled, hresolved⟩ := bind_eq_ok.mp hresolved
  obtain ⟨filled', hfilled', hresolved'⟩ := bind_eq_ok.mp hresolved'
  rcases fillIfBound_gapped hdiffer hfilled hfilled' with ⟨-, rfl, rfl⟩ | ⟨g, rfl, rfl, hgap⟩
  · exact ⟨table, hresolved, hresolved', fun h => h, fun _ _ _ hstays => absurd hfilled hstays⟩
  · -- The name has no gap, so both calls add to the same parameter.
    have hfull : none ∉ g := fun hnone => hname (hgap.mp hnone)
    have hsame : g.text (id b) = g.text (id a) := Gapped.text_eq_of_full hfull
    rw [hsame] at hresolved'
    obtain ⟨values, hvalues, hresolved⟩ := bind_eq_ok.mp hresolved
    obtain ⟨values', hvalues', hresolved'⟩ := bind_eq_ok.mp hresolved'
    obtain ⟨gs, rfl, rfl, hinner⟩ := resolveQueryValues_gapped hdiffer hvalues hvalues'
    simp only [List.isEmpty_map] at hresolved hresolved'
    split at hresolved
    next hkept =>
      rw [if_pos hkept] at hresolved'
      have hextend : ∀ s : String, Entries.extend (g.text (id a))
          (if gs.isEmpty then [none] else gs.map (Option.map (Gapped.text s))) (table.plug s) =
            GappedQueries.plug s (table.extend (g.text (id a)) (if gs.isEmpty then [none] else gs)) := by
        intro s
        unfold GappedQueries.plug
        rw [← Entries.extend_mapLists]
        split <;> rfl
      rw [hextend] at hresolved hresolved'
      refine ⟨_, hresolved, hresolved', fun htable => htable.extend _ _, ?_⟩
      intro text htext hmem _
      obtain ⟨inner, hinner, hnone⟩ := hinner text htext hmem
      refine ⟨_, inner, Entries.has_extend_self ?_, hnone⟩
      rw [List.isEmpty_eq_false_iff.mpr (List.ne_nil_of_mem hinner)]
      exact hinner
    next hdropped =>
      rw [if_neg hdropped] at hresolved'
      refine ⟨table, hresolved, hresolved', fun h => h, ?_⟩
      intro text htext hmem _
      obtain ⟨inner, hinner, -⟩ := hinner text htext hmem
      rw [List.isEmpty_eq_false_iff.mpr (List.ne_nil_of_mem hinner)] at hdropped
      simp at hdropped

/-- Resolving one parameter after another gives the same parameters, with gaps in their values. -/
theorem resolveQueriesFrom_gapped (hnames : ∀ name ∈ queries.keys, ¬ Mentions names name)
    (hresolved : t.resolveQueriesFrom bindings (table.plug (Percent.encodeQuery a)) queries =
      .ok resolved)
    (hresolved' : t.resolveQueriesFrom bindings' (table.plug (Percent.encodeQuery b)) queries =
      .ok resolved') :
    ∃ done : GappedQueries, resolved = done.plug (Percent.encodeQuery a) ∧
      resolved' = done.plug (Percent.encodeQuery b) ∧ (table.HasGap → done.HasGap) ∧
      ∀ entry ∈ queries, ∀ text, some text ∈ entry.2 → Mentions names text →
        fillIfBound bindings id entry.1 ≠ .ok none → done.HasGap := by
  induction queries generalizing table with
  | nil =>
      obtain rfl := Except.ok.inj hresolved
      obtain rfl := Except.ok.inj hresolved'
      exact ⟨table, rfl, rfl, fun h => h, fun entry habsent => by cases habsent⟩
  | cons entry rest ih =>
      obtain ⟨next, hnext, hnext', hgrown, hmention⟩ :=
        resolveQueriesFrom_gapped_step hdiffer (hnames entry.1 List.mem_cons_self) hresolved hresolved'
      obtain ⟨done, hdone, hdone', hkept, hmore⟩ :=
        ih (fun name hname => hnames name (List.mem_cons_of_mem _ hname)) hnext hnext'
      refine ⟨done, hdone, hdone', hkept ∘ hgrown, ?_⟩
      intro other hother text htext hmem hstays
      rcases List.mem_cons.mp hother with rfl | hrest
      · exact hkept (hmention text htext hmem hstays)
      · exact hmore other hrest text htext hmem hstays

end Queries

/-- The parts of one query parameter whose values have gaps. -/
def gappedParts (name : String) (values : List (Option Gapped)) : List Gapped :=
  match values.filterMap id with
  | [] => [Gapped.literal name]
  | present => present.map fun g => Gapped.literal (name ++ "=") ++ g

/-- The query text with gaps. -/
def GappedQueries.line (table : GappedQueries) : Gapped :=
  Gapped.join "&" (table.flatMap fun entry => gappedParts entry.1 entry.2)

theorem queryParts_plug (s name : String) (values : List (Option Gapped)) :
    queryParts name (values.map (Option.map (Gapped.text s))) =
      (gappedParts name values).map (Gapped.text s) := by
  have hpresent : (values.map (Option.map (Gapped.text s))).filterMap id =
      (values.filterMap id).map (Gapped.text s) := by
    induction values with
    | nil => rfl
    | cons value rest ih =>
        cases value with
        | none => exact ih
        | some g => exact congrArg (g.text s :: ·) ih
  have htext : ∀ g : Gapped, name ++ "=" ++ g.text s = (Gapped.literal (name ++ "=") ++ g).text s := by
    intro g
    refine String.toList_inj.mp ?_
    simp
  unfold queryParts gappedParts
  rw [hpresent]
  cases values.filterMap id with
  | nil => simp
  | cons g rest =>
      simp only [List.map_cons, List.map_map, Function.comp_def, htext]

theorem queryLine_plug {t : Template} {s : String} {table : GappedQueries}
    (hqueries : t.queries = table.plug s) : t.queryLine = table.line.text s := by
  unfold queryLine GappedQueries.line
  rw [Gapped.text_join, hqueries, List.map_flatMap]
  unfold GappedQueries.plug Entries.mapLists
  rw [List.flatMap_map]
  simp only [queryParts_plug]

theorem GappedQueries.HasGap.mem_line {table : GappedQueries} (hgap : table.HasGap) :
    none ∈ table.line := by
  obtain ⟨name, g, ⟨values, hentry, hg⟩, hnone⟩ := hgap
  have hpresent : g ∈ values.filterMap id := List.mem_filterMap.mpr ⟨_, hg, rfl⟩
  have hpart : Gapped.literal (name ++ "=") ++ g ∈ gappedParts name values := by
    unfold gappedParts
    split
    next hnil =>
      rw [hnil] at hpresent
      cases hpresent
    next => exact List.mem_map_of_mem hpresent
  exact Gapped.mem_join (List.mem_flatMap.mpr ⟨_, hentry, hpart⟩) (List.mem_append_right _ hnone)

/-- Further parameters are added to those of both calls alike. -/
theorem addPairs_gapped (pairs : List (String × Option String)) (a b : String) (table : GappedQueries) :
    ∃ all : GappedQueries, addPairs pairs (table.plug a) = all.plug a ∧
      addPairs pairs (table.plug b) = all.plug b ∧ (table.HasGap → all.HasGap) := by
  induction pairs generalizing table with
  | nil => exact ⟨table, rfl, rfl, fun h => h⟩
  | cons pair rest ih =>
      obtain ⟨all, hall, hall', hgap⟩ := ih (table.extend pair.1 [pair.2.map Gapped.literal])
      have hextend : ∀ s : String, Entries.extend pair.1 [pair.2] (table.plug s) =
          GappedQueries.plug s (table.extend pair.1 [pair.2.map Gapped.literal]) := by
        intro s
        have hsame := map_text_literal s [pair.2]
        unfold GappedQueries.plug
        rw [← Entries.extend_mapLists]
        exact congrArg (fun values => Entries.extend pair.1 values _) hsame.symm
      refine ⟨all, ?_, ?_, fun htable => hgap (htable.extend _ _)⟩
      · rw [← hall, ← hextend]
        rfl
      · rw [← hall', ← hextend]
        rfl

/-! ## Headers -/

/-- Headers whose values have gaps. -/
abbrev GappedHeaders := Entries String (List Gapped)

/-- Headers with the same plug in every gap. -/
def GappedHeaders.plug (s : String) (table : GappedHeaders) : Headers :=
  table.mapLists (Gapped.text s)

/-- Whether some value has a gap. -/
def GappedHeaders.HasGap (table : GappedHeaders) : Prop :=
  ∃ name g, table.Has name g ∧ none ∈ g

theorem map_literal_text (s : String) (values : List String) :
    (values.map Gapped.literal).map (Gapped.text s) = values := by
  simp [Function.comp_def]

theorem GappedHeaders.HasGap.cons {table : GappedHeaders} (hgap : table.HasGap)
    (entry : String × List Gapped) : HasGap (entry :: table) := by
  obtain ⟨name, g, ⟨values, hentry, hg⟩, hnone⟩ := hgap
  exact ⟨name, g, ⟨values, List.mem_cons_of_mem _ hentry, hg⟩, hnone⟩

/-- A gap is where the headers of both calls differ. -/
theorem GappedHeaders.plug_inj {table : GappedHeaders} (hgap : table.HasGap)
    (heq : table.plug a = table.plug b) : a = b := by
  obtain ⟨name, g, ⟨values, hentry, hg⟩, hnone⟩ := hgap
  have hvalues : values.map (Gapped.text a) = values.map (Gapped.text b) :=
    congrArg Prod.snd (List.map_inj_left.mp heq _ hentry)
  exact Gapped.text_inj hnone (List.map_inj_left.mp hvalues g hg)

section Headers

variable {t t' : Template} {headers resolved resolved' : Headers} {values values' : List String}
  (hdiffer : Bindings.Differ names a b bindings bindings')

section Resolving

include hdiffer

theorem resolveHeaderValue_gapped {value : String}
    (hvalues : resolveHeaderValue bindings value = .ok values)
    (hvalues' : resolveHeaderValue bindings' value = .ok values') :
    ∃ gs : List Gapped, values = gs.map (Gapped.text a) ∧ values' = gs.map (Gapped.text b) ∧
      (Mentions names value → ∃ g ∈ gs, none ∈ g) := by
  have hsame : values' = values → ¬ Mentions names value →
      ∃ gs : List Gapped, values = gs.map (Gapped.text a) ∧ values' = gs.map (Gapped.text b) ∧
        (Mentions names value → ∃ g ∈ gs, none ∈ g) := by
    rintro rfl hother
    exact ⟨values'.map Gapped.literal, (map_literal_text _ _).symm, (map_literal_text _ _).symm,
      fun hmem => absurd hmem hother⟩
  unfold resolveHeaderValue at hvalues hvalues'
  cases hsole : solePlaceholder? value with
  | some name =>
      rw [hsole] at hvalues hvalues'
      dsimp only at hvalues hvalues'
      by_cases hname : name ∈ names
      · obtain ⟨ha, hb⟩ := hdiffer.lookup_of_mem hname
        rw [ha] at hvalues
        rw [hb] at hvalues'
        obtain rfl := Except.ok.inj hvalues
        obtain rfl := Except.ok.inj hvalues'
        refine ⟨[[none]], by simp [Filling.texts], by simp [Filling.texts], ?_⟩
        exact fun _ => ⟨[none], List.mem_singleton_self _, List.mem_singleton_self _⟩
      · rw [hdiffer.lookup_of_not_mem hname] at hvalues'
        refine hsame (Except.ok.inj (hvalues'.symm.trans hvalues)) ?_
        exact fun hmem => hname ((mentions_of_sole hsole).mp hmem)
  | none =>
      rw [hsole] at hvalues hvalues'
      dsimp only at hvalues hvalues'
      obtain ⟨filled, hfilled, hvalues⟩ := bind_eq_ok.mp hvalues
      obtain ⟨filled', hfilled', hvalues'⟩ := bind_eq_ok.mp hvalues'
      obtain rfl := Except.ok.inj hvalues
      obtain rfl := Except.ok.inj hvalues'
      rcases fillIfBound_gapped hdiffer hfilled hfilled' with ⟨hother, rfl, rfl⟩ | ⟨g, rfl, rfl, hgap⟩
      · exact hsame rfl hother
      · exact ⟨[g], rfl, rfl, fun hmem => ⟨g, List.mem_singleton_self _, hgap.mpr hmem⟩⟩

theorem resolveHeaderValues_gapped {items : List String}
    (hvalues : resolveHeaderValues bindings items = .ok values)
    (hvalues' : resolveHeaderValues bindings' items = .ok values') :
    ∃ gs : List Gapped, values = gs.map (Gapped.text a) ∧ values' = gs.map (Gapped.text b) ∧
      ∀ text ∈ items, Mentions names text → ∃ g ∈ gs, none ∈ g := by
  induction items generalizing values values' with
  | nil =>
      obtain rfl := Except.ok.inj hvalues
      obtain rfl := Except.ok.inj hvalues'
      exact ⟨[], rfl, rfl, fun text habsent => by cases habsent⟩
  | cons item rest ih =>
      rw [resolveHeaderValues] at hvalues hvalues'
      obtain ⟨first, hfirst, hvalues⟩ := bind_eq_ok.mp hvalues
      obtain ⟨first', hfirst', hvalues'⟩ := bind_eq_ok.mp hvalues'
      obtain ⟨others, hothers, hvalues⟩ := bind_eq_ok.mp hvalues
      obtain ⟨others', hothers', hvalues'⟩ := bind_eq_ok.mp hvalues'
      obtain rfl := Except.ok.inj hvalues
      obtain rfl := Except.ok.inj hvalues'
      obtain ⟨gs, rfl, rfl, hmention⟩ := resolveHeaderValue_gapped hdiffer hfirst hfirst'
      obtain ⟨hs, rfl, rfl, hmore⟩ := ih hothers hothers'
      refine ⟨gs ++ hs, List.map_append.symm, List.map_append.symm, ?_⟩
      intro text htext hmem
      rcases List.mem_cons.mp htext with rfl | hrest
      · obtain ⟨g, hg, hgap⟩ := hmention hmem
        exact ⟨g, List.mem_append_left _ hg, hgap⟩
      · obtain ⟨g, hg, hgap⟩ := hmore text hrest hmem
        exact ⟨g, List.mem_append_right _ hg, hgap⟩

theorem resolveHeaders_gapped (hresolved : resolveHeaders bindings headers = .ok resolved)
    (hresolved' : resolveHeaders bindings' headers = .ok resolved') :
    ∃ table : GappedHeaders, resolved = table.plug a ∧ resolved' = table.plug b ∧
      ∀ entry ∈ headers, ∀ text ∈ entry.2, Mentions names text → table.HasGap := by
  induction headers generalizing resolved resolved' with
  | nil =>
      obtain rfl := Except.ok.inj hresolved
      obtain rfl := Except.ok.inj hresolved'
      exact ⟨[], rfl, rfl, fun entry habsent => by cases habsent⟩
  | cons entry rest ih =>
      rw [resolveHeaders] at hresolved hresolved'
      obtain ⟨values, hvalues, hresolved⟩ := bind_eq_ok.mp hresolved
      obtain ⟨values', hvalues', hresolved'⟩ := bind_eq_ok.mp hresolved'
      obtain ⟨others, hothers, hresolved⟩ := bind_eq_ok.mp hresolved
      obtain ⟨others', hothers', hresolved'⟩ := bind_eq_ok.mp hresolved'
      obtain rfl := Except.ok.inj hresolved
      obtain rfl := Except.ok.inj hresolved'
      obtain ⟨gs, rfl, rfl, hinner⟩ := resolveHeaderValues_gapped hdiffer hvalues hvalues'
      obtain ⟨table, rfl, rfl, hmention⟩ := ih hothers hothers'
      simp only [List.isEmpty_map]
      split
      next hempty =>
        refine ⟨table, rfl, rfl, ?_⟩
        intro other hother text htext hmem
        rcases List.mem_cons.mp hother with rfl | hrest
        · obtain ⟨g, hg, -⟩ := hinner text htext hmem
          rw [List.isEmpty_iff.mp hempty] at hg
          cases hg
        · exact hmention other hrest text htext hmem
      next =>
        refine ⟨(entry.1, gs) :: table, rfl, rfl, ?_⟩
        intro other hother text htext hmem
        rcases List.mem_cons.mp hother with rfl | hrest
        · obtain ⟨g, hg, hnone⟩ := hinner text htext hmem
          exact ⟨other.1, g, ⟨gs, List.mem_cons_self, hg⟩, hnone⟩
        · exact (hmention other hrest text htext hmem).cons _

end Resolving

theorem headerKey?_plug (s : String) (table : GappedHeaders) (name : String) :
    headerKey? (table.plug s) name =
      (table.find? fun entry => Text.sameName entry.1 name).map Prod.fst := by
  unfold headerKey? GappedHeaders.plug Entries.mapLists
  rw [List.find?_map, Option.map_map]
  rfl

theorem not_mem_keys_of_headerKey? {name : String} (hkey : headerKey? headers name = none) :
    name ∉ headers.keys := by
  unfold headerKey? at hkey
  rw [Option.map_eq_none_iff, List.find?_eq_none] at hkey
  intro hmem
  obtain ⟨entry, hentry, rfl⟩ := List.mem_map.mp hmem
  exact hkey entry hentry (by simp [sameName_eq])

/-- Appending to a header appends to the entry that is found, or adds one of the name. -/
theorem headers_addHeader_extend (t : Template) (name : String) (values : List String) :
    (t.addHeader name values).headers =
      if values.isEmpty then t.headers
      else t.headers.extend ((headerKey? t.headers name).getD name) values := by
  unfold addHeader
  split
  · rfl
  · cases hkey : headerKey? t.headers name with
    | some key => rfl
    | none =>
        have hnew := not_mem_keys_of_headerKey? hkey
        exact (Entries.put_of_not_mem hnew).trans (Entries.extend_of_not_mem hnew).symm

theorem addHeader_gapped {table : GappedHeaders} (ht : t.headers = table.plug a)
    (ht' : t'.headers = table.plug b) (name : String) (values : List String) :
    ∃ all : GappedHeaders, (t.addHeader name values).headers = all.plug a ∧
      (t'.addHeader name values).headers = all.plug b ∧ (table.HasGap → all.HasGap) := by
  rw [headers_addHeader_extend, headers_addHeader_extend, ht, ht', headerKey?_plug, headerKey?_plug]
  split
  · exact ⟨table, rfl, rfl, fun h => h⟩
  · generalize (((table.find? fun entry => Text.sameName entry.1 name).map Prod.fst).getD name) = key
    have hextend : ∀ s : String, Entries.extend key values (table.plug s) =
        GappedHeaders.plug s (table.extend key (values.map Gapped.literal)) := by
      intro s
      unfold GappedHeaders.plug
      rw [← Entries.extend_mapLists, map_literal_text]
    refine ⟨table.extend key (values.map Gapped.literal), hextend a, hextend b, ?_⟩
    rintro ⟨other, g, hhas, hnone⟩
    exact ⟨other, g, hhas.extend, hnone⟩

theorem addHeaderEntry_gapped {key value : Value} {u u' : Template} {table : GappedHeaders}
    (ht : t.headers = table.plug a) (ht' : t'.headers = table.plug b)
    (hadd : t.addHeaderEntry key value = .ok u) (hadd' : t'.addHeaderEntry key value = .ok u') :
    ∃ all : GappedHeaders, u.headers = all.plug a ∧ u'.headers = all.plug b ∧
      (table.HasGap → all.HasGap) := by
  unfold addHeaderEntry at hadd hadd'
  split at hadd
  next hvalues =>
    rw [hvalues] at hadd'
    obtain rfl := Except.ok.inj hadd
    obtain rfl := Except.ok.inj hadd'
    exact ⟨table, ht, ht', fun h => h⟩
  next hvalues =>
    obtain rfl := Except.ok.inj hadd
    split at hadd'
    next hnone => exact absurd hnone hvalues
    next hname _ =>
      obtain rfl := Value.text.inj hname
      obtain rfl := Except.ok.inj hadd'
      exact addHeader_gapped ht ht' _ _
    next => cases hadd'
  next => cases hadd

theorem addHeaderMap_gapped {entries : ValueEntries} {u u' : Template} {table : GappedHeaders}
    (ht : t.headers = table.plug a) (ht' : t'.headers = table.plug b)
    (hadd : t.addHeaderMap entries = .ok u) (hadd' : t'.addHeaderMap entries = .ok u') :
    ∃ all : GappedHeaders, u.headers = all.plug a ∧ u'.headers = all.plug b ∧
      (table.HasGap → all.HasGap) := by
  induction entries generalizing t t' table with
  | nil =>
      obtain rfl := Except.ok.inj hadd
      obtain rfl := Except.ok.inj hadd'
      exact ⟨table, ht, ht', fun h => h⟩
  | cons entry rest ih =>
      obtain ⟨between, hfirst, hrest⟩ := bind_eq_ok.mp hadd
      obtain ⟨between', hfirst', hrest'⟩ := bind_eq_ok.mp hadd'
      obtain ⟨_, hsome, hsome', hgrown⟩ := addHeaderEntry_gapped ht ht' hfirst hfirst'
      obtain ⟨all, hall, hall', hkept⟩ := ih hsome hsome' hrest hrest'
      exact ⟨all, hall, hall', hkept ∘ hgrown⟩

end Headers

end Template

end HttpBinding
