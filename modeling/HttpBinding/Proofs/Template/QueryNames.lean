import HttpBinding.Octets.Charset
import HttpBinding.Proofs.Template.Marks
import HttpBinding.Proofs.Template.Preservation

/-!
# Values in the names of query parameters

Placeholders may stand in the name of a query parameter as well as in its values. A value is
encoded before it is put into another value, but into a name it is put as it is. So the query
of a resolved template is split into its parameters exactly if no text that is put into a name
holds one of the two marks that split it, and a fragment is opened by such a text alone.
-/

namespace HttpBinding.Template

/--
A query parameter that is still there when its template is resolved: its name does not go away,
and something is left of its values unless it was bare.
-/
def Remains (t : Template) (bindings : Bindings) (entry : String × List (Option String)) : Prop :=
  fillIfBound bindings id entry.1 ≠ .ok none ∧
    (t.resolveQueryValues bindings entry.2 ≠ .ok [] ∨ entry.2 = [none])

/-- A text that is put into the name of a query parameter that stays holds a mark. -/
def NamesBring (t : Template) (bindings : Bindings) (mark : Char) : Prop :=
  ∃ entry ∈ t.queries, t.Remains bindings entry ∧
    ∃ name ∈ placeholders entry.1, ∃ s ∈ bindings.textsOf name, mark ∈ s.toList

variable {t t' : Template} {bindings : Bindings} {done queries resolved : Queries} {name : String}
  {mark : Char}

/-! ## Names -/

/-- The names of resolved parameters are those of the parameters that stay. -/
theorem mem_keys_resolveQueriesFrom_iff
    (hresolved : t.resolveQueriesFrom bindings done queries = .ok resolved) :
    name ∈ resolved.keys ↔ name ∈ done.keys ∨
      ∃ entry ∈ queries, t.Remains bindings entry ∧ nameAfter? bindings entry.1 = some name := by
  induction queries generalizing done with
  | nil =>
      obtain rfl := Except.ok.inj hresolved
      simp
  | cons entry rest ih =>
      rw [List.exists_mem_cons_iff]
      rcases resolveQueriesFrom_step hresolved with
        ⟨filledName, values, hname, hvalues, hkept, hrest⟩ | ⟨hdropped, hrest⟩
      · have hremains : t.Remains bindings entry := by
          refine ⟨by simp [hname], hkept.imp_left fun hne => ?_⟩
          rw [hvalues]
          exact fun heq => hne (Except.ok.inj heq)
        rw [ih hrest, Entries.mem_keys_extend, nameAfter?_of_fillIfBound hname, or_assoc,
          Option.some.injEq, eq_comm (a := filledName)]
        simp only [hremains, true_and]
      · have hgone : ¬ t.Remains bindings entry := by
          rintro ⟨hname, hvalues⟩
          rcases hdropped with hnone | ⟨hempty, hbare⟩
          · exact hname hnone
          · exact hvalues.elim (absurd hempty) hbare
        rw [ih hrest]
        simp only [hgone, false_and, false_or]

theorem nameAfter?_eq_some (htextual : bindings.AreTextual) {text : String}
    (hname : nameAfter? bindings text = some name) : name = filledText bindings id text := by
  unfold nameAfter? fillIfBound at hname
  rw [fill_eq htextual] at hname
  dsimp only at hname
  split at hname
  next filled hfilled =>
    split at hfilled
    · cases (Except.ok.inj hfilled).trans hname
    · exact (Option.some.inj ((Except.ok.inj hfilled).trans hname)).symm
  next => cases hname

theorem Remains.nameAfter? (htextual : bindings.AreTextual) {entry : String × List (Option String)}
    (hremains : t.Remains bindings entry) :
    nameAfter? bindings entry.1 = some (filledText bindings id entry.1) := by
  obtain ⟨filled, hfilled⟩ := fillIfBound_isOk htextual id entry.1
  have hafter := nameAfter?_of_fillIfBound hfilled
  cases filled with
  | none => exact absurd hfilled hremains.1
  | some filled => rw [hafter, ← nameAfter?_eq_some htextual hafter]

/-- A mark that the names of a template do not hold is in a resolved name if a text brings it in. -/
theorem exists_mem_keys_iff (hmark : IsMark mark) (htextual : bindings.AreTextual)
    (hnames : ∀ entry ∈ t.queries, mark ∉ entry.1.toList)
    (hresolved : t.resolveQueriesFrom bindings [] t.queries = .ok resolved) :
    (∃ name ∈ resolved.keys, mark ∈ name.toList) ↔ t.NamesBring bindings mark := by
  constructor
  · rintro ⟨name, hname, hmem⟩
    rcases (mem_keys_resolveQueriesFrom_iff hresolved).mp hname with
      hdone | ⟨entry, hentry, hremains, hafter⟩
    · cases hdone
    · rw [nameAfter?_eq_some htextual hafter] at hmem
      have hbrought := ((mem_filledText_iff hmark).mp hmem).resolve_left (hnames entry hentry)
      exact ⟨entry, hentry, hremains, hbrought⟩
  · rintro ⟨entry, hentry, hremains, hbrought⟩
    exact ⟨_, (mem_keys_resolveQueriesFrom_iff hresolved).mpr
      (Or.inr ⟨entry, hentry, hremains, hremains.nameAfter? htextual⟩),
      (mem_filledText_iff hmark).mpr (Or.inr hbrought)⟩

/-! ## Values -/

/-- What holds of all values that are resolved to holds of the values of resolved parameters. -/
theorem forall_values_of_resolveQueriesFrom {P : String → Prop}
    (hdone : ∀ entry ∈ done, ∀ value, some value ∈ entry.2 → P value)
    (hqueries : ∀ entry ∈ queries, ∀ values, t.resolveQueryValues bindings entry.2 = .ok values →
      ∀ value, some value ∈ values → P value)
    (hresolved : t.resolveQueriesFrom bindings done queries = .ok resolved) :
    ∀ entry ∈ resolved, ∀ value, some value ∈ entry.2 → P value := by
  induction queries generalizing done with
  | nil =>
      obtain rfl := Except.ok.inj hresolved
      exact hdone
  | cons entry rest ih =>
      obtain ⟨hentry, hrest⟩ := List.forall_mem_cons.mp hqueries
      rcases resolveQueriesFrom_step hresolved with ⟨filledName, values, -, hvalues, -, hnext⟩ | ⟨-, hnext⟩
      · have hadded : ∀ value, some value ∈ (if values = [] then [none] else values) → P value := by
          intro value hvalue
          split at hvalue
          · simp at hvalue
          · exact hentry values hvalues value hvalue
        refine ih ?_ hrest hnext
        intro other hother value hvalue
        rcases Entries.mem_extend hother with hold | rfl | ⟨old, hold, rfl⟩
        · exact hdone other hold value hvalue
        · exact hadded value hvalue
        · exact (List.mem_append.mp hvalue).elim (hdone _ hold value) (hadded value)
      · exact ih hdone hrest hnext

/-- A mark that is escaped in queries is in no value unless it was in one before. -/
theorem not_mem_value_queryPairs (hmark : IsQueryMark mark) (htextual : bindings.AreTextual)
    (hvalues : ∀ entry ∈ t.queries, ∀ value, some value ∈ entry.2 → mark ∉ value.toList)
    (hresolved : t.resolveQueriesFrom bindings [] t.queries = .ok t'.queries) :
    ∀ pair ∈ t'.queryPairs, ∀ value, pair.2 = some value → mark ∉ value.toList := by
  rintro ⟨name, _⟩ hpair value rfl
  obtain ⟨entry, hentry, hvalue⟩ := exists_value_of_mem_queryPairs hpair
  refine forall_values_of_resolveQueriesFrom (P := fun value => mark ∉ value.toList) (by simp) ?_
    hresolved entry hentry value hvalue
  intro entry hentry values hfilled value hvalue
  rw [resolveQueryValues_eq htextual] at hfilled
  rw [← Except.ok.inj hfilled] at hvalue
  obtain ⟨text, htext, heq⟩ := List.mem_map.mp hvalue
  obtain rfl := Option.some.inj heq
  obtain ⟨item, hitem, hmem⟩ := List.mem_flatMap.mp htext
  cases item with
  | none => cases hmem
  | some item => exact noMark_of_mem_valueTexts hmark (hvalues entry hentry item hitem) hmem

/-! ## Splitting the query -/

/--
The query of a resolved template is split into its parameters and their values exactly if no
text that is put into the name of one of them holds `&` or `=`. A template without fragment
mark in its query gets one into it exactly if such a text holds it.
-/
theorem resolve_splits_iff [Charsets] (hbuilt : IsBuilt t) (htextual : bindings.AreTextual) :
    ∃ t', t.resolve bindings = (t', none) ∧
      (t'.queries ≠ [] →
        ((Text.splitOn '&' t'.queryLine.toList).map queryPair = t'.queryPairs ↔
          ¬ t.NamesBring bindings '&' ∧ ¬ t.NamesBring bindings '=')) ∧
      ((∀ entry ∈ t.queries, '#' ∉ entry.1.toList ∧
          ∀ value, some value ∈ entry.2 → '#' ∉ value.toList) →
        ('#' ∈ t'.queryLine.toList ↔ t.NamesBring bindings '#')) := by
  obtain ⟨t', hresolve⟩ := resolve_isResolved htextual hbuilt.bodyText_eq
  have hresolved := queries_of_resolve hresolve
  have hreadable := hbuilt.areReadable.readable
  refine ⟨t', hresolve, fun hsome => ?_, fun hplain => ?_⟩
  · have hpairs : t'.queryPairs ≠ [] := by
      obtain ⟨entry, hentry⟩ := List.exists_mem_of_ne_nil _ hsome
      obtain ⟨pair, hpair, -⟩ := mem_keys_queries_iff.mp (List.mem_map_of_mem hentry)
      exact List.ne_nil_of_mem hpair
    have hescaped : IsQueryMark '&' := ⟨rfl, by decide, rfl⟩
    have hvalues := not_mem_value_queryPairs hescaped htextual
      (fun entry hentry => (hreadable entry hentry).value_noMark) hresolved
    have hampersand : IsMark '&' := ⟨rfl, by decide, by decide, by decide⟩
    have hequals : IsMark '=' := ⟨rfl, by decide, by decide, by decide⟩
    rw [map_queryPair_splitOn_iff hpairs hvalues,
      ← exists_mem_keys_iff hampersand htextual (fun entry hentry => (hreadable entry hentry).name_noMark)
        hresolved,
      ← exists_mem_keys_iff hequals htextual (fun entry hentry => (hreadable entry hentry).name_noEquals)
        hresolved]
    simp only [not_exists, not_and]
    exact forall₂_and
  · have hfragment : IsMark '#' := ⟨rfl, by decide, by decide, by decide⟩
    have hescaped : IsQueryMark '#' := ⟨rfl, by decide, rfl⟩
    rw [mem_queryLine_iff (by decide) (by decide),
      ← exists_mem_keys_iff hfragment htextual (fun entry hentry => (hplain entry hentry).1) hresolved]
    refine or_iff_left ?_
    rintro ⟨pair, hpair, value, hvalue, hmem⟩
    exact not_mem_value_queryPairs hescaped htextual (fun entry hentry => (hplain entry hentry).2)
      hresolved pair hpair value hvalue hmem

open scoped CommonCharsets

/-- A name with a text that holds neither mark is read back, though the text needs encoding. -/
theorem resolve_splits_iff_ofField :
    ∃ t', (uri {} "/x?sort[\x7bfield\x7d]=asc" false).resolve
        (Bindings.ofTexts [("field", "first name")]) = (t', none) ∧
      (Text.splitOn '&' t'.queryLine.toList).map queryPair = t'.queryPairs := by
  have hbuilt : IsBuilt (uri {} "/x?sort[\x7bfield\x7d]=asc" false) :=
    .uri (.fresh none "utf-8" true .exploded) _ false
  have htextual : (Bindings.ofTexts [("field", "first name")]).AreTextual :=
    Bindings.areTextual_ofTexts _
  have hqueries : (uri {} "/x?sort[\x7bfield\x7d]=asc" false).queries =
      [("sort[\x7bfield\x7d]", [some "asc"])] := by decide +kernel
  have hnone : ∀ mark, mark ∉ "first name".toList →
      ¬ (uri {} "/x?sort[\x7bfield\x7d]=asc" false).NamesBring
        (Bindings.ofTexts [("field", "first name")]) mark := by
    rintro mark hmark ⟨entry, hentry, -, name, hname, s, hs, hmem⟩
    rw [hqueries] at hentry
    obtain rfl := List.mem_singleton.mp hentry
    have hfield : placeholders "sort[\x7bfield\x7d]" = ["field"] := by decide +kernel
    rw [hfield] at hname
    obtain rfl := List.mem_singleton.mp hname
    obtain rfl : s = "first name" := List.mem_singleton.mp hs
    exact hmark hmem
  obtain ⟨t', hresolve, hsplits, -⟩ := resolve_splits_iff hbuilt htextual
  have hsome : t'.queries ≠ [] := by
    have ht' : t' = ((uri {} "/x?sort[\x7bfield\x7d]=asc" false).resolve
        (Bindings.ofTexts [("field", "first name")])).1 := by rw [hresolve]
    rw [ht']
    decide +kernel
  exact ⟨t', hresolve, (hsplits hsome).mpr ⟨hnone _ (by decide), hnone _ (by decide)⟩⟩

/-- A text in a name ends the name early and brings in another parameter. -/
theorem resolve_splits_brought :
    ((uri {} "/x?\x7bn\x7d=1" false).resolve [("n", .text "a&b=c")]).1.queryPairs =
        [("a&b=c", some "1")] ∧
      (Text.splitOn '&' ((uri {} "/x?\x7bn\x7d=1" false).resolve
          [("n", .text "a&b=c")]).1.queryLine.toList).map queryPair =
        [("a", none), ("b", some "c=1")] := by
  decide +kernel

end HttpBinding.Template
