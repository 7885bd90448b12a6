import HttpBinding.Octets.Charset
import HttpBinding.Proofs.Octets.Percent
import HttpBinding.Proofs.Template.Filling
import HttpBinding.Proofs.Template.Queries
import HttpBinding.Template.Resolve
import Mathlib.Data.List.Forall2

/-!
# Values do not change the structure of a query

The values that fill the query of a template are encoded, so that no text of a value
begins another parameter or ends one. What the query of a resolved template is split
into are the pairs that the template is resolved to: how many there are and under
which names depends on which variables are bound and on how many texts each holds,
and not on the texts. A value that is nothing but a placeholder is read back as the
text that the placeholder was bound to.
-/

namespace HttpBinding

namespace Template

/-! ## Templates that are built from texts -/

/-- A template that was built from a fresh one by setting addresses and paths. -/
inductive IsBuilt : Template → Prop where
  | fresh (method : Option Method) (charset : String) (decodeSlash : Bool)
      (format : CollectionFormat) :
      IsBuilt { method := method, charset := charset, decodeSlash := decodeSlash, format := format }
  | uri {t : Template} (ht : IsBuilt t) (text : String) (append : Bool) :
      IsBuilt (t.uri text append)
  | target {t : Template} (ht : IsBuilt t) (url : String) : IsBuilt (t.target url)

namespace IsBuilt

variable {t : Template}

theorem areReadable (hbuilt : IsBuilt t) : AreReadable t.queries := by
  induction hbuilt with
  | fresh =>
      refine ⟨?_, List.nodup_nil⟩
      intro entry hentry
      cases hentry
  | uri _ text append ih =>
      exact areReadable_addPairs ih fun pair hpair => isReadablePair_of_mem_splitQuery hpair
  | target _ url ih =>
      exact areReadable_addPairs ih fun pair hpair => isReadablePair_of_mem_splitQuery hpair

theorem headers_eq (hbuilt : IsBuilt t) : t.headers = [] := by
  induction hbuilt with
  | fresh => rfl
  | uri _ text append ih => exact ih
  | target _ url ih => exact ih

theorem bodyText_eq (hbuilt : IsBuilt t) : t.bodyText = none := by
  induction hbuilt with
  | fresh => rfl
  | uri _ text append ih => exact ih
  | target _ url ih => exact ih

end IsBuilt

/-! ## Values -/

/-- What stands between several texts in one value. -/
def separatorMark (separator : Char) : String :=
  if separator = ',' then "," else Percent.encode (String.ofList [separator])

/-- Several texts of one parameter: each for itself, or all of them in one value. -/
def collected (format : CollectionFormat) (texts : List String) : List String :=
  match format.separator? with
  | none => texts
  | some separator =>
    if texts.isEmpty then [] else [(separatorMark separator).intercalate texts]

theorem collected_singleton (format : CollectionFormat) (text : String) :
    collected format [text] = [text] := by
  unfold collected
  cases format.separator? with
  | none => rfl
  | some separator => exact congrArg (· :: []) String.intercalate_singleton

/-- A mark that is not safe in a query does not occur in what is encoded for one. -/
structure IsQueryMark (mark : Char) : Prop where
  safe : Percent.isQuerySafe mark = false
  percent : mark ≠ '%'
  digit : Percent.hexValue? mark = none

theorem IsQueryMark.not_mem_encodeQuery {mark : Char} (hmark : IsQueryMark mark) (s : String) :
    mark ∉ (Percent.encodeQuery s).toList :=
  Percent.not_mem_ofList_encodeBy hmark.safe hmark.percent hmark.digit s

theorem IsQueryMark.not_mem_separatorMark {mark : Char} (hmark : IsQueryMark mark) (separator : Char) :
    mark ∉ (separatorMark separator).toList := by
  have hsafe := hmark.safe
  unfold separatorMark
  split
  next =>
    intro hmem
    rw [List.mem_singleton.mp hmem] at hsafe
    cases hsafe
  next =>
    unfold Percent.isQuerySafe at hsafe
    exact Percent.not_mem_encode (Bool.or_eq_false_iff.mp hsafe).1 hmark.percent hmark.digit _

theorem noMark_of_mem_collected {mark : Char} (hmark : IsQueryMark mark) {format : CollectionFormat}
    {texts : List String} (htexts : ∀ text ∈ texts, mark ∉ text.toList) {text : String}
    (htext : text ∈ collected format texts) : mark ∉ text.toList := by
  unfold collected at htext
  split at htext
  next => exact htexts text htext
  next separator hseparator =>
    split at htext
    next => cases htext
    next =>
      rw [List.mem_singleton.mp htext, String.toList_intercalate]
      intro hmem
      rcases Text.mem_intercalate hmem with hmem | ⟨piece, hpiece, hmem⟩
      · exact hmark.not_mem_separatorMark separator hmem
      · obtain ⟨other, hother, rfl⟩ := List.mem_map.mp hpiece
        exact htexts other hother hmem

theorem length_collected_eq {format : CollectionFormat} {texts texts' : List String}
    (hlength : texts.length = texts'.length) :
    (collected format texts).length = (collected format texts').length := by
  have hempty : texts.isEmpty = texts'.isEmpty := by
    rw [Bool.eq_iff_iff, List.isEmpty_iff_length_eq_zero, List.isEmpty_iff_length_eq_zero, hlength]
  unfold collected
  cases format.separator? with
  | none => exact hlength
  | some separator =>
      dsimp only
      rw [hempty]
      split <;> rfl

/-- The texts that a value of a query parameter becomes. -/
def valueTexts (t : Template) (bindings : Bindings) : Option String → List String
  | none => []
  | some value =>
    match solePlaceholder? value with
    | some name => collected t.format ((bindings.textsOf name).map Percent.encodeQuery)
    | none =>
      if !(placeholders value).isEmpty && !(placeholders value).any bindings.binds then []
      else [filledText bindings Percent.encodeQuery value]

section Values

variable {t : Template} {bindings : Bindings} {value : String}

theorem valueTexts_of_sole {name : String} (hsole : solePlaceholder? value = some name) :
    t.valueTexts bindings (some value) =
      collected t.format ((bindings.textsOf name).map Percent.encodeQuery) := by
  unfold valueTexts
  dsimp only
  rw [hsole]

theorem valueTexts_of_mixed (hmixed : solePlaceholder? value = none) :
    t.valueTexts bindings (some value) =
      if !(placeholders value).isEmpty && !(placeholders value).any bindings.binds then []
      else [filledText bindings Percent.encodeQuery value] := by
  unfold valueTexts
  dsimp only
  rw [hmixed]

theorem resolveQueryValue_of_sole {name : String} (hsole : solePlaceholder? value = some name)
    (htextual : bindings.AreTextual) :
    t.resolveQueryValue bindings (some value) =
      .ok ((t.valueTexts bindings (some value)).map some) := by
  rw [valueTexts_of_sole hsole]
  unfold resolveQueryValue
  dsimp only
  rw [hsole]
  dsimp only
  cases hlookup : bindings.lookup name with
  | none =>
      rw [Bindings.textsOf_of_unbound hlookup]
      unfold collected
      cases t.format.separator? <;> rfl
  | some bound =>
      obtain ⟨filling, hfilling⟩ := Filling.ofValue_of_textual (htextual name bound hlookup)
      rw [Bindings.textsOf_of_bound hlookup hfilling]
      dsimp only
      rw [hfilling]
      cases filling with
      | one text =>
          change _ = Except.ok ((collected t.format [Percent.encodeQuery text]).map some)
          rw [collected_singleton]
          rfl
      | many texts =>
          change (match t.format.separator? with
            | none => _
            | some separator => _) = Except.ok ((collected t.format
              (texts.map Percent.encodeQuery)).map some)
          unfold collected
          cases t.format.separator? with
          | none => rfl
          | some separator =>
              dsimp only
              split
              next => rfl
              next => rfl

theorem resolveQueryValue_of_mixed (hmixed : solePlaceholder? value = none)
    (htextual : bindings.AreTextual) :
    t.resolveQueryValue bindings (some value) =
      .ok ((t.valueTexts bindings (some value)).map some) := by
  rw [valueTexts_of_mixed hmixed]
  unfold resolveQueryValue
  dsimp only
  rw [hmixed]
  unfold fillIfBound
  dsimp only
  split
  next => rfl
  next =>
    rw [fill_eq htextual]
    rfl

/-- The texts of a value without such a mark have none either: it is always encoded. -/
theorem noMark_of_mem_valueTexts {mark : Char} (hmark : IsQueryMark mark) (hvalue : mark ∉ value.toList)
    {text : String} (htext : text ∈ t.valueTexts bindings (some value)) : mark ∉ text.toList := by
  cases hsole : solePlaceholder? value with
  | some name =>
      rw [valueTexts_of_sole hsole] at htext
      refine noMark_of_mem_collected hmark ?_ htext
      intro encoded hmem
      obtain ⟨s, -, rfl⟩ := List.mem_map.mp hmem
      exact hmark.not_mem_encodeQuery s
  | none =>
      rw [valueTexts_of_mixed hsole] at htext
      split at htext
      · cases htext
      · rw [List.mem_singleton.mp htext]
        intro hmem
        rcases mem_filledText hmem with hliteral | rfl | ⟨s, hs⟩
        · exact hvalue hliteral
        · cases hmark.safe
        · exact hmark.not_mem_encodeQuery s hs

end Values

/-! ## Parameters -/

section Parameters

variable {t : Template} {bindings : Bindings}

theorem resolveQueryValue_eq (htextual : bindings.AreTextual) (value : Option String) :
    t.resolveQueryValue bindings value = .ok ((t.valueTexts bindings value).map some) := by
  cases value with
  | none => rfl
  | some value =>
      cases hsole : solePlaceholder? value with
      | some name => exact resolveQueryValue_of_sole hsole htextual
      | none => exact resolveQueryValue_of_mixed hsole htextual

theorem resolveQueryValues_eq (htextual : bindings.AreTextual) (values : List (Option String)) :
    t.resolveQueryValues bindings values =
      .ok ((values.flatMap (t.valueTexts bindings)).map some) := by
  induction values with
  | nil => rfl
  | cons value rest ih =>
      rw [resolveQueryValues, resolveQueryValue_eq htextual, ih, List.flatMap_cons,
        List.map_append]
      rfl

/-- What a query parameter is resolved to. One without values goes away unless it was bare. -/
def resolvedEntry (t : Template) (bindings : Bindings) (entry : String × List (Option String)) :
    Option (String × List (Option String)) :=
  let texts := entry.2.flatMap (t.valueTexts bindings)
  if !texts.isEmpty then some (entry.1, texts.map some)
  else if entry.2 == [none] then some (entry.1, [none])
  else none

theorem fst_resolvedEntry {entry resolved : String × List (Option String)}
    (hresolved : t.resolvedEntry bindings entry = some resolved) : resolved.1 = entry.1 := by
  unfold resolvedEntry at hresolved
  dsimp only at hresolved
  split at hresolved
  · rw [← Option.some.inj hresolved]
  · split at hresolved
    · rw [← Option.some.inj hresolved]
    · cases hresolved

theorem resolveQueriesFrom_cons (htextual : bindings.AreTextual) {name : String}
    (hname : placeholders name = []) (done : Queries) (values : List (Option String))
    (rest : Queries) :
    t.resolveQueriesFrom bindings done ((name, values) :: rest) =
      match t.resolvedEntry bindings (name, values) with
      | some entry => t.resolveQueriesFrom bindings (done.extend entry.1 entry.2) rest
      | none => t.resolveQueriesFrom bindings done rest := by
  rw [resolveQueriesFrom, fillIfBound_of_no_placeholders hname]
  change (t.resolveQueryValues bindings values).bind _ = _
  rw [resolveQueryValues_eq htextual]
  unfold resolvedEntry
  dsimp only
  cases values.flatMap (t.valueTexts bindings) with
  | nil =>
      change (if values == [none] then _ else _) = _
      simp only [List.isEmpty_nil, Bool.not_true, Bool.false_eq_true, if_false]
      split
      next => rfl
      next => rfl
  | cons text texts => rfl

/-- Parameters under names of their own are resolved one by one, in their order. -/
theorem resolveQueriesFrom_eq (htextual : bindings.AreTextual) {done queries : Queries}
    (hnames : ∀ entry ∈ queries, placeholders entry.1 = [])
    (hnodup : (done.keys ++ queries.keys).Nodup) :
    t.resolveQueriesFrom bindings done queries =
      .ok (done ++ queries.filterMap (t.resolvedEntry bindings)) := by
  induction queries generalizing done with
  | nil => exact congrArg Except.ok (List.append_nil done).symm
  | cons entry rest ih =>
      obtain ⟨name, values⟩ := entry
      have hrest : ∀ entry ∈ rest, placeholders entry.1 = [] := fun entry hentry =>
        hnames entry (List.mem_cons_of_mem _ hentry)
      have hkeys : done.keys ++ Entries.keys ((name, values) :: rest) =
          (done.keys ++ [name]) ++ Entries.keys rest := by
        rw [List.append_assoc]
        rfl
      rw [hkeys] at hnodup
      -- The names are different, so that no entry is added to one that is there already.
      obtain ⟨hdone, hrestKeys, hdisjoint⟩ := List.nodup_append.mp hnodup
      rw [resolveQueriesFrom_cons htextual (hnames _ List.mem_cons_self)]
      cases hresolved : t.resolvedEntry bindings (name, values) with
      | none =>
          rw [List.filterMap_cons_none hresolved]
          refine ih hrest (List.nodup_append.mpr
            ⟨(List.nodup_append.mp hdone).1, hrestKeys, ?_⟩)
          exact fun key hkey => hdisjoint key (List.mem_append_left _ hkey)
      | some resolved =>
          have hname : resolved.1 = name := fst_resolvedEntry hresolved
          have hkey : resolved.1 ∉ done.keys := by
            rw [hname]
            intro hmem
            exact (List.nodup_append.mp hdone).2.2 name hmem name (List.mem_singleton_self name) rfl
          have hextended : (done ++ [(resolved.1, resolved.2)]).keys = done.keys ++ [name] := by
            unfold Entries.keys
            rw [List.map_append, List.map_cons, List.map_nil, hname]
          dsimp only
          rw [Entries.extend_of_not_mem hkey, ih hrest (by rw [hextended]; exact hnodup),
            List.filterMap_cons_some hresolved, List.append_assoc]
          rfl

theorem resolveQueries_eq (htextual : bindings.AreTextual) (hreadable : AreReadable t.queries)
    (hnames : ∀ entry ∈ t.queries, placeholders entry.1 = []) :
    t.resolveQueries bindings = .ok (t.queries.filterMap (t.resolvedEntry bindings)) :=
  resolveQueriesFrom_eq htextual hnames hreadable.nodup

/-- What a readable parameter is resolved to is readable. -/
theorem isReadable_resolvedEntry {entry resolved : String × List (Option String)}
    (hentry : IsReadable entry.1 entry.2)
    (hresolved : t.resolvedEntry bindings entry = some resolved) :
    IsReadable resolved.1 resolved.2 := by
  unfold resolvedEntry at hresolved
  dsimp only at hresolved
  split at hresolved
  next htexts =>
    obtain rfl := Option.some.inj hresolved
    refine ⟨hentry.name_noMark, hentry.name_noEquals, ?_, ?_, ?_⟩
    · intro text htext
      obtain ⟨other, hother, heq⟩ := List.mem_map.mp htext
      obtain rfl := Option.some.inj heq
      obtain ⟨value, hvalue, hmem⟩ := List.mem_flatMap.mp hother
      cases value with
      | none => cases hmem
      | some value => exact noMark_of_mem_valueTexts ⟨rfl, by decide, rfl⟩ (hentry.value_noMark value hvalue) hmem
    · intro hnil
      rw [List.map_eq_nil_iff.mp hnil] at htexts
      cases htexts
    · intro _ hmem
      obtain ⟨text, -, heq⟩ := List.mem_map.mp hmem
      cases heq
  next =>
    split at hresolved
    next hbare =>
      obtain rfl := Option.some.inj hresolved
      rw [eq_of_beq hbare] at hentry
      exact hentry
    next => cases hresolved

theorem keys_resolved_sublist (queries : Queries) :
    (Entries.keys (queries.filterMap (t.resolvedEntry bindings))).Sublist queries.keys := by
  induction queries with
  | nil => exact List.Sublist.slnil
  | cons entry rest ih =>
      cases hresolved : t.resolvedEntry bindings entry with
      | none =>
          rw [List.filterMap_cons_none hresolved]
          exact ih.cons entry.1
      | some resolved =>
          rw [List.filterMap_cons_some hresolved]
          change (resolved.1 :: _).Sublist (entry.1 :: _)
          rw [fst_resolvedEntry hresolved]
          exact ih.cons_cons entry.1

/-- The query parameters that readable ones are resolved to are readable. -/
theorem areReadable_resolved (hreadable : AreReadable t.queries) :
    AreReadable (t.queries.filterMap (t.resolvedEntry bindings)) := by
  refine ⟨?_, ?_⟩
  · intro resolved hresolved
    obtain ⟨entry, hentry, heq⟩ := List.mem_filterMap.mp hresolved
    exact isReadable_resolvedEntry (hreadable.readable entry hentry) heq
  · exact (keys_resolved_sublist t.queries).nodup hreadable.nodup

/-! ## Pairs -/

/-- The values of the query parameters in order, each with its name. -/
def queryValues (t : Template) : List (String × Option String) :=
  t.queries.flatMap fun (name, values) => values.map fun value => (name, value)

/-- The pairs that each value of a parameter becomes. -/
def entryExpansions (t : Template) (bindings : Bindings) (name : String)
    (values : List (Option String)) : List (List (String × Option String)) :=
  values.map fun value =>
    if values == [none] then [(name, none)]
    else (t.valueTexts bindings value).map fun text => (name, some text)

/-- The pairs that each value of the query becomes. -/
def expansions (t : Template) (bindings : Bindings) : List (List (String × Option String)) :=
  t.queries.flatMap fun (name, values) => t.entryExpansions bindings name values

theorem pairsOf_map_some (name : String) {texts : List String} (htexts : texts ≠ []) :
    pairsOf name (texts.map some) = texts.map fun text => (name, some text) := by
  have hpresent : (texts.map some).filterMap id = texts := by
    rw [List.filterMap_map]
    exact List.filterMap_some
  unfold pairsOf
  rw [hpresent]
  cases texts with
  | nil => exact absurd rfl htexts
  | cons text rest => rfl

/-- The values of a parameter that is not bare become a pair for each of their texts. -/
theorem flatten_entryExpansions_of_values (name : String) {values : List (Option String)}
    (hvalues : values ≠ [none]) :
    (t.entryExpansions bindings name values).flatten =
      (values.flatMap (t.valueTexts bindings)).map fun text => (name, some text) := by
  unfold entryExpansions
  simp only [beq_eq_false_iff_ne.mpr hvalues, Bool.false_eq_true, if_false]
  rw [List.map_flatMap, List.flatMap_def]

/-- The pairs of a parameter are those that its values become. -/
theorem flatten_entryExpansions (name : String) (values : List (Option String)) :
    (t.entryExpansions bindings name values).flatten =
      match t.resolvedEntry bindings (name, values) with
      | some entry => pairsOf entry.1 entry.2
      | none => [] := by
  by_cases hbare : values = [none]
  · rw [hbare]
    rfl
  rw [flatten_entryExpansions_of_values name hbare]
  unfold resolvedEntry
  dsimp only
  cases htexts : values.flatMap (t.valueTexts bindings) with
  | nil => simp only [List.isEmpty_nil, Bool.not_true, Bool.false_eq_true, if_false,
      beq_eq_false_iff_ne.mpr hbare, List.map_nil]
  | cons text texts => exact (pairsOf_map_some name (List.cons_ne_nil text texts)).symm

theorem queryPairs_resolved (queries : Queries) :
    (queries.filterMap (t.resolvedEntry bindings)).flatMap (fun (name, values) =>
        pairsOf name values) =
      (queries.flatMap fun (name, values) => t.entryExpansions bindings name values).flatten := by
  induction queries with
  | nil => rfl
  | cons entry rest ih =>
      rw [List.flatMap_cons, List.flatten_append, ← ih, flatten_entryExpansions]
      cases hresolved : t.resolvedEntry bindings entry with
      | none =>
          rw [List.filterMap_cons_none hresolved]
          rfl
      | some resolved =>
          rw [List.filterMap_cons_some hresolved]
          rfl

/-! ## What the structure depends on -/

/-- A pair apart from the text of its value. -/
def pairShape (pair : String × Option String) : String × Bool :=
  (pair.1, pair.2.isSome)

section SameExtents

variable {bindings' : Bindings} (htextual : bindings.AreTextual) (htextual' : bindings'.AreTextual)
  (hsame : bindings.SameExtents bindings')

include htextual htextual' hsame

theorem length_valueTexts_eq (value : Option String) :
    (t.valueTexts bindings value).length = (t.valueTexts bindings' value).length := by
  cases value with
  | none => rfl
  | some value =>
      cases hsole : solePlaceholder? value with
      | some name =>
          rw [valueTexts_of_sole hsole, valueTexts_of_sole hsole]
          refine length_collected_eq ?_
          rw [List.length_map, List.length_map, Bindings.length_textsOf htextual,
            Bindings.length_textsOf htextual', hsame name]
      | none =>
          rw [valueTexts_of_mixed hsole, valueTexts_of_mixed hsole, hsame.binds_eq]
          split <;> rfl

theorem shape_entryExpansions_eq (name : String) (values : List (Option String)) :
    (t.entryExpansions bindings name values).flatten.map pairShape =
      (t.entryExpansions bindings' name values).flatten.map pairShape := by
  by_cases hbare : values = [none]
  · rw [hbare]
    rfl
  have hshape : ∀ texts : List String,
      (texts.map fun text => (name, some text)).map pairShape =
        List.replicate texts.length (name, true) := by
    intro texts
    rw [List.map_map]
    change texts.map (fun _ => (name, true)) = _
    exact List.map_const' ..
  rw [flatten_entryExpansions_of_values name hbare, flatten_entryExpansions_of_values name hbare,
    hshape, hshape, List.length_flatMap, List.length_flatMap]
  simp only [length_valueTexts_eq htextual htextual' hsame]

/-- Names and number of the pairs follow from the variables and the number of their texts. -/
theorem shape_expansions_eq :
    (t.expansions bindings).flatten.map pairShape =
      (t.expansions bindings').flatten.map pairShape := by
  unfold expansions
  induction t.queries with
  | nil => rfl
  | cons entry rest ih =>
      rw [List.flatMap_cons, List.flatMap_cons, List.flatten_append, List.flatten_append,
        List.map_append, List.map_append, ih, shape_entryExpansions_eq htextual htextual' hsame]

end SameExtents

/-- What a value of the query and the pairs that it becomes have to do with each other. -/
structure IsExpansion (bindings : Bindings) (value : String × Option String)
    (pairs : List (String × Option String)) : Prop where
  names : ∀ pair ∈ pairs, pair.1 = value.1
  /-- A value that is one placeholder bound to a text becomes one pair that reads back as it. -/
  readsBack : ∀ text name s, value.2 = some text → solePlaceholder? text = some name →
    bindings.lookup name = some (.text s) →
    ∃ encoded, pairs = [(value.1, some encoded)] ∧ Percent.decode encoded = s

theorem isExpansion_valueTexts (name : String) (value : Option String) :
    IsExpansion bindings (name, value)
      ((t.valueTexts bindings value).map fun text => (name, some text)) := by
  refine ⟨?_, ?_⟩
  · intro pair hpair
    obtain ⟨text, -, rfl⟩ := List.mem_map.mp hpair
    rfl
  · intro text variableName s hvalue hsole hlookup
    refine ⟨Percent.encodeQuery s, ?_, Percent.decode_encodeQuery s⟩
    have htexts : bindings.textsOf variableName = [s] :=
      Bindings.textsOf_of_bound hlookup (rfl : Filling.ofValue (.text s) = .ok (.one s))
    obtain rfl : value = some text := hvalue
    rw [valueTexts_of_sole hsole, htexts]
    exact congrArg (List.map _) (collected_singleton t.format (Percent.encodeQuery s))

theorem isExpansion_entryExpansions (name : String) (values : List (Option String)) :
    List.Forall₂ (IsExpansion bindings) (values.map fun value => (name, value))
      (t.entryExpansions bindings name values) := by
  unfold entryExpansions
  rw [List.forall₂_map_left_iff, List.forall₂_map_right_iff]
  refine List.forall₂_same.mpr ?_
  intro value hvalue
  split
  next hbare =>
    rw [eq_of_beq hbare] at hvalue
    obtain rfl := List.mem_singleton.mp hvalue
    refine ⟨?_, fun text _ _ habsurd => by cases habsurd⟩
    intro pair hpair
    rw [List.mem_singleton.mp hpair]
  next => exact isExpansion_valueTexts name value

theorem isExpansion_expansions :
    List.Forall₂ (IsExpansion bindings) t.queryValues (t.expansions bindings) := by
  unfold queryValues expansions
  induction t.queries with
  | nil => exact .nil
  | cons entry rest ih =>
      rw [List.flatMap_cons, List.flatMap_cons]
      exact List.rel_append (isExpansion_entryExpansions entry.1 entry.2) ih

end Parameters

/-! ## Resolved templates -/

section Resolved

variable {t : Template} {bindings : Bindings}

/-- A built template whose query names hold no placeholders is resolved without a fault. -/
theorem resolve_of_built [Charsets] (hbuilt : IsBuilt t)
    (hnames : ∀ entry ∈ t.queries, placeholders entry.1 = []) (htextual : bindings.AreTextual) :
    ∃ t', t.resolve bindings = (t', none) ∧
      t'.queries = t.queries.filterMap (t.resolvedEntry bindings) := by
  have hqueries : ∀ path, ({ t with path := path } : Template).resolveQueries bindings =
      .ok (t.queries.filterMap (t.resolvedEntry bindings)) := by
    intro path
    exact resolveQueries_eq (t := { t with path := path }) htextual hbuilt.areReadable hnames
  unfold resolve
  rw [fill_eq htextual]
  dsimp only
  rw [hqueries]
  dsimp only
  rw [hbuilt.headers_eq]
  change ∃ t', (match t.bodyText with
    | none => _
    | some text => _) = (t', none) ∧ _
  rw [hbuilt.bodyText_eq]
  exact ⟨_, rfl, rfl⟩

/--
The texts that are bound to variables never change the structure of a query. The query of a
resolved template is split into its pairs and nothing else; every value of the template stands
for the pairs that it becomes, and a value that is one placeholder reads back as the text it
is bound to. Other texts for the same variables give other values under the same names.
-/
theorem resolve_keeps_structure [Charsets] (hbuilt : IsBuilt t)
    (hnames : ∀ entry ∈ t.queries, placeholders entry.1 = []) (htextual : bindings.AreTextual) :
    ∃ t' expansions, t.resolve bindings = (t', none) ∧
      splitQuery t'.queryLine.toList = t'.queryPairs ∧
      (t'.queryPairs ≠ [] →
        (Text.splitOn '&' t'.queryLine.toList).map queryPair = t'.queryPairs) ∧
      t'.queryPairs = expansions.flatten ∧
      List.Forall₂ (IsExpansion bindings) t.queryValues expansions ∧
      ∀ bindings' : Bindings, bindings'.AreTextual → bindings.SameExtents bindings' →
        ∃ t'', t.resolve bindings' = (t'', none) ∧
          t''.queryPairs.map pairShape = t'.queryPairs.map pairShape := by
  have hpairs : ∀ (b : Bindings) (t' : Template),
      t'.queries = t.queries.filterMap (t.resolvedEntry b) →
      t'.queryPairs = (t.expansions b).flatten := by
    intro b t' hqueries
    unfold queryPairs
    rw [hqueries]
    exact queryPairs_resolved t.queries
  obtain ⟨t', hresolve, hqueries⟩ := resolve_of_built hbuilt hnames htextual
  have hreadable : AreReadable t'.queries := by
    rw [hqueries]
    exact areReadable_resolved hbuilt.areReadable
  refine ⟨t', t.expansions bindings, hresolve, splitQuery_queryLine hreadable,
    map_queryPair_splitOn hreadable, hpairs bindings t' hqueries, isExpansion_expansions, ?_⟩
  intro bindings' htextual' hsame
  obtain ⟨t'', hresolve', hqueries'⟩ := resolve_of_built hbuilt hnames htextual'
  refine ⟨t'', hresolve', ?_⟩
  rw [hpairs bindings' t'' hqueries', hpairs bindings t' hqueries]
  exact (shape_expansions_eq htextual htextual' hsame).symm

open scoped CommonCharsets

theorem resolve_keeps_structure_of_marks :
    ∃ t' encoded, (uri { method := some .get } "/x?a=\x7bv\x7d" false).resolve
        [("v", .text "1&b=2")] = (t', none) ∧
      splitQuery t'.queryLine.toList = [("a", some encoded)] ∧
      Percent.decode encoded = "1&b=2" := by
  have hqueries : (uri { method := some .get } "/x?a=\x7bv\x7d" false).queries =
      [("a", [some "\x7bv\x7d"])] := rfl
  have hname : placeholders "a" = [] := by
    change (Piece.ofChars ['a']).filterMap Piece.name? = []
    simp [Piece.ofChars, Piece.name?]
  have hsole : solePlaceholder? "\x7bv\x7d" = some "v" := by
    have hclose : Piece.closeName? ['v', '}'] = some (['v'], []) := rfl
    have hpieces : piecesOf "\x7bv\x7d" = [.slot ['v']] := by
      change Piece.ofChars ['{', 'v', '}'] = _
      rw [Piece.ofChars, hclose]
      simp [Piece.ofChars]
    unfold solePlaceholder?
    rw [hpieces]
  have hnames : ∀ entry ∈ (uri { method := some .get } "/x?a=\x7bv\x7d" false).queries,
      placeholders entry.1 = [] := by
    intro entry hentry
    rw [hqueries] at hentry
    rw [List.mem_singleton.mp hentry]
    exact hname
  have htextual : Bindings.AreTextual [("v", .text "1&b=2")] := by
    intro name value hlookup
    obtain ⟨before, after, hsplit, -⟩ := List.lookup_eq_some_iff.mp hlookup
    have hbound : (name, value) ∈ [("v", Value.text "1&b=2")] := by
      rw [hsplit]
      exact List.mem_append_right _ List.mem_cons_self
    exact Or.inl ⟨_, congrArg Prod.snd (List.mem_singleton.mp hbound)⟩
  obtain ⟨t', expansions, hresolve, hsplit, -, hpairs, hexpansions, -⟩ :=
    resolve_keeps_structure (.uri (.fresh (some .get) "utf-8" true .exploded)
      "/x?a=\x7bv\x7d" false) hnames htextual
  unfold queryValues at hexpansions
  rw [hqueries] at hexpansions
  obtain ⟨pairs, rest, hexpansion, hrest, rfl⟩ := List.forall₂_cons_left_iff.mp hexpansions
  obtain rfl := List.forall₂_nil_left_iff.mp hrest
  obtain ⟨encoded, rfl, hencoded⟩ := hexpansion.readsBack _ _ _ rfl hsole rfl
  exact ⟨t', encoded, hresolve, hsplit.trans hpairs, hencoded⟩

end Resolved

end Template

end HttpBinding
