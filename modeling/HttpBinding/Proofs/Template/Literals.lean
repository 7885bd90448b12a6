import HttpBinding.Proofs.Target.Below

/-!
# Query parts without placeholders

An address with a query brings its parts into the query of a template, where they stand
beside the parts that are there already and are resolved like them. A part with a value
and without placeholders comes through unchanged. A bare name does so as long as it stays
alone: a name that occurs once more, or that another name becomes, is one parameter with
several values, and what is missing among several values is not written.
-/

namespace HttpBinding.Template

/-- The parts of the query of an address, from its first `?` on. -/
def addressParts (address : String) : List (List Char) :=
  Text.splitOn '&' ((Text.cut '?' address.toList).2.getD [])

/-- An address without its query and the slashes before it. -/
def addressStem (address : String) : String :=
  String.ofList (dropSlashes (Text.cut '?' address.toList).1)

variable {t t' : Template} {bindings : Bindings} {queries done resolved : Queries} {name : String}

theorem dropSlashes_append {c : Char} (hc : c ≠ '/') (before after : List Char) :
    dropSlashes (before ++ c :: after) = before ++ c :: dropSlashes after := by
  have hkept : ((c :: before.reverse).dropWhile fun c => c == '/') = c :: before.reverse := by
    rw [List.dropWhile_cons_of_neg]
    simpa using hc
  unfold dropSlashes
  rw [List.reverse_append, List.reverse_cons, List.append_assoc, List.singleton_append,
    List.dropWhile_append, hkept]
  split
  next hempty => simp [List.isEmpty_iff.mp hempty]
  next => simp

/-- An absolute address has an absolute stem: no slash of its scheme is one at its end. -/
theorem startsWith_http_addressStem {address : String}
    (hscheme : startsWith "http://" address = true ∨ startsWith "https://" address = true) :
    startsWith "http" (addressStem address) = true := by
  have hstem : ∀ before, ['h', 't', 't', 'p'] <+: before → '?' ∉ before →
      before ++ [':'] <+: address.toList → startsWith "http" (addressStem address) = true := by
    intro before hbefore hmark haddress
    have hcut : before ++ [':'] <+: (Text.cut '?' address.toList).1 :=
      Text.prefix_cut_fst haddress (by simpa using hmark)
    obtain ⟨after, hafter⟩ := hcut
    have hstem : (addressStem address).toList = before ++ ':' :: dropSlashes after := by
      unfold addressStem
      rw [String.toList_ofList, ← hafter, List.append_assoc, List.singleton_append,
        dropSlashes_append (by decide)]
    rw [startsWith_iff, hstem]
    exact hbefore.trans (List.prefix_append _ _)
  rcases hscheme with hplain | hsecure
  · refine hstem ['h', 't', 't', 'p'] (List.prefix_refl _) (by decide) ?_
    exact List.IsPrefix.trans ⟨['/', '/'], rfl⟩ (startsWith_iff.mp hplain)
  · refine hstem ['h', 't', 't', 'p', 's'] ⟨['s'], rfl⟩ (by decide) ?_
    exact List.IsPrefix.trans ⟨['/', '/'], rfl⟩ (startsWith_iff.mp hsecure)

/-! ## Parts that are merged -/

theorem has_addPairs_of_has {value : Option String} (hhas : queries.Has name value)
    (pairs : List (String × Option String)) : (addPairs pairs queries).Has name value := by
  induction pairs generalizing queries with
  | nil => exact hhas
  | cons pair rest ih => exact ih hhas.extend

theorem has_addPairs {pairs : List (String × Option String)} {pair : String × Option String}
    (hpair : pair ∈ pairs) : (addPairs pairs queries).Has pair.1 pair.2 := by
  induction pairs generalizing queries with
  | nil => cases hpair
  | cons first rest ih =>
      rcases List.mem_cons.mp hpair with rfl | hrest
      · exact has_addPairs_of_has (Entries.has_extend_self (List.mem_singleton_self _)) rest
      · exact ih hrest

/-- Every part of the query of an address is one of the template that takes the address over. -/
theorem has_target {address : String} {part : List Char} (hpart : part ∈ addressParts address)
    (hsome : part ≠ []) :
    (t.target address).queries.Has (queryPair part).1 (queryPair part).2 := by
  rw [target_eq]
  refine has_addPairs (List.mem_map_of_mem (List.mem_filter.mpr ⟨hpart, ?_⟩))
  simpa using hsome

theorem queryPair_of_mem {part : List Char} (hequals : '=' ∈ part) :
    ∃ value, (queryPair part).2 = some value ∧
      String.ofList part = (queryPair part).1 ++ "=" ++ value := by
  obtain ⟨before, after, rfl, hbefore⟩ := List.eq_append_cons_of_mem hequals
  rw [queryPair_append hbefore]
  refine ⟨String.ofList after, rfl, String.toList_inj.mp ?_⟩
  simp

/-- The placeholders of a part are those of its name and those of its value. -/
theorem placeholders_part (part : List Char) :
    placeholders (String.ofList part) =
      placeholders (queryPair part).1 ++ placeholders ((queryPair part).2.getD "") := by
  have hcut := Text.cut_fst_append '=' part
  have hempty : placeholders "" = [] := placeholders_of_no_brace (by simp)
  have hequals : Piece.isNameChar '=' = false := rfl
  change _ = placeholders (String.ofList (Text.cut '=' part).1) ++
    placeholders (((Text.cut '=' part).2.map String.ofList).getD "")
  cases hvalue : (Text.cut '=' part).2 with
  | none =>
      rw [hvalue, List.append_nil] at hcut
      rw [hcut, Option.map_none, Option.getD_none, hempty, List.append_nil]
  | some value =>
      rw [hvalue] at hcut
      rw [Option.map_some, Option.getD_some,
        ← placeholders_append_cons hequals (by decide) (by decide), hcut]

/-- A part without placeholders has none in its name and none in its value. -/
theorem placeholders_queryPair {part : List Char} (hnone : placeholders (String.ofList part) = []) :
    placeholders (queryPair part).1 = [] ∧
      ∀ value, (queryPair part).2 = some value → placeholders value = [] := by
  rw [placeholders_part, List.append_eq_nil_iff] at hnone
  refine ⟨hnone.1, fun value hvalue => ?_⟩
  rw [← hnone.2, hvalue, Option.getD_some]

/-! ## Parts that are resolved -/

theorem fill_of_fillIfBound {encode : String → String} {text filled : String}
    (hfill : fillIfBound bindings encode text = .ok (some filled)) :
    fill bindings encode text = .ok filled := by
  unfold fillIfBound at hfill
  dsimp only at hfill
  split at hfill
  · cases hfill
  · obtain ⟨_, hfilled, hsome⟩ := map_eq_ok.mp hfill
    rw [hfilled, Option.some.inj hsome]

theorem resolveQueryValue_of_no_placeholders {value : String} (hnone : placeholders value = []) :
    t.resolveQueryValue bindings (some value) = .ok [some value] := by
  rw [resolveQueryValue, solePlaceholder?_of_no_placeholders hnone]
  dsimp only
  rw [fillIfBound_of_no_placeholders hnone]
  rfl

theorem mem_resolveQueryValues {value : String} {values filled : List (Option String)}
    (hnone : placeholders value = []) (hvalue : some value ∈ values)
    (hfilled : t.resolveQueryValues bindings values = .ok filled) : some value ∈ filled := by
  induction values generalizing filled with
  | nil => cases hvalue
  | cons first rest ih =>
      rw [resolveQueryValues] at hfilled
      obtain ⟨texts, hfirst, hfilled⟩ := bind_eq_ok.mp hfilled
      obtain ⟨others, hothers, hfilled⟩ := bind_eq_ok.mp hfilled
      obtain rfl := Except.ok.inj hfilled
      rcases List.mem_cons.mp hvalue with rfl | hrest
      · rw [resolveQueryValue_of_no_placeholders hnone] at hfirst
        obtain rfl := Except.ok.inj hfirst
        exact List.mem_append_left _ (List.mem_singleton_self _)
      · exact List.mem_append_right _ (ih hrest hothers)

/-- What is resolved already is still there in the end. -/
theorem has_resolveQueriesFrom_of_done {value : Option String} (hhas : done.Has name value)
    (hresolved : t.resolveQueriesFrom bindings done queries = .ok resolved) :
    resolved.Has name value := by
  induction queries generalizing done with
  | nil =>
      obtain rfl := Except.ok.inj hresolved
      exact hhas
  | cons entry rest ih =>
      rcases resolveQueriesFrom_step hresolved with ⟨other, values, -, -, -, hrest⟩ | ⟨-, hrest⟩
      · exact ih hhas.extend hrest
      · exact ih hhas hrest

/-- A value without placeholders under a name without placeholders comes through. -/
theorem has_resolveQueriesFrom {value : String} (hname : placeholders name = [])
    (hvalue : placeholders value = []) (hhas : queries.Has name (some value))
    (hresolved : t.resolveQueriesFrom bindings done queries = .ok resolved) :
    resolved.Has name (some value) := by
  induction queries generalizing done with
  | nil =>
      obtain ⟨values, hentry, -⟩ := hhas
      cases hentry
  | cons entry rest ih =>
      obtain ⟨values, hentry, hmem⟩ := hhas
      rcases List.mem_cons.mp hentry with rfl | hlater
      · have hpresent : ∀ filled, t.resolveQueryValues bindings values = .ok filled →
            some value ∈ filled := fun filled => mem_resolveQueryValues hvalue hmem
        rcases resolveQueriesFrom_step hresolved with
          ⟨filledName, filled, hfilledName, hfilled, -, hrest⟩ | ⟨hdropped | ⟨hdropped, -⟩, -⟩
        · rw [fillIfBound_of_no_placeholders hname] at hfilledName
          obtain rfl := Option.some.inj (Except.ok.inj hfilledName)
          rw [if_neg (List.ne_nil_of_mem (hpresent filled hfilled))] at hrest
          exact has_resolveQueriesFrom_of_done
            (Entries.has_extend_self (hpresent filled hfilled)) hrest
        · rw [fillIfBound_of_no_placeholders hname] at hdropped
          cases hdropped
        · cases hpresent [] hdropped
      · have hothers : Entries.Has rest name (some value) := ⟨values, hlater, hmem⟩
        rcases resolveQueriesFrom_step hresolved with ⟨other, filled, -, -, -, hrest⟩ | ⟨-, hrest⟩
        · exact ih hothers hrest
        · exact ih hothers hrest

/-- A bare name that no other part of a query has, and that no other name is filled to. -/
structure StandsAlone (bindings : Bindings) (queries : Queries) (name : String) : Prop where
  once : (name, [none]) ∈ queries
  apart : ∀ other ∈ queries.keys, fill bindings id other = .ok name → other = name

theorem mem_resolveQueriesFrom_of_done {entry : String × List (Option String)} (hentry : entry ∈ done)
    (hapart : ∀ other ∈ queries.keys, fill bindings id other ≠ .ok entry.1)
    (hresolved : t.resolveQueriesFrom bindings done queries = .ok resolved) : entry ∈ resolved := by
  induction queries generalizing done with
  | nil =>
      obtain rfl := Except.ok.inj hresolved
      exact hentry
  | cons first rest ih =>
      have hlater : ∀ other ∈ Entries.keys rest, fill bindings id other ≠ .ok entry.1 :=
        fun other hother => hapart other (List.mem_cons_of_mem _ hother)
      rcases resolveQueriesFrom_step hresolved with ⟨other, values, hother, -, -, hrest⟩ | ⟨-, hrest⟩
      · have hne : entry.1 ≠ other := by
          rintro rfl
          exact hapart first.1 List.mem_cons_self (fill_of_fillIfBound hother)
        exact ih (Entries.mem_extend_of_ne hentry hne) hlater hrest
      · exact ih hentry hlater hrest

/-- A bare name without placeholders comes through if it stands alone. -/
theorem mem_resolveQueriesFrom_of_alone (hname : placeholders name = []) (hnodup : queries.keys.Nodup)
    (halone : StandsAlone bindings queries name) (hnew : name ∉ done.keys)
    (hresolved : t.resolveQueriesFrom bindings done queries = .ok resolved) :
    (name, [none]) ∈ resolved := by
  induction queries generalizing done with
  | nil => cases halone.once
  | cons entry rest ih =>
      obtain ⟨hfirst, hnodup⟩ := List.nodup_cons.mp hnodup
      rcases List.mem_cons.mp halone.once with rfl | hlater
      · -- No name after this one becomes the same, so that the entry stays as it is added here.
        have hapart : ∀ other ∈ Entries.keys rest, fill bindings id other ≠ .ok name := by
          intro other hother hfill
          rw [halone.apart other (List.mem_cons_of_mem _ hother) hfill] at hother
          exact hfirst hother
        have hkept : t.resolveQueriesFrom bindings (done.extend name [none]) rest = .ok resolved := by
          rw [resolveQueriesFrom, fillIfBound_of_no_placeholders hname] at hresolved
          exact hresolved
        rw [Entries.extend_of_not_mem hnew] at hkept
        refine mem_resolveQueriesFrom_of_done ?_ hapart hkept
        exact List.mem_append_right _ (List.mem_singleton_self _)
      · have hmore : StandsAlone bindings rest name :=
          ⟨hlater, fun other hother => halone.apart other (List.mem_cons_of_mem _ hother)⟩
        rcases resolveQueriesFrom_step hresolved with ⟨other, values, hother, -, -, hrest⟩ | ⟨-, hrest⟩
        · refine ih hnodup hmore ?_ hrest
          -- The name before this one is another one, so that it is filled to something else.
          have hne : other ≠ name := by
            rintro rfl
            have hsame := halone.apart entry.1 List.mem_cons_self (fill_of_fillIfBound hother)
            rw [hsame] at hfirst
            exact hfirst (List.mem_map_of_mem hlater)
          rw [Entries.keys_extend]
          split
          · exact hnew
          · simpa using ⟨hnew, hne.symm⟩
        · exact ih hnodup hmore hnew hrest

/-! ## Parts of the address of a request -/

theorem mem_splitOn_queryLine {entry : String × List (Option String)} (hentry : entry ∈ t.queries)
    {part : String} (hpart : part ∈ queryParts entry.1 entry.2) (hmark : '&' ∉ part.toList) :
    part.toList ∈ Text.splitOn '&' t.queryLine.toList := by
  unfold queryLine
  rw [String.toList_intercalate]
  refine Text.mem_splitOn_intercalate (List.mem_map_of_mem ?_) hmark
  exact List.mem_flatMap.mpr ⟨entry, hentry, hpart⟩

theorem mem_queryParts {value : String} {values : List (Option String)} (hvalue : some value ∈ values) :
    name ++ "=" ++ value ∈ queryParts name values := by
  have hpresent : value ∈ values.filterMap id := List.mem_filterMap.mpr ⟨_, hvalue, rfl⟩
  unfold queryParts
  split
  next hnone =>
    rw [hnone] at hpresent
    cases hpresent
  next => exact List.mem_map_of_mem hpresent

theorem mem_addressParts_url (hbase : '?' ∉ t.base.toList) (hpath : '?' ∉ t.path.toList)
    {entry : String × List (Option String)} (hentry : entry ∈ t.queries) {part : String}
    (hpart : part ∈ queryParts entry.1 entry.2) (hmark : '&' ∉ part.toList) :
    part.toList ∈ addressParts t.url := by
  unfold addressParts
  rw [(cut_url hbase hpath).2]
  exact mem_splitOn_queryLine hentry hpart hmark

end HttpBinding.Template
