import HttpBinding.Proofs.Plan.Filling
import HttpBinding.Proofs.Template.GappedTables

/-!
# The steps of two calls

Two calls of a method that differ in one argument take the same steps. As long as that argument
does nothing but give its text to some variables, their bindings differ in these variables only,
their forms are one form with gaps, and every body that another argument makes is the same.
-/

namespace HttpBinding

/-- An argument that does nothing but give its text to some variables, which no other one does. -/
structure Plan.IsVariable (plan : Plan) (index : Nat) (names : List String) : Prop where
  bound : (index, names) ∈ plan.names
  alone : ∀ entry ∈ plan.names, entry.1 ≠ index → ∀ name ∈ names, name ∉ entry.2
  expander : plan.expanders.lookup index = none
  headerMap : plan.headerMapIndex ≠ some index

variable {names : List String} {a b : String} {plan : Plan} {index : Nat} {arguments : List Value}
  {bindings bindings' done done' : Bindings}

/-! ## Bindings -/

section Bound

theorem forall₂_differAt_put (hdone : List.Forall₂ (DifferAt names a b) done done') {name : String}
    {value value' : Value} (hvalue : DifferAt names a b (name, value) (name, value')) :
    List.Forall₂ (DifferAt names a b) (Entries.put name value done) (Entries.put name value' done') := by
  induction hdone with
  | nil => exact .cons hvalue .nil
  | @cons entry entry' rest rest' hentry hrest ih =>
      obtain ⟨key, old⟩ := entry
      obtain ⟨key', old'⟩ := entry'
      obtain rfl : key' = key := hentry.1
      rw [Entries.put, Entries.put]
      split
      · exact .cons hvalue hrest
      · exact .cons hentry ih

theorem forall₂_differAt_puts {others : List String} {value value' : Value}
    (hvalue : ∀ name ∈ others, DifferAt names a b (name, value) (name, value'))
    (hdone : List.Forall₂ (DifferAt names a b) done done') :
    List.Forall₂ (DifferAt names a b) (others.foldl (fun done name => Entries.put name value done) done)
      (others.foldl (fun done name => Entries.put name value' done) done') := by
  induction others generalizing done done' with
  | nil => exact hdone
  | cons name rest ih =>
      have hfirst := hvalue name List.mem_cons_self
      exact ih (fun other hother => hvalue other (List.mem_cons_of_mem _ hother))
        (forall₂_differAt_put hdone hfirst)

theorem mem_keys_puts {others : List String} {value : Value} {name : String}
    (hname : name ∈ done.keys ∨ name ∈ others) :
    name ∈ (others.foldl (fun done name => Entries.put name value done) done).keys := by
  induction others generalizing done with
  | nil => exact hname.resolve_right List.not_mem_nil
  | cons other rest ih =>
      refine ih ?_
      rw [Entries.keys_put]
      rcases hname with hold | hname
      · refine Or.inl ?_
        split
        · exact hold
        · exact List.mem_append_left _ hold
      · rcases List.mem_cons.mp hname with rfl | hrest
        · refine Or.inl ?_
          split
          next hmem => exact hmem
          next => exact List.mem_append_right _ (List.mem_singleton_self _)
        · exact Or.inr hrest

namespace Plan

theorem argument_set_of_ne {position : Nat} (hne : position ≠ index) (value : Value) :
    argument (arguments.set index value) position = argument arguments position := by
  unfold argument
  rw [List.getElem?_set_ne hne.symm]

theorem argument_set_self {value : Value} (hargument : arguments[index]? = some value) (other : Value) :
    argument (arguments.set index other) index = .ok other := by
  have hlt : index < arguments.length := (List.getElem?_eq_some_iff.mp hargument).1
  unfold argument
  rw [List.getElem?_set_self hlt]

theorem expand_text (hexpander : plan.expanders.lookup index = none) (s : String) :
    plan.expand index (.text s) = .ok (.text s) := by
  unfold expand
  rw [hexpander]
  rfl

theorem bindFrom_text {s : String} (hargument : argument arguments index = .ok (.text s))
    (hexpander : plan.expanders.lookup index = none) (rest : Entries Nat (List String)) :
    plan.bindFrom arguments done ((index, names) :: rest) =
      plan.bindFrom arguments (names.foldl (fun done name => Entries.put name (.text s) done) done)
        rest := by
  rw [bindFrom, hargument]
  change (plan.expand index (.text s)).bind _ = _
  rw [expand_text hexpander]
  rfl

/-- One argument is bound to its variables in both calls, or in neither. -/
theorem differ_bindFrom_step (hargument : arguments[index]? = some (.text a))
    (hexpander : plan.expanders.lookup index = none) {entry : Nat × List String}
    {rest : Entries Nat (List String)} (hown : entry.1 = index → entry.2 = names)
    (hother : entry.1 ≠ index → ∀ name ∈ names, name ∉ entry.2)
    (hdone : List.Forall₂ (DifferAt names a b) done done')
    (hbound : plan.bindFrom arguments done (entry :: rest) = .ok bindings)
    (hbound' : plan.bindFrom (arguments.set index (.text b)) done' (entry :: rest) = .ok bindings') :
    ∃ next next', plan.bindFrom arguments next rest = .ok bindings ∧
      plan.bindFrom (arguments.set index (.text b)) next' rest = .ok bindings' ∧
      List.Forall₂ (DifferAt names a b) next next' ∧
      ∀ name, name ∈ done.keys ∨ entry.1 = index ∧ name ∈ names → name ∈ next.keys := by
  obtain ⟨position, others⟩ := entry
  dsimp only at hown hother ⊢
  by_cases hposition : position = index
  · subst hposition
    obtain rfl : others = names := hown rfl
    have hfound : argument arguments position = .ok (.text a) := by
      unfold argument
      rw [hargument]
    rw [bindFrom_text hfound hexpander] at hbound
    rw [bindFrom_text (argument_set_self hargument _) hexpander] at hbound'
    have hvalue : ∀ name ∈ others, DifferAt others a b (name, .text a) (name, .text b) := by
      intro name hname
      refine ⟨rfl, ?_⟩
      rw [if_pos hname]
      exact ⟨rfl, rfl⟩
    exact ⟨_, _, hbound, hbound', forall₂_differAt_puts hvalue hdone,
      fun name hname => mem_keys_puts (hname.imp_right And.right)⟩
  · rw [bindFrom] at hbound hbound'
    rw [argument_set_of_ne hposition] at hbound'
    obtain ⟨value, hvalue, hbound⟩ := bind_eq_ok.mp hbound
    obtain ⟨value', hvalue', hbound'⟩ := bind_eq_ok.mp hbound'
    obtain rfl := Except.ok.inj (hvalue'.symm.trans hvalue)
    have hkeys : ∀ {name : String}, name ∈ done.keys ∨ position = index ∧ name ∈ names →
        name ∈ done.keys := fun hname => hname.resolve_right fun h => hposition h.1
    split at hbound
    next hnull =>
      rw [if_pos hnull] at hbound'
      exact ⟨done, done', hbound, hbound', hdone, fun name hname => hkeys hname⟩
    next hnull =>
      rw [if_neg hnull] at hbound'
      obtain ⟨expanded, hexpanded, hbound⟩ := bind_eq_ok.mp hbound
      obtain ⟨expanded', hexpanded', hbound'⟩ := bind_eq_ok.mp hbound'
      obtain rfl := Except.ok.inj (hexpanded'.symm.trans hexpanded)
      have hputs : ∀ name ∈ others, DifferAt names a b (name, expanded') (name, expanded') := by
        intro name hname
        refine ⟨rfl, ?_⟩
        rw [if_neg fun hmem => hother hposition name hmem hname]
      exact ⟨_, _, hbound, hbound', forall₂_differAt_puts hputs hdone,
        fun name hname => mem_keys_puts (Or.inl (hkeys hname))⟩

/-- Bindings of two calls differ in the variables of the argument that differs. -/
theorem differ_bindFrom (hargument : arguments[index]? = some (.text a))
    (hexpander : plan.expanders.lookup index = none) {entries : Entries Nat (List String)}
    (hentries : ∀ entry ∈ entries,
      (entry.1 = index → entry.2 = names) ∧ (entry.1 ≠ index → ∀ name ∈ names, name ∉ entry.2))
    (hdone : List.Forall₂ (DifferAt names a b) done done')
    (hbound : plan.bindFrom arguments done entries = .ok bindings)
    (hbound' : plan.bindFrom (arguments.set index (.text b)) done' entries = .ok bindings') :
    List.Forall₂ (DifferAt names a b) bindings bindings' ∧
      (∀ name, name ∈ done.keys ∨ index ∈ entries.keys ∧ name ∈ names → name ∈ bindings.keys) := by
  induction entries generalizing done done' with
  | nil =>
      obtain rfl := Except.ok.inj hbound
      obtain rfl := Except.ok.inj hbound'
      refine ⟨hdone, ?_⟩
      rintro name (hold | ⟨habsent, -⟩)
      · exact hold
      · cases habsent
  | cons entry rest ih =>
      obtain ⟨hown, hother⟩ := hentries entry List.mem_cons_self
      obtain ⟨next, next', hnext, hnext', hdiffer, hkeys⟩ :=
        differ_bindFrom_step hargument hexpander hown hother hdone hbound hbound'
      obtain ⟨hbindings, hmore⟩ :=
        ih (fun entry hentry => hentries entry (List.mem_cons_of_mem _ hentry)) hdiffer hnext hnext'
      refine ⟨hbindings, ?_⟩
      rintro name (hold | ⟨hposition, hname⟩)
      · exact hmore name (Or.inl (hkeys name (Or.inl hold)))
      · rcases List.mem_cons.mp hposition with heq | hrest
        · exact hmore name (Or.inl (hkeys name (Or.inr ⟨heq.symm, hname⟩)))
        · exact hmore name (Or.inr ⟨hrest, hname⟩)

theorem differ_bindings (hvariable : plan.IsVariable index names) (hnames : plan.names.keys.Nodup)
    (hargument : arguments[index]? = some (.text a)) (hbound : plan.bindings arguments = .ok bindings)
    (hbound' : plan.bindings (arguments.set index (.text b)) = .ok bindings') :
    Bindings.Differ names a b bindings bindings' := by
  have hentries : ∀ entry ∈ plan.names,
      (entry.1 = index → entry.2 = names) ∧ (entry.1 ≠ index → ∀ name ∈ names, name ∉ entry.2) := by
    intro entry hentry
    refine ⟨?_, hvariable.alone entry hentry⟩
    intro hposition
    rw [List.inj_on_of_nodup_map hnames hentry hvariable.bound hposition]
  obtain ⟨hdiffer, hkeys⟩ :=
    differ_bindFrom hargument hvariable.expander hentries .nil hbound hbound'
  exact ⟨hdiffer, fun name hname =>
    hkeys name (Or.inr ⟨List.mem_map_of_mem hvariable.bound, hname⟩)⟩

end Plan

end Bound

/-! ## Forms -/

section Forms

/-- The parts of a form that a binding makes, if its variable belongs to the form. -/
def formParts (isForm : String → Bool) (entry : String × Value) : List String :=
  if isForm entry.1 then Form.partsOf (.text entry.1) entry.2 else []

theorem ofValue_formOf (plan : Plan) (bindings : Bindings) :
    Form.ofValue (plan.formOf bindings) =
      .ok ("&".intercalate (bindings.flatMap (formParts plan.isFormName))) := by
  have hparts : ((bindings.filter fun entry => plan.isFormName entry.1).map fun entry =>
      ((.text entry.1, entry.2) : Value × Value)).flatMap (fun entry => Form.partsOf entry.1 entry.2) =
        bindings.flatMap (formParts plan.isFormName) := by
    induction bindings with
    | nil => rfl
    | cons entry rest ih =>
        rw [List.flatMap_cons, ← ih]
        unfold formParts
        by_cases hform : plan.isFormName entry.1 = true
        · rw [List.filter_cons, if_pos hform, if_pos hform, List.map_cons, List.flatMap_cons]
        · rw [List.filter_cons, if_neg hform, if_neg hform, List.nil_append]
  rw [← hparts]
  rfl

theorem formParts_gapped (isForm : String → Bool) {entry entry' : String × Value}
    (hentry : DifferAt names a b entry entry') :
    ∃ gs : List Gapped, formParts isForm entry = gs.map (Gapped.text (Percent.encodeForm a)) ∧
      formParts isForm entry' = gs.map (Gapped.text (Percent.encodeForm b)) ∧
      (entry.1 ∈ names → isForm entry.1 = true → ∃ g ∈ gs, none ∈ g) := by
  obtain ⟨key, value⟩ := entry
  obtain ⟨key', value'⟩ := entry'
  obtain ⟨rfl, hvalues⟩ : key' = key ∧ _ := hentry
  dsimp only at hvalues
  unfold formParts
  dsimp only
  split
  next hform =>
    split at hvalues
    next hname =>
      obtain ⟨rfl, rfl⟩ := hvalues
      have hpart : ∀ s : String, Form.partsOf (.text key') (.text s) =
          [(Gapped.literal (Form.encodeItem (.text key') ++ "=") ++ [none]).text
            (Percent.encodeForm s)] := by
        intro s
        refine congrArg (fun part => [part]) (String.toList_inj.mp ?_)
        simp [Form.encodeItem, Value.plainText]
      refine ⟨[Gapped.literal (Form.encodeItem (.text key') ++ "=") ++ [none]], hpart a, hpart b, ?_⟩
      exact fun _ _ => ⟨_, List.mem_singleton_self _,
        List.mem_append_right _ (List.mem_singleton_self _)⟩
    next hname =>
      subst hvalues
      exact ⟨(Form.partsOf (.text key') value').map Gapped.literal,
        (Template.map_literal_text _ _).symm, (Template.map_literal_text _ _).symm,
        fun hmem => absurd hmem hname⟩
  next hform => exact ⟨[], rfl, rfl, fun _ hother => absurd hother hform⟩

/-- The forms of two calls are one form with a gap for each variable that belongs to it. -/
theorem form_gapped (plan : Plan) (hdiffer : Bindings.Differ names a b bindings bindings') :
    ∃ g : Gapped, Form.ofValue (plan.formOf bindings) = .ok (g.text (Percent.encodeForm a)) ∧
      Form.ofValue (plan.formOf bindings') = .ok (g.text (Percent.encodeForm b)) ∧
      ∀ name ∈ names, plan.isFormName name = true → none ∈ g := by
  have hparts : ∃ gs : List Gapped,
      bindings.flatMap (formParts plan.isFormName) = gs.map (Gapped.text (Percent.encodeForm a)) ∧
      bindings'.flatMap (formParts plan.isFormName) = gs.map (Gapped.text (Percent.encodeForm b)) ∧
      ∀ entry ∈ bindings, entry.1 ∈ names → plan.isFormName entry.1 = true → ∃ g ∈ gs, none ∈ g := by
    obtain ⟨hentries, -⟩ := hdiffer
    induction hentries with
    | nil => exact ⟨[], rfl, rfl, fun entry habsent => by cases habsent⟩
    | @cons entry entry' rest rest' hentry _ ih =>
        obtain ⟨hs, hhs, hhs', hmore⟩ := ih
        obtain ⟨gs, hgs, hgs', hgap⟩ := formParts_gapped plan.isFormName hentry
        refine ⟨gs ++ hs, ?_, ?_, ?_⟩
        · rw [List.flatMap_cons, hgs, hhs, List.map_append]
        · rw [List.flatMap_cons, hgs', hhs', List.map_append]
        · intro other hother hname hform
          rcases List.mem_cons.mp hother with rfl | hrest
          · obtain ⟨g, hg, hnone⟩ := hgap hname hform
            exact ⟨g, List.mem_append_left _ hg, hnone⟩
          · obtain ⟨g, hg, hnone⟩ := hmore other hrest hname hform
            exact ⟨g, List.mem_append_right _ hg, hnone⟩
  obtain ⟨gs, hgs, hgs', hgap⟩ := hparts
  refine ⟨Gapped.join "&" gs, ?_, ?_, ?_⟩
  · rw [ofValue_formOf, Gapped.text_join, ← hgs]
  · rw [ofValue_formOf, Gapped.text_join, ← hgs']
  · intro name hname hform
    obtain ⟨entry, hentry, rfl⟩ := List.mem_map.mp (hdiffer.bound name hname)
    obtain ⟨g, hg, hnone⟩ := hgap entry hentry hname hform
    exact Gapped.mem_join hg hnone

end Forms

/-! ## Bodies -/

section Bodies

open Template

variable {t t' w : Template} {headers : Headers}

theorem headers_withContentType (contentType : String) (hheaders : t'.headers = t.headers) :
    (Encoder.withContentType contentType t').headers =
      (Encoder.withContentType contentType t).headers := by
  have hvalues : t'.headerValues "Content-Type" = t.headerValues "Content-Type" := by
    unfold headerValues
    rw [hheaders]
  unfold Encoder.withContentType
  rw [hvalues]
  split
  · unfold header
    dsimp only
    rw [hheaders]
  · exact hheaders

/-- Setting the content type where none is set leaves the headers that are set. -/
theorem mem_headers_withContentType (contentType : String) (hvalues : ∀ entry ∈ t.headers, entry.2 ≠ [])
    {entry : String × List String} (hentry : entry ∈ t.headers) :
    entry ∈ (Encoder.withContentType contentType t).headers := by
  unfold Encoder.withContentType
  split
  next hunset =>
    have hnone : headerKey? t.headers "Content-Type" = none := by
      cases hkey : headerKey? t.headers "Content-Type" with
      | none => rfl
      | some key =>
          obtain ⟨found, hfound, rfl⟩ := Option.map_eq_some_iff.mp hkey
          obtain ⟨values, hlookup⟩ : ∃ values, t.headers.lookup found.1 = some values := by
            refine Option.isSome_iff_exists.mp (List.lookup_isSome_iff.mpr ?_)
            exact ⟨found, List.mem_of_find?_eq_some hfound, by simp⟩
          obtain ⟨before, after, hheaders, -⟩ := List.lookup_eq_some_iff.mp hlookup
          have hmem : (found.1, values) ∈ t.headers := by
            rw [hheaders]
            exact List.mem_append_right _ List.mem_cons_self
          unfold headerValues at hunset
          rw [hkey] at hunset
          dsimp only at hunset
          rw [hlookup] at hunset
          exact absurd (List.isEmpty_iff.mp hunset) (hvalues _ hmem)
    have hput : (t.header "Content-Type" [contentType]).headers =
        t.headers ++ [("Content-Type", [contentType])] := by
      unfold header
      rw [hnone]
      exact Entries.put_of_not_mem (not_mem_keys_of_headerKey? hnone)
    rw [hput]
    exact List.mem_append_left _ hentry
  next => exact hentry

/-- Only for a form the usual encoder sets a header. -/
theorem headers_encodeUsual [Charsets] {value : Value} {ty : Ty}
    (hencode : Encoder.encodeUsual value ty t = (w, none)) :
    w.headers =
      if ty.isForm then (Encoder.withContentType Encoder.formType t).headers else t.headers := by
  have htext : ∀ {text : String} {w : Template}, t.setBodyText text = (w, none) →
      w.headers = t.headers := by
    intro text w hset
    unfold setBodyText at hset
    split at hset
    · obtain ⟨rfl, -⟩ := Prod.mk.inj hset
      rfl
    · simp at hset
  unfold Encoder.encodeUsual at hencode
  split at hencode
  next hform =>
    rw [if_pos hform]
    unfold Encoder.encodeForm at hencode
    split at hencode
    · simp at hencode
    · split at hencode
      next between hset =>
        obtain ⟨rfl, -⟩ := Prod.mk.inj hencode
        exact headers_withContentType _ (htext hset)
      next => simp at hencode
  next hform =>
    rw [if_neg hform]
    split at hencode
    · exact htext hencode
    split at hencode
    · split at hencode
      · obtain ⟨rfl, -⟩ := Prod.mk.inj hencode
        rfl
      · simp at hencode
    split at hencode
    · obtain ⟨rfl, -⟩ := Prod.mk.inj hencode
      rfl
    · simp at hencode

namespace Plan

/-- Whether the body that a call writes is a form. -/
def writesForm (plan : Plan) : Bool :=
  match plan.strategy with
  | .form => true
  | .body => (plan.bodyType.getD .null).isForm
  | .plain => false

theorem encode_of_encodeBody [Charsets] {what : String} {value : Value} {ty : Ty}
    (hencode : encodeBody .usual what value ty t = .ok w) :
    Encoder.encodeUsual value ty t = (w, none) := by
  unfold encodeBody at hencode
  split at hencode
  next written hwritten =>
    obtain rfl := Except.ok.inj hencode
    exact hwritten
  next => cases hencode

theorem headers_setBody [Charsets] (hset : plan.setBody .usual arguments bindings t = .ok w) :
    w.headers =
      if plan.writesForm then (Encoder.withContentType Encoder.formType t).headers else t.headers := by
  unfold writesForm
  unfold setBody at hset
  cases hstrategy : plan.strategy with
  | form =>
      rw [hstrategy] at hset
      exact headers_encodeUsual (encode_of_encodeBody hset)
  | body =>
      rw [hstrategy] at hset
      obtain ⟨value, -, hencode⟩ := bind_eq_ok.mp hset
      exact headers_encodeUsual (encode_of_encodeBody hencode)
  | plain =>
      rw [hstrategy] at hset
      obtain rfl := Except.ok.inj hset
      rfl

/-- A form is the whole body, so that nothing is left to be filled in. -/
theorem body_setBody_of_form [Charsets] (hstrategy : plan.strategy = .form)
    (hset : plan.setBody .usual arguments bindings t = .ok w) :
    ∃ text octets, Form.ofValue (plan.formOf bindings) = .ok text ∧
      encodeText t.charset text = .ok octets ∧ w.body = some octets ∧ w.bodyText = none := by
  unfold setBody at hset
  rw [hstrategy] at hset
  have hencode : Encoder.encodeForm (plan.formOf bindings) t = (w, none) :=
    encode_of_encodeBody hset
  unfold Encoder.encodeForm at hencode
  split at hencode
  · simp at hencode
  next text htext =>
    unfold setBodyText at hencode
    split at hencode
    next between hset' =>
      split at hset'
      next octets hoctets =>
        obtain ⟨rfl, -⟩ := Prod.mk.inj hset'
        obtain ⟨rfl, -⟩ := Prod.mk.inj hencode
        refine ⟨text, octets, htext, hoctets, ?_⟩
        unfold Encoder.withContentType
        split
        · exact ⟨rfl, rfl⟩
        · exact ⟨rfl, rfl⟩
      next => simp at hset'
    next => simp at hencode

/-- The header map adds the same to the headers of both calls. -/
theorem headerMap_gapped (hvariable : plan.IsVariable index names) {value : Value} {u u' : Template}
    {table : GappedHeaders} (ht : t.headers = table.plug a) (ht' : t'.headers = table.plug b)
    (hadd : plan.addHeaderMap arguments t = .ok u)
    (hadd' : plan.addHeaderMap (arguments.set index value) t' = .ok u') :
    ∃ all : GappedHeaders, u.headers = all.plug a ∧ u'.headers = all.plug b ∧
      (table.HasGap → all.HasGap) := by
  unfold addHeaderMap at hadd hadd'
  cases hposition : plan.headerMapIndex with
  | none =>
      rw [hposition] at hadd hadd'
      obtain rfl := Except.ok.inj hadd
      obtain rfl := Except.ok.inj hadd'
      exact ⟨table, ht, ht', fun h => h⟩
  | some position =>
      rw [hposition] at hadd hadd'
      have hne : position ≠ index := by
        rintro rfl
        exact hvariable.headerMap hposition
      dsimp only at hadd hadd'
      rw [argument_set_of_ne hne] at hadd'
      obtain ⟨given, hgiven, hadd⟩ := bind_eq_ok.mp hadd
      obtain ⟨given', hgiven', hadd'⟩ := bind_eq_ok.mp hadd'
      obtain rfl := Except.ok.inj (hgiven'.symm.trans hgiven)
      split at hadd
      next hnull =>
        rw [if_pos hnull] at hadd'
        obtain rfl := Except.ok.inj hadd
        obtain rfl := Except.ok.inj hadd'
        exact ⟨table, ht, ht', fun h => h⟩
      next hnull =>
        rw [if_neg hnull] at hadd'
        obtain ⟨entries, hentries, hadd⟩ := bind_eq_ok.mp hadd
        obtain ⟨entries', hentries', hadd'⟩ := bind_eq_ok.mp hadd'
        obtain rfl := Except.ok.inj (hentries'.symm.trans hentries)
        exact addHeaderMap_gapped ht ht' hadd hadd'

end Plan

end Bodies

end HttpBinding
