import HttpBinding.Octets.Charset
import HttpBinding.Proofs.Codec.FormReading
import HttpBinding.Proofs.Plan.Apart
import HttpBinding.Proofs.Plan.ContentType
import HttpBinding.Proofs.Plan.TwoRequests
import HttpBinding.Proofs.Plan.Variables
import HttpBinding.Schema.Adapters

/-!
# The form that a call writes

With the usual encoder the arguments for the variables of a form can be read from the body of
a request. A variable stands there once for its text, or once for each member of a list that
is not null; an argument that is null and a variable that is a placeholder do not stand there
at all.
-/

namespace HttpBinding

namespace Value

/-- The text that a value is. -/
def text? : Value → Option String
  | .text s => some s
  | _ => none

/-- What a variable of a form may be given: null, a text, or a list of texts and nulls. -/
def IsField : Value → Prop
  | .null | .text _ => True
  | .list items => ∀ item ∈ items, item = .null ∨ ∃ s, item = .text s
  | _ => False

/-- The texts of a field without what is null. -/
def fieldTexts : Value → List String
  | .text s => [s]
  | .list items => items.filterMap text?
  | _ => []

/-- What a field binds a variable to, unless it is null. -/
def bound? : Value → Option Value
  | .text s => some (.text s)
  | .list items => some (.list ((items.filterMap text?).map .text))
  | _ => none

theorem filter_of_isField {items : List Value} (hfield : IsField (.list items)) :
    items.filter (!·.isNull) = (items.filterMap text?).map .text := by
  induction items with
  | nil => rfl
  | cons item rest ih =>
      obtain ⟨hitem, hrest⟩ := List.forall_mem_cons.mp hfield
      rcases hitem with rfl | ⟨s, rfl⟩
      · exact ih hrest
      · simpa [isNull, text?] using ih hrest

theorem bound?_eq_none_iff {value : Value} (hfield : value.IsField) :
    value.bound? = none ↔ value.isNull = true := by
  cases value <;> simp_all [IsField, bound?, isNull]

theorem fieldTexts_of_bound?_eq_none {value : Value} (hbound : value.bound? = none) :
    value.fieldTexts = [] := by
  cases value with
  | text s => cases hbound
  | list items => cases hbound
  | _ => rfl

theorem isTextual_of_bound? {value bound : Value} (hbound : value.bound? = some bound) :
    bound.IsTextual := by
  cases value with
  | text s => exact .inl ⟨s, (Option.some.inj hbound).symm⟩
  | list items => exact .inr ⟨_, (Option.some.inj hbound).symm⟩
  | _ => cases hbound

end Value

namespace Form

/-- A variable of the form makes one part for each text of its field. -/
theorem partsOf_bound {name : String} {value bound : Value} (hbound : value.bound? = some bound) :
    partsOf (.text name) bound = value.fieldTexts.map (part name) := by
  cases value with
  | text s =>
      obtain rfl := Option.some.inj hbound
      rfl
  | list items =>
      obtain rfl := Option.some.inj hbound
      simp [partsOf, itemsOf, Value.fieldTexts, part, encodeItem, Value.plainText]
  | _ => cases hbound

end Form

namespace Plan

variable {plan : Plan} {queryMapEncoder : QueryMapEncoder} {arguments : List Value}
  {parameters : List ParameterDecl} {bindings : Bindings} {t : Template}

/-- Every expander of a plan makes of a value its plain text. -/
def WritesTexts (plan : Plan) : Prop :=
  ∀ index expander, plan.expanders.lookup index = some expander →
    ∀ value, expander.expand value = .ok (.text value.plainText)

/-- Each argument for a parameter with variables is a field. -/
def AreFields (parameters : List ParameterDecl) (arguments : List Value) : Prop :=
  List.Forall₂ (fun p value => p.variables ≠ [] → value.IsField) parameters arguments

/-- What a field binds variables to. -/
def fieldEntries (names : List String) (value : Value) : Bindings :=
  value.bound?.toList.flatMap fun bound => names.map fun name => (name, bound)

/-- What arguments bind the variables of parameters to. -/
def fieldBindings (parameters : List ParameterDecl) (arguments : List Value) : Bindings :=
  (parameters.zip arguments).flatMap fun entry => fieldEntries entry.1.variables entry.2

/-- The form of arguments: each variable that is no placeholder with each text of its field. -/
def formPairs (t : Template) (parameters : List ParameterDecl) (arguments : List Value) :
    List (String × String) :=
  (parameters.zip arguments).flatMap fun entry =>
    (entry.1.variables.filter (!t.hasVariable ·)).flatMap fun name =>
      entry.2.fieldTexts.map fun text => (name, text)

/-! ## Bindings -/

theorem expand_field (hwrites : plan.WritesTexts) (index : Nat) {value bound : Value}
    (hfield : value.IsField) (hbound : value.bound? = some bound) :
    plan.expand index value = .ok bound := by
  have hone : ∀ value, expandOne (plan.expanders.lookup index) value = .ok (.text value.plainText) := by
    intro value
    cases hlookup : plan.expanders.lookup index with
    | none => rfl
    | some expander => exact hwrites index expander hlookup value
  cases value with
  | text s =>
      obtain rfl := Option.some.inj hbound
      exact hone (.text s)
  | list items =>
      obtain rfl := Option.some.inj hbound
      have hall : ∀ texts : List String,
          (texts.map Value.text).mapM (expandOne (plan.expanders.lookup index)) =
            .ok (texts.map Value.text) := by
        intro texts
        refine mapM_eq_ok.mpr (List.forall₂_same.mpr fun value hvalue => ?_)
        obtain ⟨s, -, rfl⟩ := List.mem_map.mp hvalue
        exact hone (.text s)
      have hmembers : (Value.list items).members? = some items := rfl
      simp only [expand, hmembers, Value.filter_of_isField hfield, hall]
      rfl
  | _ => cases hbound

theorem keys_fieldEntries_sublist (names : List String) (value : Value) :
    (fieldEntries names value).keys.Sublist names := by
  cases hbound : value.bound? with
  | none => simp [fieldEntries, hbound, Entries.keys]
  | some bound => simp [fieldEntries, hbound, Entries.keys, Function.comp_def]

/-- A field is bound to its variables unless it is null. -/
theorem bindFrom_field (hwrites : plan.WritesTexts) {position : Nat} {names : List String}
    {value : Value} {done : Bindings} (hargument : argument arguments position = .ok value)
    (hfield : value.IsField) (hnodup : (done.keys ++ names).Nodup)
    (table : Entries Nat (List String)) :
    plan.bindFrom arguments done ((position, names) :: table) =
      plan.bindFrom arguments (done ++ fieldEntries names value) table := by
  rw [bindFrom, hargument]
  change (if value.isNull then _ else _) = _
  cases hbound : value.bound? with
  | none =>
      have hnull := (Value.bound?_eq_none_iff hfield).mp hbound
      simp [hnull, fieldEntries, hbound]
  | some bound =>
      have hvalue : ¬ value.isNull = true := by
        rw [← Value.bound?_eq_none_iff hfield, hbound]
        exact Option.some_ne_none bound
      have hkeys : (done.keys ++ Entries.keys (names.map fun name => (name, bound))).Nodup := by
        simpa [Entries.keys, Function.comp_def] using hnodup
      have hadded : names.foldl (fun done name => done.put name bound) done =
          done ++ names.map fun name => (name, bound) := by
        rw [← Entries.foldl_put_of_nodup hkeys, List.foldl_map]
      rw [if_neg hvalue, expand_field hwrites position hfield hbound]
      change plan.bindFrom arguments (names.foldl _ done) table = _
      simp only [hadded, fieldEntries, hbound, Option.toList_some, List.flatMap_singleton]

/-- Fields are bound one after another, as no two of them have a variable in common. -/
theorem bindFrom_variableTable (hwrites : plan.WritesTexts) (hfields : AreFields parameters arguments)
    (before : List Value) (done : Bindings)
    (hnodup : (done.keys ++ parameters.flatMap ParameterDecl.variables).Nodup) :
    plan.bindFrom (before ++ arguments) done (variableTable before.length parameters) =
      .ok (done ++ fieldBindings parameters arguments) := by
  induction hfields generalizing before done with
  | nil => simp [variableTable, bindFrom, fieldBindings]
  | @cons p value rest values hfield _ ih =>
      have hsplit : fieldBindings (p :: rest) (value :: values) =
          fieldEntries p.variables value ++ fieldBindings rest values := rfl
      have hlater := ih (before ++ [value]) (done ++ fieldEntries p.variables value) (by
        rw [List.flatMap_cons] at hnodup
        rw [Entries.keys_append, List.append_assoc]
        exact hnodup.sublist ((List.Sublist.refl _).append
          ((keys_fieldEntries_sublist _ _).append (List.Sublist.refl _))))
      rw [List.append_assoc, List.singleton_append, List.length_append, List.length_singleton] at hlater
      rw [hsplit, ← List.append_assoc, ← hlater]
      by_cases hnone : p.variables = []
      · have hnothing : fieldEntries p.variables value = [] := by
          simp [fieldEntries, hnone]
        rw [hnothing, List.append_nil]
        simp [variableTable, hnone]
      · have hargument : argument (before ++ value :: values) before.length = .ok value := by
          simp [argument]
        have hnames : (done.keys ++ p.variables).Nodup := by
          rw [List.flatMap_cons, ← List.append_assoc] at hnodup
          exact hnodup.sublist (List.sublist_append_left _ _)
        rw [← bindFrom_field hwrites hargument (hfield hnone) hnames]
        simp [variableTable, hnone]

theorem areTextual_fieldBindings (parameters : List ParameterDecl) (arguments : List Value) :
    (fieldBindings parameters arguments).AreTextual := by
  intro name value hlookup
  obtain ⟨entry, -, hentry⟩ := List.mem_flatMap.mp (Entries.mem_of_lookup hlookup)
  obtain ⟨bound, hbound, hname⟩ := List.mem_flatMap.mp hentry
  obtain ⟨_, -, heq⟩ := List.mem_map.mp hname
  rw [← (Prod.mk.inj heq).2]
  exact Value.isTextual_of_bound? (Option.mem_toList.mp hbound)

/-! ## Forms -/

theorem formParts_fieldEntries {names : List String} (value : Value)
    (hforms : ∀ name ∈ names, plan.isFormName name = !t.hasVariable name) :
    (fieldEntries names value).flatMap (formParts plan.isFormName) =
      (names.filter (!t.hasVariable ·)).flatMap fun name => value.fieldTexts.map (Form.part name) := by
  cases hbound : value.bound? with
  | none => simp [fieldEntries, hbound, Value.fieldTexts_of_bound?_eq_none hbound]
  | some bound =>
      simp only [fieldEntries, hbound, Option.toList_some, List.flatMap_singleton]
      induction names with
      | nil => rfl
      | cons name rest ih =>
          obtain ⟨hfirst, hrest⟩ := List.forall_mem_cons.mp hforms
          rw [List.map_cons, List.flatMap_cons, ih hrest, formParts, hfirst, Form.partsOf_bound hbound]
          cases hvariable : t.hasVariable name <;> simp [hvariable]

/-- The parts of the form are those of the texts of the fields. -/
theorem formParts_fieldBindings (hfields : AreFields parameters arguments)
    (hforms : ∀ p ∈ parameters, ∀ name ∈ p.variables, plan.isFormName name = !t.hasVariable name) :
    (fieldBindings parameters arguments).flatMap (formParts plan.isFormName) =
      (formPairs t parameters arguments).map fun pair => Form.part pair.1 pair.2 := by
  induction hfields with
  | nil => rfl
  | @cons p value rest values hfield _ ih =>
      obtain ⟨hfirst, hrest⟩ := List.forall_mem_cons.mp hforms
      change (fieldEntries p.variables value ++ fieldBindings rest values).flatMap _ =
        (_ ++ formPairs t rest values).map _
      rw [List.flatMap_append, List.map_append, ih hrest, formParts_fieldEntries value hfirst,
        List.map_flatMap]
      simp only [List.map_map, Function.comp_def]

/-! ## Steps -/

/-- The usual encoder can write every form. -/
theorem setBody_of_form [Charsets] (hform : plan.strategy = .form) (hcharset : t.charset = "utf-8")
    (arguments : List Value) (bindings : Bindings) :
    ∃ written, plan.setBody .usual arguments bindings t = .ok written := by
  have hencode : Encoder.usual.encode (plan.formOf bindings) .form t =
      Encoder.encodeForm (plan.formOf bindings) t := rfl
  simp only [setBody, hform, encodeBody, hencode, Encoder.encodeForm, ofValue_formOf,
    Template.setBodyText, hcharset, encodeText_utf8]
  exact ⟨_, rfl⟩

/-- What a query map says does not depend on the template that it is added to. -/
theorem addQueryMap_isOk (t t' : Template)
    (hadd : ∃ u, plan.addQueryMap queryMapEncoder arguments t = .ok u) :
    ∃ u, plan.addQueryMap queryMapEncoder arguments t' = .ok u := by
  obtain ⟨u, hadd⟩ := hadd
  simp only [addQueryMap] at hadd ⊢
  split at hadd
  · exact ⟨t', rfl⟩
  · obtain ⟨value, hvalue, hadd⟩ := bind_eq_ok.mp hadd
    obtain ⟨entries, hentries, -⟩ := bind_eq_ok.mp hadd
    refine ⟨t'.addQueryMap plan.queryMapEncoded entries, ?_⟩
    exact bind_eq_ok.mpr ⟨value, hvalue, bind_eq_ok.mpr ⟨entries, hentries, rfl⟩⟩

theorem addHeaderEntry_isOk (t t' : Template) {key value : Value}
    (hadd : ∃ u, t.addHeaderEntry key value = .ok u) : ∃ u, t'.addHeaderEntry key value = .ok u := by
  simp only [Template.addHeaderEntry] at hadd ⊢
  split at hadd
  · exact ⟨_, rfl⟩
  · exact ⟨_, rfl⟩
  · obtain ⟨u, hadd⟩ := hadd
    cases hadd

/-- Nor does what a header map says. -/
theorem addHeaderMap_isOk (t t' : Template) (hadd : ∃ u, plan.addHeaderMap arguments t = .ok u) :
    ∃ u, plan.addHeaderMap arguments t' = .ok u := by
  have hentries : ∀ (entries : ValueEntries) (t t' : Template),
      (∃ u, t.addHeaderMap entries = .ok u) → ∃ u, t'.addHeaderMap entries = .ok u := by
    intro entries
    induction entries with
    | nil => exact fun _ t' _ => ⟨t', rfl⟩
    | cons entry rest ih =>
        rintro t t' ⟨u, hadd⟩
        obtain ⟨between, hfirst, hrest⟩ := bind_eq_ok.mp hadd
        obtain ⟨between', hfirst'⟩ := addHeaderEntry_isOk t t' ⟨between, hfirst⟩
        obtain ⟨u', hrest'⟩ := ih between between' ⟨u, hrest⟩
        exact ⟨u', bind_eq_ok.mpr ⟨between', hfirst', hrest'⟩⟩
  obtain ⟨u, hadd⟩ := hadd
  simp only [addHeaderMap] at hadd ⊢
  split at hadd
  · exact ⟨t', rfl⟩
  · obtain ⟨value, hvalue, hadd⟩ := bind_eq_ok.mp hadd
    rw [hvalue]
    change ∃ u, (if value.isNull then _ else _) = Except.ok u
    split at hadd
    next hnull =>
      rw [if_pos hnull]
      exact ⟨t', rfl⟩
    next hsome =>
      rw [if_neg hsome]
      obtain ⟨entries, hmapping, hadd⟩ := bind_eq_ok.mp hadd
      rw [hmapping]
      exact hentries entries t t' ⟨u, hadd⟩

/-- A form that is written stays the body to the end of a call. -/
theorem body_of_fill [Charsets] (hform : plan.strategy = .form)
    (hbindings : plan.bindings arguments = .ok bindings)
    (hfill : plan.fill .usual queryMapEncoder arguments = .ok t) :
    ∃ octets, encodeText plan.template.charset
        ("&".intercalate (bindings.flatMap (formParts plan.isFormName))) = .ok octets ∧
      t.body = some octets := by
  unfold fill at hfill
  obtain ⟨addressed, haddressed, hfill⟩ := bind_eq_ok.mp hfill
  obtain ⟨_, hbound, hfill⟩ := bind_eq_ok.mp hfill
  obtain rfl := Except.ok.inj (hbound.symm.trans hbindings)
  obtain ⟨written, hwritten, hfill⟩ := bind_eq_ok.mp hfill
  obtain ⟨resolved, hresolved, hfill⟩ := bind_eq_ok.mp hfill
  obtain ⟨mapped, hmapped, hfill⟩ := bind_eq_ok.mp hfill
  obtain ⟨text, octets, htext, hoctets, hbody, hnone⟩ := body_setBody_of_form hform hwritten
  rw [ofValue_formOf] at htext
  obtain rfl := Except.ok.inj htext
  refine ⟨octets, ?_, ?_⟩
  · rwa [setAddress_kept haddressed] at hoctets
  · have hkept : resolved.body = written.body := by
      obtain ⟨-, -, -, -, -, -, ⟨-, rfl⟩ | ⟨_, -, -, hsome, -⟩⟩ :=
        Template.resolve_eq (resolve_of_resolveWith hresolved)
      · rfl
      · rw [hnone] at hsome
        cases hsome
    rw [addHeaderMap_eq hfill, addQueryMap_eq hmapped, hkept, hbody]

/-- With fields for all variables nothing but the address and the maps can stop a call. -/
theorem fill_isOk_iff [Charsets] (hform : plan.strategy = .form)
    (hcharset : plan.template.charset = "utf-8")
    (hbindings : plan.bindings arguments = .ok bindings) (htextual : bindings.AreTextual) :
    (∃ t, plan.fill .usual queryMapEncoder arguments = .ok t) ↔
      (∃ t, plan.setAddress arguments plan.template = .ok t) ∧
      (∃ t, plan.addQueryMap queryMapEncoder arguments plan.template = .ok t) ∧
      ∃ t, plan.addHeaderMap arguments plan.template = .ok t := by
  constructor
  · rintro ⟨t, hfill⟩
    unfold fill at hfill
    obtain ⟨addressed, haddressed, hfill⟩ := bind_eq_ok.mp hfill
    obtain ⟨_, -, hfill⟩ := bind_eq_ok.mp hfill
    obtain ⟨_, -, hfill⟩ := bind_eq_ok.mp hfill
    obtain ⟨resolved, -, hfill⟩ := bind_eq_ok.mp hfill
    obtain ⟨mapped, hmapped, hfill⟩ := bind_eq_ok.mp hfill
    exact ⟨⟨addressed, haddressed⟩, addQueryMap_isOk resolved _ ⟨mapped, hmapped⟩,
      addHeaderMap_isOk mapped _ ⟨t, hfill⟩⟩
  · rintro ⟨⟨addressed, haddressed⟩, hquery, hheader⟩
    have hsame : addressed.charset = "utf-8" := by
      rw [setAddress_kept haddressed]
      exact hcharset
    obtain ⟨written, hwritten⟩ := setBody_of_form hform hsame arguments bindings
    obtain ⟨-, -, -, -, -, hnone⟩ := body_setBody_of_form hform hwritten
    obtain ⟨resolved, hresolved⟩ := Template.resolve_isResolved htextual hnone
    obtain ⟨mapped, hmapped⟩ := addQueryMap_isOk plan.template resolved hquery
    obtain ⟨t, ht⟩ := addHeaderMap_isOk plan.template mapped hheader
    have hfilled : resolveWith bindings written = .ok resolved := by
      rw [resolveWith, hresolved]
    refine ⟨t, bind_eq_ok.mpr ⟨addressed, haddressed, bind_eq_ok.mpr ⟨bindings, hbindings, ?_⟩⟩⟩
    refine bind_eq_ok.mpr ⟨written, hwritten, bind_eq_ok.mpr ⟨resolved, hfilled, ?_⟩⟩
    exact bind_eq_ok.mpr ⟨mapped, hmapped, ht⟩

/-! ## Calls -/

variable {ds : Declarations} {interfaces : Interfaces} {api : InterfaceDecl} {plans : List Plan}

/--
The body of a call that writes a form is read as the arguments for its variables, in the order of
the parameters: each variable that is no placeholder with each of its texts. Such a call goes
through unless its address, its query map or its header map cannot be used.
-/
theorem fill_form_reads_back [Charsets] (queryMapEncoder : QueryMapEncoder)
    (hread : Contract.usual.read ds interfaces api = .ok plans)
    (hplan : plan ∈ plans) (hhandled : plan.ignored = false) (hform : plan.strategy = .form)
    (hwrites : plan.WritesTexts)
    (hnodup : (plan.method.parameters.flatMap ParameterDecl.variables).Nodup)
    (hfields : AreFields plan.method.parameters arguments) :
    ((∃ t, plan.fill .usual queryMapEncoder arguments = .ok t) ↔
      (∃ t, plan.setAddress arguments plan.template = .ok t) ∧
      (∃ t, plan.addQueryMap queryMapEncoder arguments plan.template = .ok t) ∧
      ∃ t, plan.addHeaderMap arguments plan.template = .ok t) ∧
    ∀ t, plan.fill .usual queryMapEncoder arguments = .ok t →
      ∃ octets, t.body = some octets ∧
        Form.read octets = formPairs plan.template plan.method.parameters arguments := by
  have hready := Contract.isReady_of_mem_read hread hplan hhandled
  have hvariables := Contract.holdsVariables_of_mem_read hread hplan hhandled
  have hbindings : plan.bindings arguments = .ok (fieldBindings plan.method.parameters arguments) := by
    rw [bindings, hvariables.names]
    exact bindFrom_variableTable hwrites hfields [] [] hnodup
  refine ⟨fill_isOk_iff hform hready.template.charset hbindings (areTextual_fieldBindings _ _), ?_⟩
  intro t hfill
  obtain ⟨octets, hoctets, hbody⟩ := body_of_fill hform hbindings hfill
  refine ⟨octets, hbody, ?_⟩
  have hplaces : ∀ p ∈ plan.method.parameters, ∀ name ∈ p.variables,
      plan.isFormName name = !plan.template.hasVariable name :=
    fun p hp name hname => hvariables.isFormName_eq hready hp hname
  rw [hready.template.charset, encodeText_utf8, formParts_fieldBindings hfields hplaces] at hoctets
  rw [← Except.ok.inj hoctets]
  exact Form.read_ofParts _

/-- A method with a placeholder and three variables of the form. -/
def sendingForm : InterfaceDecl :=
  sending [.requestLine "POST /x/\x7bid\x7d" true .exploded]
    [variableOf "id" .text, variableOf "v" .text, variableOf "tags" .any, variableOf "w" .text]

open scoped CommonCharsets

theorem fill_form_reads_back_ofTags : ∃ plan t octets,
    Contract.usual.read [] [sendingForm] sendingForm = .ok [plan] ∧
      plan.fill .usual (.usual (Schema.adapters []))
        [.text "7", .text "a b&c=d+e", .list [.text "ü", .null, .text ""], .null] = .ok t ∧
      t.body = some octets ∧
      Form.read octets = [("v", "a b&c=d+e"), ("tags", "ü"), ("tags", "")] := by
  have hcomputed : ∃ plan, Contract.usual.read [] [sendingForm] sendingForm = .ok [plan] ∧
      (plan.ignored = false ∧ plan.strategy = .form ∧ plan.expanders.keys = [] ∧
        plan.urlIndex = none ∧ plan.queryMapIndex = none ∧ plan.headerMapIndex = none ∧
        plan.method.parameters.length = 4 ∧
        (plan.method.parameters.flatMap ParameterDecl.variables).Nodup ∧
        formPairs plan.template plan.method.parameters
          [.text "7", .text "a b&c=d+e", .list [.text "ü", .null, .text ""], .null] =
            [("v", "a b&c=d+e"), ("tags", "ü"), ("tags", "")]) :=
    Contract.exists_plan_of_read (by decide +kernel)
  obtain ⟨plan, hread, hhandled, hform, hexpanders, haddress, hqueryMap, hheaderMap, hlength, hnodup,
    hpairs⟩ := hcomputed
  have hwrites : plan.WritesTexts := by
    intro index expander hlookup
    rw [List.map_eq_nil_iff.mp hexpanders] at hlookup
    cases hlookup
  have hfields : AreFields plan.method.parameters
      [.text "7", .text "a b&c=d+e", .list [.text "ü", .null, .text ""], .null] := by
    refine List.forall₂_iff_zip.mpr ⟨hlength, fun {p value} hmem _ => ?_⟩
    have hvalue := (List.of_mem_zip hmem).2
    simp only [List.mem_cons, List.not_mem_nil, or_false] at hvalue
    rcases hvalue with rfl | rfl | rfl | rfl <;> simp [Value.IsField]
  obtain ⟨hiff, hbody⟩ := fill_form_reads_back (.usual (Schema.adapters [])) hread
    List.mem_cons_self hhandled hform hwrites hnodup hfields
  obtain ⟨t, hfill⟩ := hiff.mpr ⟨⟨plan.template, by simp [setAddress, haddress]⟩,
    ⟨plan.template, by simp [addQueryMap, hqueryMap]⟩,
    ⟨plan.template, by simp [addHeaderMap, hheaderMap]⟩⟩
  obtain ⟨octets, hoctets, hpairs'⟩ := hbody t hfill
  exact ⟨plan, t, octets, hread, hfill, hoctets, hpairs'.trans hpairs⟩

end Plan

end HttpBinding
