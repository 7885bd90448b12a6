import HttpBinding.Octets.Charset
import HttpBinding.Proofs.Plan.Skeleton
import HttpBinding.Proofs.Plan.TwoCalls
import HttpBinding.Proofs.Template.HeaderValues
import HttpBinding.Proofs.Template.QueryMap
import HttpBinding.Schema.Adapters

/-!
# The content type of an encoded body

An encoder that writes a body sets its content type unless the method declares one, and it
looks at what is declared before the placeholders are filled. A declared content type whose
variable has no text goes away afterwards, and then there is none, unless a second value
stays or the header map of the call has one. A content type without placeholders stays.
-/

namespace HttpBinding

namespace Template

variable {t : Template} {bindings : Bindings} {value : String} {values filled : List String}

/--
A header value is still there once it is resolved: there is a text for the placeholder that it
is, or else it has no placeholders or a bound one.
-/
def Stays (bindings : Bindings) (value : String) : Prop :=
  match solePlaceholder? value with
  | some name => bindings.textsOf name ≠ []
  | none => placeholders value = [] ∨ ∃ name ∈ placeholders value, bindings.binds name = true

theorem stays_of_no_placeholders (hnone : placeholders value = []) : Stays bindings value := by
  unfold Stays
  rw [solePlaceholder?_of_no_placeholders hnone]
  exact Or.inl hnone

theorem resolveHeaderValue_ne_nil_iff (hfilled : resolveHeaderValue bindings value = .ok filled) :
    filled ≠ [] ↔ Stays bindings value := by
  unfold resolveHeaderValue at hfilled
  unfold Stays
  cases hsole : solePlaceholder? value with
  | some name =>
      rw [hsole] at hfilled
      cases hlookup : bindings.lookup name with
      | some bound =>
          simp only [hlookup] at hfilled
          obtain ⟨filling, hfilling, hfilled⟩ := bind_eq_ok.mp hfilled
          obtain rfl := Except.ok.inj hfilled
          simp [Bindings.textsOf_of_bound hlookup hfilling]
      | none =>
          simp only [hlookup] at hfilled
          obtain rfl := Except.ok.inj hfilled
          simp [Bindings.textsOf_of_unbound hlookup]
  | none =>
      rw [hsole] at hfilled
      obtain ⟨text?, htext, hfilled⟩ := bind_eq_ok.mp hfilled
      obtain rfl := Except.ok.inj hfilled
      unfold fillIfBound at htext
      dsimp only at htext
      split at htext
      next hunbound =>
        obtain rfl := Except.ok.inj htext
        simpa using hunbound
      next hbound =>
        -- A text without placeholders is filled, too.
        obtain ⟨text, -, rfl⟩ := map_eq_ok.mp htext
        have hstays : placeholders value = [] ∨
            ∃ name ∈ placeholders value, bindings.binds name = true := by
          by_cases hnone : placeholders value = []
          · exact Or.inl hnone
          · right
            simpa [hnone] using hbound
        simp [hstays]

theorem resolveHeaderValues_ne_nil_iff (hfilled : resolveHeaderValues bindings values = .ok filled) :
    filled ≠ [] ↔ ∃ value ∈ values, Stays bindings value := by
  induction values generalizing filled with
  | nil =>
      obtain rfl := Except.ok.inj hfilled
      simp
  | cons value rest ih =>
      rw [resolveHeaderValues] at hfilled
      obtain ⟨first, hfirst, hfilled⟩ := bind_eq_ok.mp hfilled
      obtain ⟨others, hothers, hfilled⟩ := bind_eq_ok.mp hfilled
      obtain rfl := Except.ok.inj hfilled
      rw [List.exists_mem_cons_iff, ← resolveHeaderValue_ne_nil_iff hfirst, ← ih hothers]
      simp only [ne_eq, List.append_eq_nil_iff, not_and_or]

end Template

namespace Encoder

theorem headerValues_withContentType {t : Template}
    (hnames : (t.headers.map fun entry => Template.foldedName entry.1).Nodup) (contentType : String) :
    (withContentType contentType t).headerValues "Content-Type" =
      if t.headerValues "Content-Type" = [] then [contentType]
      else t.headerValues "Content-Type" := by
  unfold withContentType
  by_cases hnone : t.headerValues "Content-Type" = []
  · rw [if_pos hnone, if_pos (by simpa using hnone), Template.headerValues_of_header hnames, if_pos rfl]
  · rw [if_neg hnone, if_neg (by simpa using hnone)]

theorem headerNames_withContentType {t : Template}
    (hnames : (t.headers.map fun entry => Template.foldedName entry.1).Nodup) (contentType : String) :
    ((withContentType contentType t).headers.map fun entry => Template.foldedName entry.1).Nodup := by
  unfold withContentType
  split
  · exact Template.headerNames_header hnames
  · exact hnames

end Encoder

namespace Plan

variable {plan : Plan} {encoder : Encoder} {queryMapEncoder : QueryMapEncoder} {contentType : String}
  {arguments : List Value} {bindings : Bindings} {t t' : Template}

/-- The body of a call is written by an encoder that has a content type for it. -/
inductive WritesTyped [Charsets] (plan : Plan) : Encoder → String → Prop where
  | form (hform : plan.strategy = .form) : WritesTyped plan .usual Encoder.formType
  | json {adapters : Adapters} {contentType : String} (hbody : plan.strategy ≠ .plain) :
      WritesTyped plan (.json adapters contentType) contentType

/-- The content types before the placeholders are filled: those declared, or that of the encoder. -/
def contentTypes (plan : Plan) (contentType : String) : List String :=
  if plan.template.headerValues "Content-Type" = [] then [contentType]
  else plan.template.headerValues "Content-Type"

/-- The texts that the header map of a call has for a name. -/
def mappedTexts (plan : Plan) (arguments : List Value) (name : String) : List String :=
  match plan.headerMapIndex.bind (arguments[·]?) with
  | some value => (value.entries?.getD []).flatMap (Template.textsUnder name)
  | none => []

theorem WritesTyped.headers [Charsets] (hwrites : plan.WritesTyped encoder contentType)
    (hset : plan.setBody encoder arguments bindings t = .ok t') :
    t'.headers = (Encoder.withContentType contentType t).headers := by
  cases hwrites with
  | form hform =>
      rw [headers_setBody hset]
      unfold writesForm
      rw [hform]
      rfl
  | @json adapters _ hbody =>
      have hencode : ∀ {what : String} {value : Value} {ty : Ty},
          encodeBody (.json adapters contentType) what value ty t = .ok t' →
          t'.headers = (Encoder.withContentType contentType t).headers := by
        intro what value ty hencode
        unfold encodeBody Encoder.json at hencode
        dsimp only at hencode
        split at hencode
        next written hwritten =>
          obtain rfl := Except.ok.inj hencode
          split at hwritten
          next octets _ =>
            obtain ⟨rfl, -⟩ := Prod.mk.inj hwritten
            exact headers_withContentType contentType rfl
          next => simp at hwritten
        next => cases hencode
      unfold setBody at hset
      cases hstrategy : plan.strategy with
      | form =>
          rw [hstrategy] at hset
          exact hencode hset
      | body =>
          rw [hstrategy] at hset
          obtain ⟨value, -, hset⟩ := bind_eq_ok.mp hset
          exact hencode hset
      | plain => exact absurd hstrategy hbody

/-- The header map of a call adds its texts to the values of a header. -/
theorem headerValues_addHeaderMap (hnames : (t.headers.map fun entry =>
      Template.foldedName entry.1).Nodup) (hadd : plan.addHeaderMap arguments t = .ok t')
    (name : String) : t'.headerValues name = t.headerValues name ++ plan.mappedTexts arguments name := by
  unfold addHeaderMap at hadd
  unfold mappedTexts
  cases hindex : plan.headerMapIndex with
  | none =>
      rw [hindex] at hadd
      obtain rfl := Except.ok.inj hadd
      simp
  | some index =>
      rw [hindex] at hadd
      obtain ⟨value, hvalue, hadd⟩ := bind_eq_ok.mp hadd
      have hargument : arguments[index]? = some value := by
        unfold argument at hvalue
        split at hvalue
        next found hfound => rw [hfound, Except.ok.inj hvalue]
        next => cases hvalue
      rw [Option.bind_some, hargument]
      dsimp only
      split at hadd
      next hnull =>
        obtain rfl := Except.ok.inj hadd
        cases value with
        | null => simp [Value.entries?]
        | _ => cases hnull
      next =>
        obtain ⟨entries, hentries, hadd⟩ := bind_eq_ok.mp hadd
        have hvalue : value.entries? = some entries := by
          unfold entriesOf at hentries
          split at hentries
          next found hfound => rw [hfound, Except.ok.inj hentries]
          next => cases hentries
        rw [hvalue]
        exact Template.headerValues_of_addHeaderMap hnames hadd name

/-- What the encoder leaves as content types: those declared, or its own. -/
theorem WritesTyped.headerValues [Charsets] (hwrites : plan.WritesTyped encoder contentType)
    (hnames : (plan.template.headers.map fun entry => Template.foldedName entry.1).Nodup)
    (haddress : t.headers = plan.template.headers)
    (hset : plan.setBody encoder arguments bindings t = .ok t') :
    (t'.headers.map fun entry => Template.foldedName entry.1).Nodup ∧
      t'.headerValues "Content-Type" = plan.contentTypes contentType := by
  have hheaders := hwrites.headers hset
  rw [← haddress] at hnames
  refine ⟨?_, ?_⟩
  · rw [hheaders]
    exact Encoder.headerNames_withContentType hnames contentType
  · unfold contentTypes
    rw [Template.headerValues_congr hheaders, Encoder.headerValues_withContentType hnames,
      Template.headerValues_congr haddress]

/-- The query map changes query parameters only. -/
theorem addQueryMap_eq (hadd : plan.addQueryMap queryMapEncoder arguments t = .ok t') :
    t' = { t with queries := t'.queries } := by
  unfold addQueryMap at hadd
  split at hadd
  · obtain rfl := Except.ok.inj hadd
    rfl
  · obtain ⟨value, -, hadd⟩ := bind_eq_ok.mp hadd
    obtain ⟨entries, -, hadd⟩ := bind_eq_ok.mp hadd
    obtain rfl := Except.ok.inj hadd
    exact Template.addQueryMap_frame t _ _

theorem headers_addQueryMap (hadd : plan.addQueryMap queryMapEncoder arguments t = .ok t') :
    t'.headers = t.headers := by
  rw [addQueryMap_eq hadd]

variable {ds : Declarations} {interfaces : Interfaces} {api : InterfaceDecl} {plans : List Plan}

/--
A call whose encoder has a content type for the body ends with a content type exactly if one of
those from before the placeholders are filled stays, or if its header map has one. One
without placeholders stays.
-/
theorem fill_hasContentType_iff [Charsets]
    (hread : Contract.usual.read ds interfaces api = .ok plans)
    (hplan : plan ∈ plans) (hhandled : plan.ignored = false)
    (hwrites : plan.WritesTyped encoder contentType)
    (hfill : plan.fill encoder queryMapEncoder arguments = .ok t) :
    ∃ bindings, plan.bindings arguments = .ok bindings ∧
      (t.headerValues "Content-Type" ≠ [] ↔
        (∃ value ∈ plan.contentTypes contentType, Template.Stays bindings value) ∨
          plan.mappedTexts arguments "Content-Type" ≠ []) ∧
      ((∃ value ∈ plan.contentTypes contentType, placeholders value = []) →
        t.headerValues "Content-Type" ≠ []) := by
  have hready := Contract.isReady_of_mem_read hread hplan hhandled
  unfold fill at hfill
  obtain ⟨addressed, haddressed, hfill⟩ := bind_eq_ok.mp hfill
  obtain ⟨bindings, hbindings, hfill⟩ := bind_eq_ok.mp hfill
  obtain ⟨written, hwritten, hfill⟩ := bind_eq_ok.mp hfill
  obtain ⟨resolved, hresolved, hfill⟩ := bind_eq_ok.mp hfill
  obtain ⟨mapped, hmapped, hfill⟩ := bind_eq_ok.mp hfill
  have haddress : addressed.headers = plan.template.headers := by
    rw [setAddress_kept haddressed]
  -- The encoder comes before the placeholders are filled, and both maps come after.
  obtain ⟨hnames, htypes⟩ :=
    hwrites.headerValues hready.template.wellFormed.headerNames haddress hwritten
  obtain ⟨hnames', hfilled⟩ :=
    Template.headerValues_of_resolve hnames (resolve_of_resolveWith hresolved)
  have hkept : mapped.headers = resolved.headers := headers_addQueryMap hmapped
  rw [← hkept] at hnames'
  have hstays := Template.resolveHeaderValues_ne_nil_iff (hfilled "Content-Type")
  rw [htypes, ← Template.headerValues_congr hkept] at hstays
  have hall : t.headerValues "Content-Type" ≠ [] ↔
      (∃ value ∈ plan.contentTypes contentType, Template.Stays bindings value) ∨
        plan.mappedTexts arguments "Content-Type" ≠ [] := by
    rw [headerValues_addHeaderMap hnames' hfill, ← hstays]
    simp only [ne_eq, List.append_eq_nil_iff, not_and_or]
  refine ⟨bindings, hbindings, hall, ?_⟩
  rintro ⟨value, hvalue, hnone⟩
  exact hall.mpr (Or.inl ⟨value, hvalue, Template.stays_of_no_placeholders hnone⟩)

/-! ## A form with a content type of its own -/

/-- A parameter that is a variable by its own name. -/
def variableNamed (name : String) : ParameterDecl :=
  { name := name, ty := some .text, markers := [.param "" none] }

/-- An interface with a method that declares the content type of its form by a variable. -/
def sendingTyped : InterfaceDecl where
  name := "Api"
  members := [("send", .method {
    name := "send"
    directives := [.requestLine "POST /x" true .exploded, .headers ["Content-Type: \x7bct\x7d"]]
    parameters := [variableNamed "ct", variableNamed "v"] })]

open scoped CommonCharsets

theorem fill_hasContentType_iff_ofTyped : ∃ plan t,
    Contract.usual.read [] [sendingTyped] sendingTyped = .ok [plan] ∧
      plan.fill .usual (.usual (Schema.adapters [])) [.text "text/plain", .text "1"] = .ok t ∧
      t.headerValues "Content-Type" ≠ [] := by
  have hcomputed : ∃ plan, Contract.usual.read [] [sendingTyped] sendingTyped = .ok [plan] ∧
      (plan.ignored = false ∧ plan.strategy = .form ∧
        plan.contentTypes Encoder.formType = ["\x7bct\x7d"] ∧
        (plan.bindings [.text "text/plain", .text "1"]).toOption.map (·.textsOf "ct") =
          some ["text/plain"] ∧
        (plan.fill .usual (.usual (Schema.adapters []))
          [.text "text/plain", .text "1"]).toOption.isSome = true) :=
    Contract.exists_plan_of_read (by decide +kernel)
  obtain ⟨plan, hread, hhandled, hform, htypes, htexts, hsome⟩ := hcomputed
  obtain ⟨t, hfill⟩ := Option.isSome_iff_exists.mp hsome
  have hfill := toOption_eq_some.mp hfill
  obtain ⟨bindings, hbindings, hiff, -⟩ :=
    fill_hasContentType_iff hread List.mem_cons_self hhandled (.form hform) hfill
  rw [hbindings] at htexts
  have hct : bindings.textsOf "ct" = ["text/plain"] := Option.some.inj htexts
  have hsole : solePlaceholder? "\x7bct\x7d" = some "ct" := by decide +kernel
  have hstays : Template.Stays bindings "\x7bct\x7d" := by
    unfold Template.Stays
    rw [hsole]
    simp [hct]
  exact ⟨plan, t, hread, hfill, hiff.mpr (Or.inl ⟨"\x7bct\x7d", by simp [htypes], hstays⟩)⟩

/-- Without an argument for its variable the content type is gone, though there is a body. -/
theorem fill_drops_contentType : ∃ plan t,
    Contract.usual.read [] [sendingTyped] sendingTyped = .ok [plan] ∧
      plan.ignored = false ∧ plan.strategy = .form ∧
      plan.fill .usual (.usual (Schema.adapters [])) [.null, .text "1"] = .ok t ∧
      t.body = some (Utf8.encode "v=1".toList) ∧ t.headerValues "Content-Type" = [] := by
  have hcomputed : ∃ plan, Contract.usual.read [] [sendingTyped] sendingTyped = .ok [plan] ∧
      (plan.ignored = false ∧ plan.strategy = .form ∧
        (plan.fill .usual (.usual (Schema.adapters [])) [.null, .text "1"]).toOption.map
          (fun t => (t.body, t.headerValues "Content-Type")) =
            some (some (Utf8.encode "v=1".toList), [])) :=
    Contract.exists_plan_of_read (by decide +kernel)
  obtain ⟨plan, hread, hhandled, hform, hsome⟩ := hcomputed
  obtain ⟨t, hfill, hparts⟩ := Option.map_eq_some_iff.mp hsome
  obtain ⟨hbody, hnone⟩ := Prod.mk.inj hparts
  exact ⟨plan, t, hread, hhandled, hform, toOption_eq_some.mp hfill, hbody, hnone⟩

end Plan

end HttpBinding
