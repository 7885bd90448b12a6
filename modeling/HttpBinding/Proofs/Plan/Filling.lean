import HttpBinding.Plan.Filling
import HttpBinding.Proofs.Template.WellFormed
import HttpBinding.Schema.Adapters
import HttpBinding.Target

/-!
# The steps of a call

A call fills a template step by step, and each step may change some parts of it only: an
encoder writes the body and may set headers, the header map adds headers. So what the
address and the placeholders make of a template is found in it at the end.
-/

namespace HttpBinding

namespace Template

/-- What writing a body and adding headers leaves of a template. -/
structure SameAddress (t t' : Template) : Prop where
  method : t'.method = t.method
  charset : t'.charset = t.charset
  decodeSlash : t'.decodeSlash = t.decodeSlash
  format : t'.format = t.format
  base : t'.base = t.base
  path : t'.path = t.path
  queries : t'.queries = t.queries

variable {t t' t'' : Template}

theorem SameAddress.refl (t : Template) : t.SameAddress t :=
  ⟨rfl, rfl, rfl, rfl, rfl, rfl, rfl⟩

theorem SameAddress.trans (hfirst : t.SameAddress t') (hsecond : t'.SameAddress t'') :
    t.SameAddress t'' where
  method := hsecond.method.trans hfirst.method
  charset := hsecond.charset.trans hfirst.charset
  decodeSlash := hsecond.decodeSlash.trans hfirst.decodeSlash
  format := hsecond.format.trans hfirst.format
  base := hsecond.base.trans hfirst.base
  path := hsecond.path.trans hfirst.path
  queries := hsecond.queries.trans hfirst.queries

theorem sameAddress_setBody (t : Template) (octets : Option Octets) :
    t.SameAddress (t.setBody octets) :=
  ⟨rfl, rfl, rfl, rfl, rfl, rfl, rfl⟩

theorem sameAddress_setBodyText [Charsets] {text : String}
    (hset : t.setBodyText text = (t', none)) :
    t.SameAddress t' := by
  unfold setBodyText at hset
  split at hset
  · obtain ⟨rfl, -⟩ := Prod.mk.inj hset
    exact sameAddress_setBody t _
  · simp at hset

theorem sameAddress_header (t : Template) (name : String) (values : List String) :
    t.SameAddress (t.header name values) :=
  ⟨rfl, rfl, rfl, rfl, rfl, rfl, rfl⟩

end Template

/-! ## Encoders -/

namespace Encoder

/-- An encoder writes bodies, and what it writes about them is in the headers. -/
def WritesBodies (encoder : Encoder) : Prop :=
  ∀ {value ty t t'}, encoder.encode value ty t = (t', none) → t.SameAddress t'

variable {t t' : Template}

theorem sameAddress_withContentType (contentType : String) (t : Template) :
    t.SameAddress (withContentType contentType t) := by
  unfold withContentType
  split
  · exact Template.sameAddress_header t _ _
  · exact Template.SameAddress.refl t

theorem sameAddress_encodeForm [Charsets] {value : Value}
    (hencode : encodeForm value t = (t', none)) :
    t.SameAddress t' := by
  unfold encodeForm at hencode
  split at hencode
  · simp at hencode
  · split at hencode
    next between hset =>
      obtain ⟨rfl, -⟩ := Prod.mk.inj hencode
      exact (Template.sameAddress_setBodyText hset).trans (sameAddress_withContentType _ _)
    next => simp at hencode

theorem writesBodies_usual [Charsets] : usual.WritesBodies := by
  intro value ty t t' hencode
  change encodeUsual value ty t = (t', none) at hencode
  unfold encodeUsual at hencode
  split at hencode
  · exact sameAddress_encodeForm hencode
  split at hencode
  · exact Template.sameAddress_setBodyText hencode
  split at hencode
  · split at hencode
    · obtain ⟨rfl, -⟩ := Prod.mk.inj hencode
      exact Template.sameAddress_setBody t _
    · simp at hencode
  split at hencode
  · obtain ⟨rfl, -⟩ := Prod.mk.inj hencode
    exact Template.SameAddress.refl t
  · simp at hencode

end Encoder

namespace Plan

variable {plan : Plan} {encoder : Encoder} {queryMapEncoder : QueryMapEncoder}
  {arguments : List Value} {bindings : Bindings} {t t' : Template}

/-! ## Steps -/

theorem resolve_of_resolveWith [Charsets] (hresolve : resolveWith bindings t = .ok t') :
    t.resolve bindings = (t', none) := by
  unfold resolveWith at hresolve
  split at hresolve
  next hresolved => rw [hresolved, Except.ok.inj hresolve]
  next => cases hresolve

/-- The steps of a call of a method without a query map. -/
structure Steps [Charsets] (plan : Plan) (encoder : Encoder) (arguments : List Value)
    (bindings : Bindings) (addressed written resolved t : Template) : Prop where
  address : plan.setAddress arguments plan.template = .ok addressed
  bound : plan.bindings arguments = .ok bindings
  body : plan.setBody encoder arguments bindings addressed = .ok written
  resolve : written.resolve bindings = (resolved, none)
  headerMap : plan.addHeaderMap arguments resolved = .ok t

/-- A call of a method without a query map succeeds only if each of its steps does. -/
theorem steps_of_fill [Charsets] (hmap : plan.queryMapIndex = none)
    (hfill : plan.fill encoder queryMapEncoder arguments = .ok t) :
    ∃ bindings addressed written resolved,
      plan.Steps encoder arguments bindings addressed written resolved t := by
  unfold fill at hfill
  obtain ⟨addressed, haddressed, hfill⟩ := bind_eq_ok.mp hfill
  obtain ⟨bindings, hbindings, hfill⟩ := bind_eq_ok.mp hfill
  obtain ⟨written, hwritten, hfill⟩ := bind_eq_ok.mp hfill
  obtain ⟨resolved, hresolved, hfill⟩ := bind_eq_ok.mp hfill
  obtain ⟨mapped, hmapped, hfill⟩ := bind_eq_ok.mp hfill
  unfold addQueryMap at hmapped
  rw [hmap] at hmapped
  obtain rfl := Except.ok.inj hmapped
  exact ⟨bindings, addressed, written, resolved, haddressed, hbindings, hwritten,
    resolve_of_resolveWith hresolved, hfill⟩

theorem argumentAt_natCast (arguments : List Value) (index : Nat) :
    argumentAt arguments (.int index) = argument arguments index := by
  have hposition : ¬ (index : Int) < 0 := by omega
  unfold argumentAt argumentFrom
  dsimp only
  rw [if_neg hposition, if_neg hposition, Int.toNat_natCast]

/-- What an argument that is the address does to a template. -/
theorem setAddress_eq {index : Nat} (haddress : plan.urlIndex = some index) {value : Value}
    (hargument : arguments[index]? = some value)
    (hset : plan.setAddress arguments t = .ok t') : t' = t.target value.plainText := by
  unfold setAddress at hset
  rw [haddress] at hset
  obtain ⟨given, hgiven, htarget⟩ := bind_eq_ok.mp hset
  have hfound : argument arguments index = .ok value := by
    unfold argument
    rw [hargument]
  unfold required at hgiven
  rw [argumentAt_natCast, hfound] at hgiven
  obtain ⟨found, hvalue, hgiven⟩ := bind_eq_ok.mp hgiven
  obtain rfl := Except.ok.inj hvalue
  split at hgiven
  · cases hgiven
  · obtain rfl := Except.ok.inj hgiven
    exact (Except.ok.inj htarget).symm

/-- The address of a call changes the base address and adds query parameters. -/
theorem setAddress_kept (hset : plan.setAddress arguments t = .ok t') :
    t' = { t with base := t'.base, queries := t'.queries } := by
  unfold setAddress at hset
  split at hset
  · obtain rfl := Except.ok.inj hset
    rfl
  · obtain ⟨value, -, htarget⟩ := bind_eq_ok.mp hset
    obtain rfl := Except.ok.inj htarget
    rw [Template.target_eq]

theorem sameAddress_encodeBody (hencoder : encoder.WritesBodies) {what : String} {value : Value}
    {ty : Ty} (hencode : encodeBody encoder what value ty t = .ok t') : t.SameAddress t' := by
  unfold encodeBody at hencode
  split at hencode
  next written hwritten =>
    obtain rfl := Except.ok.inj hencode
    exact hencoder hwritten
  next => cases hencode

theorem sameAddress_setBody (hencoder : encoder.WritesBodies)
    (hset : plan.setBody encoder arguments bindings t = .ok t') : t.SameAddress t' := by
  unfold setBody at hset
  split at hset
  · exact sameAddress_encodeBody hencoder hset
  · obtain ⟨value, -, hencode⟩ := bind_eq_ok.mp hset
    exact sameAddress_encodeBody hencoder hencode
  · obtain rfl := Except.ok.inj hset
    exact Template.SameAddress.refl t

theorem addHeaderEntry_eq {key value : Value} (hadd : t.addHeaderEntry key value = .ok t') :
    t' = { t with headers := t'.headers } := by
  unfold Template.addHeaderEntry at hadd
  split at hadd
  · obtain rfl := Except.ok.inj hadd
    rfl
  · obtain rfl := Except.ok.inj hadd
    exact Template.addHeader_eq t _ _
  · cases hadd

/-- The header map changes headers only. -/
theorem addHeaderMap_eq (hadd : plan.addHeaderMap arguments t = .ok t') :
    t' = { t with headers := t'.headers } := by
  have hentries : ∀ (entries : ValueEntries) (t : Template), t.addHeaderMap entries = .ok t' →
      t' = { t with headers := t'.headers } := by
    intro entries
    induction entries with
    | nil =>
        intro t hadd
        obtain rfl := Except.ok.inj hadd
        rfl
    | cons entry rest ih =>
        intro t hadd
        obtain ⟨between, hfirst, hrest⟩ := bind_eq_ok.mp hadd
        have hbetween := ih between hrest
        rw [addHeaderEntry_eq hfirst] at hbetween
        exact hbetween
  unfold addHeaderMap at hadd
  split at hadd
  · obtain rfl := Except.ok.inj hadd
    rfl
  · obtain ⟨value, -, hadd⟩ := bind_eq_ok.mp hadd
    split at hadd
    · obtain rfl := Except.ok.inj hadd
      rfl
    · obtain ⟨entries, -, hadd⟩ := bind_eq_ok.mp hadd
      exact hentries entries t hadd

/-! ## What the steps leave -/

/-- What a call leaves of the template of its plan. -/
structure Fills [Charsets] (plan : Plan) (bindings : Bindings)
    (addressed written t : Template) : Prop where
  path : HttpBinding.fill bindings (Percent.encodePath plan.template.decodeSlash) plan.template.path =
    .ok t.path
  queries : ∃ u : Template, u.format = plan.template.format ∧
    u.resolveQueriesFrom bindings [] addressed.queries = .ok t.queries
  base : t.base = addressed.base
  resolved : t.resolved = true
  method : t.method = plan.template.method
  body : written.bodyText = none ∧ t.body = written.body ∨
    ∃ text filled octets, written.bodyText = some text ∧
      HttpBinding.fill bindings id text = .ok filled ∧
      encodeText plan.template.charset filled = .ok octets ∧ t.body = some octets

theorem Steps.fills [Charsets] {addressed written resolved : Template}
    (hencoder : encoder.WritesBodies)
    (hsteps : plan.Steps encoder arguments bindings addressed written resolved t) :
    plan.Fills bindings addressed written t := by
  have haddressed := setAddress_kept hsteps.address
  have hsame : addressed.SameAddress written := sameAddress_setBody hencoder hsteps.body
  have hkept := addHeaderMap_eq hsteps.headerMap
  obtain ⟨path, queries, headers, hpath, hqueries, -, hdone⟩ := Template.resolve_eq hsteps.resolve
  rw [hsame.decodeSlash, hsame.path, haddressed] at hpath
  have hformat : written.format = plan.template.format := by
    rw [hsame.format, haddressed]
  have hqueries : ∃ u : Template, u.format = plan.template.format ∧
      u.resolveQueriesFrom bindings [] written.queries = .ok queries :=
    ⟨{ written with path := path }, hformat, hqueries⟩
  rw [hsame.queries] at hqueries
  have hcharset : written.charset = plan.template.charset := by
    rw [hsame.charset, haddressed]
  have hmethod : written.method = plan.template.method := by
    rw [hsame.method, haddressed]
  rcases hdone with ⟨hnone, rfl⟩ | ⟨text, filled, octets, hsome, hfilled, hoctets, rfl⟩
  · rw [hkept]
    exact ⟨hpath, hqueries, hsame.base, rfl, hmethod, Or.inl ⟨hnone, rfl⟩⟩
  · rw [hcharset] at hoctets
    rw [hkept]
    exact ⟨hpath, hqueries, hsame.base, rfl, hmethod,
      Or.inr ⟨text, filled, octets, hsome, hfilled, hoctets, rfl⟩⟩

/-! ## Requests -/

/-- The request of a call with the usual encoder, if the call goes through. -/
def requestOf [Charsets] (plan : Plan) (arguments : List Value) : Option Request :=
  (plan.fill .usual (.usual (Schema.adapters [])) arguments).toOption.bind fun t =>
    ((Target.fixed "Api" "http://api.test" "http://api.test").apply t).2.toOption

theorem requestOf_eq_some [Charsets] {request : Request}
    (hrequest : plan.requestOf arguments = some request) :
    ∃ t, plan.fill .usual (.usual (Schema.adapters [])) arguments = .ok t ∧
      ((Target.fixed "Api" "http://api.test" "http://api.test").apply t).2 = .ok request := by
  obtain ⟨t, hfill, happly⟩ := Option.bind_eq_some_iff.mp hrequest
  exact ⟨t, toOption_eq_some.mp hfill, toOption_eq_some.mp happly⟩

end Plan

end HttpBinding
