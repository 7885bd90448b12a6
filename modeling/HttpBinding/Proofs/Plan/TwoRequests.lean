import HttpBinding.Proofs.Octets.Percent
import HttpBinding.Proofs.Plan.Skeleton
import HttpBinding.Proofs.Plan.TwoCalls
import HttpBinding.Proofs.Template.Literals

/-!
# The requests of two calls

The parts of the requests of two calls that differ in one argument are texts with gaps, plugged
with the encoded texts of the argument: the path, the query text, the values of the headers and
the body. What a target adds to a request is the same in both. So a part that a variable of the
argument is written into is another one in each request, since no encoding takes two texts to one.
-/

namespace HttpBinding

theorem encodeText_utf8_inj [Charsets] {s s' : String} {octets : Octets}
    (hs : encodeText "utf-8" s = .ok octets)
    (hs' : encodeText "utf-8" s' = .ok octets) : s = s' := by
  rw [encodeText_utf8] at hs hs'
  have hsame : Utf8.encode s.toList = Utf8.encode s'.toList := Except.ok.inj (hs.trans hs'.symm)
  have hchars := congrArg Utf8.decode hsame
  rw [Utf8.decode_encode, Utf8.decode_encode] at hchars
  exact String.toList_inj.mp hchars

/-! ## Addresses -/

namespace Target

open Template

variable {target : Target} {t : Template} {request : Request}

/-- The base address that a request gets, and the query parameters that come with it. -/
def origin (target : Target) (base : String) : String × List (String × Option String) :=
  match target with
  | fixed _ url _ =>
    if isAbsolute base then (base, [])
    else
      (String.ofList (dropSlashes (Text.cut '?' url.toList).1),
        splitQuery ((Text.cut '?' url.toList).2.getD []))
  | empty _ _ => (base, [])

/-- A target decides on the address of a request, and leaves its headers and its body as they are. -/
theorem request_of_apply (hrequest : (target.apply t).2 = .ok request) :
    request.url = ({ t with
      base := (target.origin t.base).1
      queries := addPairs (target.origin t.base).2 t.queries } : Template).url ∧
    request.headers = t.headers ∧ request.body = t.body := by
  have hof : ∀ {u : Template}, u.request = .ok request →
      request.url = u.url ∧ request.headers = u.headers ∧ request.body = u.body := by
    intro u hu
    obtain ⟨-, method, -, rfl⟩ := request_eq_ok_iff.mp hu
    exact ⟨rfl, rfl, rfl⟩
  unfold apply at hrequest
  unfold origin
  cases target with
  | fixed api url name =>
      dsimp only at hrequest ⊢
      split at hrequest
      next habsolute =>
        rw [if_pos habsolute]
        exact hof hrequest
      next habsolute =>
        rw [if_neg habsolute]
        rw [target_eq] at hrequest
        exact hof hrequest
  | empty api name =>
      dsimp only at hrequest
      split at hrequest
      · exact hof hrequest
      · cases hrequest

theorem not_mem_origin (target : Target) {base : String} (hbase : '?' ∉ base.toList) :
    '?' ∉ (target.origin base).1.toList := by
  unfold origin
  cases target with
  | fixed api url name =>
      dsimp only
      split
      · exact hbase
      · rw [String.toList_ofList]
        exact not_mem_dropSlashes (Text.not_mem_cut_fst '?' url.toList)
  | empty api name => exact hbase

end Target

/-- Filling changes nothing about whether a path is an address, unless it begins with a placeholder. -/
theorem Template.IsSkeleton.startsWith_http_of_fill {t : Template} (ht : t.IsSkeleton)
    (hbrace : startsWith "\x7b" t.path = false) {bindings : Bindings} {encode : String → String}
    {path : String} (hfill : fill bindings encode t.path = .ok path) :
    startsWith "http" path = startsWith "http" t.path := by
  have hkept : ∀ {start : String}, startsWith start t.path = true → '\x7b' ∉ start.toList →
      startsWith start path = true := fun hstart hopen =>
    startsWith_iff.mpr (prefix_of_fill hfill (startsWith_iff.mp hstart) hopen)
  rcases ht.path with hslash | hempty | hbrace' | hhttp
  · rw [not_startsWith_http (Or.inr hslash), not_startsWith_http (Or.inr (hkept hslash (by decide)))]
  · rw [hempty, fill_empty] at hfill
    rw [hempty, ← Except.ok.inj hfill]
  · rw [hbrace'] at hbrace
    cases hbrace
  · rw [hhttp, hkept hhttp (by decide)]

/-! ## Steps -/

namespace Plan

open Template

variable {names : List String} {a b : String} {plan : Plan} {index : Nat} {arguments : List Value}
  {bindings bindings' : Bindings} {addressed addressed' written written' resolved resolved' : Template}
  {t t' : Template}

/-- An argument that is not the address leaves the address as it is. -/
theorem setAddress_set (hother : plan.urlIndex ≠ some index) (value : Value) (t : Template) :
    plan.setAddress (arguments.set index value) t = plan.setAddress arguments t := by
  unfold setAddress
  split
  · rfl
  next position hposition =>
    have hne : position ≠ index := by
      rintro rfl
      exact hother hposition
    unfold required
    rw [argumentAt_natCast, argumentAt_natCast, argument_set_of_ne hne]

theorem isWellFormed_setAddress [Charsets] (ht : t.IsWellFormed)
    (hset : plan.setAddress arguments t = .ok t') :
    t'.IsWellFormed := by
  unfold setAddress at hset
  split at hset
  · obtain rfl := Except.ok.inj hset
    exact ht
  · obtain ⟨value, -, htarget⟩ := bind_eq_ok.mp hset
    obtain rfl := Except.ok.inj htarget
    exact isWellFormed_target ht _

section Parts

variable [Charsets] (hready : plan.IsReady) (hvariable : plan.IsVariable index names)
  (hargument : arguments[index]? = some (.text a))
  (hsteps : plan.Steps .usual arguments bindings addressed written resolved t)
  (hsteps' : plan.Steps .usual (arguments.set index (.text b)) bindings' addressed' written' resolved' t')

include hready hvariable hargument hsteps hsteps'

theorem differ_of_steps : Bindings.Differ names a b bindings bindings' :=
  differ_bindings hvariable hready.names hargument hsteps.bound hsteps'.bound

theorem path_gapped : ∃ g : Gapped,
    t.path = g.text (Percent.encodePath plan.template.decodeSlash a) ∧
    t'.path = g.text (Percent.encodePath plan.template.decodeSlash b) ∧
    (none ∈ g ↔ Mentions names plan.template.path) :=
  fill_gapped (differ_of_steps hready hvariable hargument hsteps hsteps')
    (hsteps.fills Encoder.writesBodies_usual).path (hsteps'.fills Encoder.writesBodies_usual).path

theorem queries_gapped (hother : plan.urlIndex ≠ some index)
    (hnames : ∀ name ∈ addressed.queries.keys, ¬ Mentions names name) :
    ∃ table : GappedQueries, t.queries = table.plug (Percent.encodeQuery a) ∧
      t'.queries = table.plug (Percent.encodeQuery b) ∧
      ∀ entry ∈ addressed.queries, ∀ text, some text ∈ entry.2 → Mentions names text →
        fillIfBound bindings id entry.1 ≠ .ok none → table.HasGap := by
  have hdiffer := differ_of_steps hready hvariable hargument hsteps hsteps'
  have haddressed' := hsteps'.address
  rw [setAddress_set hother, hsteps.address] at haddressed'
  obtain rfl := Except.ok.inj haddressed'
  obtain ⟨u, hformat, hqueries⟩ := (hsteps.fills Encoder.writesBodies_usual).queries
  obtain ⟨u', hformat', hqueries'⟩ := (hsteps'.fills Encoder.writesBodies_usual).queries
  rw [resolveQueriesFrom_congr (hformat'.trans hformat.symm)] at hqueries'
  have hnone : ∀ s : String, GappedQueries.plug s [] = [] := fun s => rfl
  rw [← hnone (Percent.encodeQuery a)] at hqueries
  rw [← hnone (Percent.encodeQuery b)] at hqueries'
  obtain ⟨table, htable, htable', -, hgap⟩ := resolveQueriesFrom_gapped hdiffer hnames hqueries hqueries'
  exact ⟨table, htable, htable', hgap⟩

theorem headers_gapped : ∃ table : GappedHeaders, t.headers = table.plug a ∧ t'.headers = table.plug b ∧
    ∀ entry ∈ plan.template.headers, ∀ text ∈ entry.2, Mentions names text → table.HasGap := by
  have hdiffer := differ_of_steps hready hvariable hargument hsteps hsteps'
  have haddressed : addressed.headers = plan.template.headers := by
    rw [setAddress_kept hsteps.address]
  have haddressed' : addressed'.headers = addressed.headers := by
    rw [haddressed, setAddress_kept hsteps'.address]
  have hwritten := headers_setBody hsteps.body
  have hwritten' := headers_setBody hsteps'.body
  rw [headers_withContentType _ haddressed', haddressed', ← hwritten] at hwritten'
  have hkept : ∀ entry ∈ plan.template.headers, entry ∈ written.headers := by
    intro entry hentry
    rw [← haddressed] at hentry
    rw [hwritten]
    split
    · refine mem_headers_withContentType _ ?_ hentry
      rw [haddressed]
      exact hready.template.wellFormed.headerValues
    · exact hentry
  have hresolved : ∀ {bindings : Bindings} {written resolved : Template},
      written.resolve bindings = (resolved, none) →
      resolveHeaders bindings written.headers = .ok resolved.headers := by
    intro bindings written resolved hresolve
    obtain ⟨-, -, headers, -, -, hheaders, ⟨-, rfl⟩ | ⟨-, -, -, -, -, -, rfl⟩⟩ := resolve_eq hresolve
    · exact hheaders
    · exact hheaders
  have hheaders' := hresolved hsteps'.resolve
  rw [hwritten'] at hheaders'
  obtain ⟨table, htable, htable', hgap⟩ :=
    resolveHeaders_gapped hdiffer (hresolved hsteps.resolve) hheaders'
  obtain ⟨all, hall, hall', hgrown⟩ :=
    headerMap_gapped hvariable htable htable' hsteps.headerMap hsteps'.headerMap
  exact ⟨all, hall, hall', fun entry hentry text htext hmem =>
    hgrown (hgap entry (hkept entry hentry) text htext hmem)⟩

/-- A variable of the form is found in the body, unless a body text takes the place of the form. -/
theorem body_ne_of_form (hne : a ≠ b) {name : String} (hname : name ∈ names)
    (hform : plan.isFormName name = true) (hbody : plan.template.bodyText = none) :
    t.body ≠ t'.body := by
  have hdiffer := differ_of_steps hready hvariable hargument hsteps hsteps'
  have hstrategy : plan.strategy = .form := by
    have hnames : plan.formNames ≠ [] := by
      intro hnone
      unfold isFormName at hform
      rw [hnone] at hform
      cases hform
    unfold strategy
    simp [hnames, hbody]
  obtain ⟨text, octets, htext, hoctets, hwritten, hnone⟩ := body_setBody_of_form hstrategy hsteps.body
  obtain ⟨text', octets', htext', hoctets', hwritten', hnone'⟩ :=
    body_setBody_of_form hstrategy hsteps'.body
  rw [setAddress_kept hsteps.address] at hoctets
  rw [setAddress_kept hsteps'.address] at hoctets'
  dsimp only at hoctets hoctets'
  rw [hready.template.charset] at hoctets hoctets'
  have hbody : t.body = some octets := by
    rcases (hsteps.fills Encoder.writesBodies_usual).body with ⟨-, hkept⟩ | ⟨_, _, _, hsome, -⟩
    · rw [hkept, hwritten]
    · rw [hnone] at hsome
      cases hsome
  have hbody' : t'.body = some octets' := by
    rcases (hsteps'.fills Encoder.writesBodies_usual).body with ⟨-, hkept⟩ | ⟨_, _, _, hsome, -⟩
    · rw [hkept, hwritten']
    · rw [hnone'] at hsome
      cases hsome
  obtain ⟨g, hg, hg', hgap⟩ := form_gapped plan hdiffer
  rw [hg] at htext
  rw [hg'] at htext'
  obtain rfl := Except.ok.inj htext
  obtain rfl := Except.ok.inj htext'
  rw [hbody, hbody']
  intro heq
  rw [Option.some.inj heq] at hoctets
  have hforms := encodeText_utf8_inj hoctets hoctets'
  exact hne (Percent.encodeForm_injective (Gapped.text_inj (hgap name hname hform) hforms))

/-- A variable of the body text is found in the body, unless an argument is the body. -/
theorem body_ne_of_bodyText (hne : a ≠ b) {text : String} (htext : plan.template.bodyText = some text)
    (hmentions : Mentions names text) (hbody : plan.hasBody = false) : t.body ≠ t'.body := by
  have hdiffer := differ_of_steps hready hvariable hargument hsteps hsteps'
  have hstrategy : plan.strategy = .plain := by
    unfold strategy
    simp [htext, hbody]
  have hfilled : ∀ {arguments : List Value} {bindings : Bindings} {addressed written resolved t : Template},
      plan.Steps .usual arguments bindings addressed written resolved t →
      ∃ filled octets, HttpBinding.fill bindings id text = .ok filled ∧
        encodeText "utf-8" filled = .ok octets ∧ t.body = some octets := by
    intro arguments bindings addressed written resolved t hsteps
    have hwritten := hsteps.body
    unfold setBody at hwritten
    rw [hstrategy] at hwritten
    obtain rfl := Except.ok.inj hwritten
    have hkept : addressed.bodyText = some text := by
      rw [setAddress_kept hsteps.address]
      exact htext
    rcases (hsteps.fills Encoder.writesBodies_usual).body with
      ⟨hnone, -⟩ | ⟨_, filled, octets, hsome, hfilled, hoctets, hdone⟩
    · rw [hkept] at hnone
      cases hnone
    · rw [hkept] at hsome
      obtain rfl := Option.some.inj hsome
      rw [hready.template.charset] at hoctets
      exact ⟨filled, octets, hfilled, hoctets, hdone⟩
  obtain ⟨filled, octets, hfill, hoctets, hdone⟩ := hfilled hsteps
  obtain ⟨filled', octets', hfill', hoctets', hdone'⟩ := hfilled hsteps'
  obtain ⟨g, rfl, rfl, hgap⟩ := fill_gapped hdiffer hfill hfill'
  rw [hdone, hdone']
  intro heq
  rw [Option.some.inj heq] at hoctets
  exact hne (Gapped.text_inj (hgap.mpr hmentions) (encodeText_utf8_inj hoctets hoctets'))

section Requests

variable {target : Target} {request request' : Request}
  (hrequest : (target.apply t).2 = .ok request) (hrequest' : (target.apply t').2 = .ok request')

include hrequest hrequest'

omit hvariable hargument in
/-- Two addresses are the same only if what stands before their queries and the queries are. -/
theorem parts_of_url_eq (hother : plan.urlIndex ≠ some index) (heq : request.url = request'.url) :
    (if startsWith "http" t.path then t.path else (target.origin t.base).1 ++ t.path) =
        (if startsWith "http" t'.path then t'.path else (target.origin t.base).1 ++ t'.path) ∧
      queryLine { t with queries := addPairs (target.origin t.base).2 t.queries } =
        queryLine { t' with queries := addPairs (target.origin t.base).2 t'.queries } := by
  have hfills := hsteps.fills Encoder.writesBodies_usual
  have hfills' := hsteps'.fills Encoder.writesBodies_usual
  have haddressed' := hsteps'.address
  rw [setAddress_set hother, hsteps.address] at haddressed'
  obtain rfl := Except.ok.inj haddressed'
  have hwellFormed := hready.template.wellFormed
  have hbase : '?' ∉ (target.origin addressed.base).1.toList :=
    target.not_mem_origin (isWellFormed_setAddress hwellFormed hsteps.address).base_query
  have hpath := not_mem_filled_path hwellFormed.path_query hfills.path
  have hpath' := not_mem_filled_path hwellFormed.path_query hfills'.path
  have hurl := (Target.request_of_apply hrequest).1
  have hurl' := (Target.request_of_apply hrequest').1
  have hbase_eq : t.base = addressed.base := hfills.base
  rw [hbase_eq] at hurl ⊢
  rw [hfills'.base] at hurl'
  have hcut := cut_url (t := { t with
    base := (target.origin addressed.base).1
    queries := addPairs (target.origin addressed.base).2 t.queries }) hbase hpath
  have hcut' := cut_url (t := { t' with
    base := (target.origin addressed.base).1
    queries := addPairs (target.origin addressed.base).2 t'.queries }) hbase hpath'
  rw [← hurl, heq, hurl'] at hcut
  exact ⟨String.toList_inj.mp (hcut.1.symm.trans hcut'.1), String.toList_inj.mp (hcut.2.symm.trans hcut'.2)⟩

theorem url_ne_of_path (hne : a ≠ b) (hother : plan.urlIndex ≠ some index)
    (hmentions : Mentions names plan.template.path)
    (hhttp : startsWith "http" t'.path = startsWith "http" t.path) : request.url ≠ request'.url := by
  intro heq
  obtain ⟨haddress, -⟩ :=
    parts_of_url_eq hready hsteps hsteps' hrequest hrequest' hother heq
  have hpaths : t.path = t'.path := by
    rw [hhttp] at haddress
    split at haddress
    · exact haddress
    · exact String.append_right_inj _ |>.mp haddress
  obtain ⟨g, hg, hg', hgap⟩ := path_gapped hready hvariable hargument hsteps hsteps'
  rw [hg, hg'] at hpaths
  exact hne (Percent.encodePath_injective _ (Gapped.text_inj (hgap.mpr hmentions) hpaths))

theorem url_ne_of_query (hne : a ≠ b) (hother : plan.urlIndex ≠ some index)
    (hnames : ∀ name ∈ addressed.queries.keys, ¬ Mentions names name)
    {entry : String × List (Option String)} (hentry : entry ∈ addressed.queries) {text : String}
    (htext : some text ∈ entry.2) (hmentions : Mentions names text)
    (hstays : fillIfBound bindings id entry.1 ≠ .ok none) : request.url ≠ request'.url := by
  intro heq
  obtain ⟨-, hline⟩ :=
    parts_of_url_eq hready hsteps hsteps' hrequest hrequest' hother heq
  obtain ⟨table, htable, htable', hgap⟩ :=
    queries_gapped hready hvariable hargument hsteps hsteps' hother hnames
  obtain ⟨all, hall, hall', hkept⟩ := addPairs_gapped (target.origin t.base).2
    (Percent.encodeQuery a) (Percent.encodeQuery b) table
  rw [htable, htable', hall, hall', queryLine_plug rfl, queryLine_plug rfl] at hline
  have hline_gap := (hkept (hgap entry hentry text htext hmentions hstays)).mem_line
  exact hne (Percent.encodeQuery_injective (Gapped.text_inj hline_gap hline))

theorem headers_ne (hne : a ≠ b) {entry : String × List String} (hentry : entry ∈ plan.template.headers)
    {text : String} (htext : text ∈ entry.2) (hmentions : Mentions names text) :
    request.headers ≠ request'.headers := by
  obtain ⟨table, htable, htable', hgap⟩ :=
    headers_gapped hready hvariable hargument hsteps hsteps'
  rw [(Target.request_of_apply hrequest).2.1, (Target.request_of_apply hrequest').2.1, htable, htable']
  exact fun heq => hne (GappedHeaders.plug_inj (hgap entry hentry text htext hmentions) heq)

end Requests

end Parts

end Plan

end HttpBinding
