import HttpBinding.Octets.Charset
import HttpBinding.Proofs.Plan.Filling
import HttpBinding.Proofs.Plan.Skeleton
import HttpBinding.Proofs.Template.Literals
import HttpBinding.Schema.Adapters

/-!
# Addresses that are given by a call

An argument may be the address of a call. It takes the place of the base address of the
target, and its query is merged into the query of the template, whose placeholders are
filled afterwards. So the query of such an address is no plain data: a placeholder in it
is filled or goes away with its part like one of the method itself. What has no
placeholders arrives as it is.
-/

namespace HttpBinding.Plan

open Template

variable {ds : Declarations} {interfaces : Interfaces} {api : InterfaceDecl} {plans : List Plan}
  {plan : Plan} {index : Nat} {arguments : List Value} {value : Value} {encoder : Encoder}
  {queryMapEncoder : QueryMapEncoder} {t : Template}

theorem apply_of_absolute (target : Target) (hbase : startsWith "http" t.base = true)
    (hresolved : t.resolved = true) (hmethod : t.method.isSome = true) :
    ∃ request, (target.apply t).2 = .ok request ∧ request.url = t.url := by
  obtain ⟨method, hsome⟩ := Option.isSome_iff_exists.mp hmethod
  have habsolute : Target.isAbsolute t.base = true := hbase
  have hrequest := request_of_resolved hresolved hsome
  have happly : (target.apply t).2 = t.request := by
    cases target with
    | fixed api url name => simp [Target.apply, habsolute]
    | empty api name => simp [Target.apply, habsolute]
  exact ⟨_, happly.trans hrequest, rfl⟩

/-- What a call makes of a template into which an address is merged. -/
theorem fill_of_address [Charsets] (hready : plan.IsReady) (hindex : plan.urlIndex = some index)
    (hmap : plan.queryMapIndex = none) (hargument : arguments[index]? = some value)
    (hencoder : encoder.WritesBodies)
    (hfill : plan.fill encoder queryMapEncoder arguments = .ok t) :
    ∃ bindings, plan.bindings arguments = .ok bindings ∧
      HttpBinding.fill bindings (Percent.encodePath plan.template.decodeSlash) plan.template.path =
        .ok t.path ∧
      (plan.template.target value.plainText).resolveQueries bindings = .ok t.queries ∧
      t.base = addressStem value.plainText ∧ t.resolved = true ∧ t.method.isSome = true := by
  obtain ⟨bindings, addressed, written, resolved, hsteps⟩ := steps_of_fill hmap hfill
  have hfills := hsteps.fills hencoder
  have htarget := setAddress_eq hindex hargument hsteps.address
  obtain ⟨u, hformat, hqueries⟩ := hfills.queries
  -- Only the format of a template decides how the values of its queries are written.
  rw [htarget, resolveQueriesFrom_congr (t := plan.template.target value.plainText)
    (by rw [hformat, target_eq])] at hqueries
  refine ⟨bindings, hsteps.bound, hfills.path, hqueries, ?_, hfills.resolved, ?_⟩
  · rw [hfills.base, htarget, target_eq]
    rfl
  · rw [hfills.method]
    exact hready.method

/--
A call with an address of its own is sent to that address, whatever the target and the other
arguments are: the request goes on from the address without its query and the slashes before
it. The query of the address is merged into that of the method, and what they are together is
resolved to the query of the request. Every part of it without a placeholder is a part of the
query of the request, unchanged; a bare name is, if no other name of the merged query is or
becomes it.
-/
theorem fill_merges_address [Charsets] (hread : Contract.usual.read ds interfaces api = .ok plans)
    (hplan : plan ∈ plans) (hhandled : plan.ignored = false) (hindex : plan.urlIndex = some index)
    (hmap : plan.queryMapIndex = none) (hroot : startsWith "/" plan.template.path = true)
    (hargument : arguments[index]? = some value) {address : String}
    (haddress : value.plainText = address)
    (hscheme : startsWith "http://" address = true ∨ startsWith "https://" address = true)
    (hencoder : encoder.WritesBodies)
    (hfill : plan.fill encoder queryMapEncoder arguments = .ok t) (target : Target) :
    ∃ bindings request, plan.bindings arguments = .ok bindings ∧
      (target.apply t).2 = .ok request ∧ request.url = t.url ∧
      startsWith (addressStem address) request.url = true ∧
      (plan.template.target address).resolveQueries bindings = .ok t.queries ∧
      ∀ part ∈ addressParts address, part ≠ [] → placeholders (String.ofList part) = [] →
        ('=' ∈ part ∨
          StandsAlone bindings (plan.template.target address).queries (String.ofList part)) →
        part ∈ addressParts request.url := by
  have hready := Contract.isReady_of_mem_read hread hplan hhandled
  obtain ⟨bindings, hbindings, hpath, hqueries, hbase, hresolved, hmethod⟩ :=
    fill_of_address hready hindex hmap hargument hencoder hfill
  rw [haddress] at hqueries hbase
  have hwellFormed := isWellFormed_target hready.template.wellFormed address
  have habsolute : startsWith "http" t.base = true := by
    rw [hbase]
    exact startsWith_http_addressStem hscheme
  obtain ⟨request, hrequest, hurl⟩ := apply_of_absolute target habsolute hresolved hmethod
  refine ⟨bindings, request, hbindings, hrequest, hurl, ?_, hqueries, ?_⟩
  · -- The path keeps its slash, so that it follows the address and does not take its place.
    have hslash : startsWith "/" t.path = true :=
      startsWith_iff.mpr (prefix_of_fill hpath (startsWith_iff.mp hroot) (by decide))
    rw [hurl, url_of_relative (not_startsWith_http (Or.inr hslash)), hbase, startsWith_iff,
      String.toList_append]
    exact List.prefix_append _ _
  · intro part hpart hsome hnone hkind
    have hmark : '&' ∉ part := Text.not_mem_of_mem_splitOn hpart
    have hbase_query : '?' ∉ t.base.toList := by
      rw [hbase]
      have hmerged := hwellFormed.base_query
      rwa [target_eq] at hmerged
    have hpath_query := not_mem_filled_path hready.template.wellFormed.path_query hpath
    have hmem : ∀ entry ∈ t.queries, String.ofList part ∈ queryParts entry.1 entry.2 →
        part ∈ addressParts request.url := by
      intro entry hentry hwritten
      have hfound := mem_addressParts_url hbase_query hpath_query hentry hwritten
        (by rwa [String.toList_ofList])
      rwa [String.toList_ofList, ← hurl] at hfound
    by_cases hequals : '=' ∈ part
    · obtain ⟨hname, hvalue⟩ := placeholders_queryPair hnone
      obtain ⟨text, htext, hpart_eq⟩ := queryPair_of_mem hequals
      have hhas : (plan.template.target address).queries.Has (queryPair part).1 (queryPair part).2 :=
        has_target hpart hsome
      rw [htext] at hhas
      obtain ⟨values, hentry, hpresent⟩ :=
        has_resolveQueriesFrom hname (hvalue text htext) hhas hqueries
      refine hmem _ hentry ?_
      rw [hpart_eq]
      exact mem_queryParts hpresent
    · have halone := hkind.resolve_left hequals
      refine hmem (String.ofList part, [none]) ?_ (List.mem_singleton_self _)
      exact mem_resolveQueriesFrom_of_alone hnone hwellFormed.queryNames halone List.not_mem_nil hqueries

/-! ## A method whose only argument is an address -/

/-- The parameter of a method that is sent to any address. -/
def anyAddress : ParameterDecl :=
  { name := "base", ty := some .url }

open scoped CommonCharsets

theorem fill_merges_address_ofPing : ∃ plan t request,
    Contract.usual.read [] [Contract.pinging [anyAddress]] (Contract.pinging [anyAddress]) =
        .ok [plan] ∧
      plan.fill .usual (.usual (Schema.adapters [])) [.url "http://other.test/v1/?q=1&flag"] = .ok t ∧
      ((Target.fixed "Api" "http://api.test" "http://api.test").apply t).2 = .ok request ∧
      startsWith "http://other.test/v1" request.url = true ∧
      "q=1".toList ∈ addressParts request.url ∧ "flag".toList ∈ addressParts request.url := by
  have hcomputed : ∃ plan,
      Contract.usual.read [] [Contract.pinging [anyAddress]] (Contract.pinging [anyAddress]) =
        .ok [plan] ∧
      (plan.ignored = false ∧ plan.urlIndex = some 0 ∧ plan.queryMapIndex = none ∧
        plan.template = { method := some .get, path := "/ping" } ∧
        (plan.requestOf [.url "http://other.test/v1/?q=1&flag"]).isSome = true) :=
    Contract.exists_plan_of_read (by decide +kernel)
  obtain ⟨plan, hread, hhandled, hindex, hmap, htemplate, hsome⟩ := hcomputed
  obtain ⟨request', hrequest'⟩ := Option.isSome_iff_exists.mp hsome
  obtain ⟨t, hfill, -⟩ := requestOf_eq_some hrequest'
  have hroot : startsWith "/" plan.template.path = true := by
    rw [htemplate]
    rfl
  obtain ⟨bindings, request, -, hrequest, -, hstem, -, hparts⟩ :=
    fill_merges_address hread List.mem_cons_self hhandled hindex hmap hroot rfl rfl
      (Or.inl (by decide)) Encoder.writesBodies_usual hfill
      (.fixed "Api" "http://api.test" "http://api.test")
  have hqueries : (plan.template.target "http://other.test/v1/?q=1&flag").queries =
      [("q", [some "1"]), ("flag", [none])] := by
    rw [htemplate]
    decide
  have hname : placeholders "q" = [] := placeholders_of_no_brace (by decide)
  have halone : StandsAlone bindings
      (plan.template.target "http://other.test/v1/?q=1&flag").queries "flag" := by
    rw [hqueries]
    refine ⟨by decide, ?_⟩
    intro other hother hfilled
    rcases List.mem_cons.mp hother with rfl | hother
    · rw [fill_of_no_placeholders hname] at hfilled
      exact absurd (Except.ok.inj hfilled) (by decide)
    · exact List.mem_singleton.mp hother
  refine ⟨plan, t, request, hread, hfill, hrequest, hstem, ?_, ?_⟩
  · exact hparts "q=1".toList (by decide) (by decide) (placeholders_of_no_brace (by decide))
      (Or.inl (by decide))
  · exact hparts "flag".toList (by decide) (by decide) (placeholders_of_no_brace (by decide))
      (Or.inr halone)

/--
An address loses a part with a placeholder, which nothing is bound to, and a bare name that
stands beside a value of the same name.
-/
theorem fill_drops_parts_of_address : ∃ plan t request,
    Contract.usual.read [] [Contract.pinging [anyAddress]] (Contract.pinging [anyAddress]) =
        .ok [plan] ∧
      plan.urlIndex = some 0 ∧ plan.queryMapIndex = none ∧
      startsWith "/" plan.template.path = true ∧
      plan.fill .usual (.usual (Schema.adapters [])) [.url "http://other.test/?q={v}&a&a=1"] = .ok t ∧
      ((Target.fixed "Api" "http://api.test" "http://api.test").apply t).2 = .ok request ∧
      "q={v}".toList ∈ addressParts "http://other.test/?q={v}&a&a=1" ∧
      "q={v}".toList ∉ addressParts request.url ∧
      "a".toList ∈ addressParts "http://other.test/?q={v}&a&a=1" ∧
      "a".toList ∉ addressParts request.url := by
  have hcomputed : ∃ plan,
      Contract.usual.read [] [Contract.pinging [anyAddress]] (Contract.pinging [anyAddress]) =
        .ok [plan] ∧
      (plan.urlIndex = some 0 ∧ plan.queryMapIndex = none ∧
        startsWith "/" plan.template.path = true ∧
        plan.requestOf [.url "http://other.test/?q={v}&a&a=1"] =
          some ⟨.get, "http://other.test/ping?a=1", [], none, "utf-8"⟩) :=
    Contract.exists_plan_of_read (by decide +kernel)
  obtain ⟨plan, hread, hindex, hmap, hroot, hrequest⟩ := hcomputed
  obtain ⟨t, hfill, happly⟩ := requestOf_eq_some hrequest
  refine ⟨plan, t, _, hread, hindex, hmap, hroot, hfill, happly, ?_, ?_, ?_, ?_⟩
  · decide
  · decide
  · decide
  · decide

end HttpBinding.Plan
