import HttpBinding.Octets.Charset
import HttpBinding.Proofs.Template.Literals

/-!
# Requests without a base address

An empty target sends what brings an absolute address. It takes an address for absolute as
soon as it begins with `http`, so that every request of such a target begins with these
letters, but not every one has a scheme: the name of a host may begin with them as well. A
request has a scheme for certain if the address that the template took over names a host
after its scheme, and the path text begins neither with `http` nor with a placeholder.
-/

namespace HttpBinding

namespace Template

/-- An address with the scheme of a request. -/
def HasScheme (address : String) : Prop :=
  startsWith "http://" address = true ∨ startsWith "https://" address = true

/-- An address that goes on after its scheme with more than slashes or a query. -/
def NamesHost (address : String) : Prop :=
  ∃ scheme ∈ ["http://", "https://"], ∃ c rest, address.toList = scheme.toList ++ c :: rest ∧
    c ≠ '/' ∧ c ≠ '?'

instance (address : String) : Decidable (HasScheme address) :=
  inferInstanceAs (Decidable (_ ∨ _))

/-- What an address begins with does not depend on its query. -/
theorem startsWith_append_query {start address suffix : String} (hstart : '?' ∉ start.toList)
    (hsuffix : suffix = "" ∨ startsWith "?" suffix = true) :
    startsWith start (address ++ suffix) = startsWith start address := by
  rcases hsuffix with rfl | hmark
  · rw [String.append_empty]
  · obtain ⟨query, hquery⟩ := startsWith_iff.mp hmark
    rw [Bool.eq_iff_iff, startsWith_iff, startsWith_iff, String.toList_append]
    refine ⟨fun hlong => ?_, fun hshort => hshort.trans (List.prefix_append _ _)⟩
    have hwhole : address.toList ++ ['?'] <+: address.toList ++ suffix.toList :=
      ⟨query, by rw [List.append_assoc]; exact congrArg _ hquery⟩
    rcases List.prefix_or_prefix_of_prefix hlong hwhole with hwithin | hbeyond
    · rcases List.prefix_concat_iff.mp hwithin with heq | hshort
      · exact absurd (heq ▸ List.mem_append_right _ (List.mem_singleton_self _)) hstart
      · exact hshort
    · exact absurd (hbeyond.subset (List.mem_append_right _ (List.mem_singleton_self _))) hstart

/-- A host that follows the scheme keeps the slashes of the scheme from the end. -/
theorem hasScheme_addressStem {address : String} (hhost : NamesHost address) :
    HasScheme (addressStem address) := by
  obtain ⟨scheme, hscheme, c, rest, haddress, hslash, hquery⟩ := hhost
  have hmark : '?' ∉ scheme.toList := by
    simp only [List.mem_cons, List.not_mem_nil, or_false] at hscheme
    rcases hscheme with rfl | rfl <;> decide
  have hcut : scheme.toList ++ [c] <+: (Text.cut '?' address.toList).1 := by
    refine Text.prefix_cut_fst ⟨rest, ?_⟩ ?_
    · rw [haddress, List.append_assoc, List.singleton_append]
    · simp [hmark, hquery.symm]
  obtain ⟨more, hmore⟩ := hcut
  have hstem : startsWith scheme (addressStem address) = true := by
    rw [startsWith_iff, addressStem, String.toList_ofList, ← hmore, List.append_assoc,
      List.singleton_append, dropSlashes_append hslash]
    exact List.prefix_append _ _
  simp only [List.mem_cons, List.not_mem_nil, or_false] at hscheme
  rcases hscheme with rfl | rfl
  · exact .inl hstem
  · exact .inr hstem

theorem hasScheme_url (t : Template) :
    HasScheme t.url ↔ HasScheme (if startsWith "http" t.path then t.path else t.base ++ t.path) := by
  have hplain : '?' ∉ "http://".toList := by decide
  have hsecure : '?' ∉ "https://".toList := by decide
  rw [HasScheme, HasScheme, url_eq, startsWith_append_query hplain t.querySuffix_cases,
    startsWith_append_query hsecure t.querySuffix_cases]

theorem HasScheme.append {address : String} (hscheme : HasScheme address) (path : String) :
    HasScheme (address ++ path) := by
  have hlonger : ∀ start, startsWith start address = true → startsWith start (address ++ path) = true := by
    intro start hstart
    rw [startsWith_iff] at hstart ⊢
    rw [String.toList_append]
    exact hstart.trans (List.prefix_append _ _)
  exact hscheme.imp (hlonger _) (hlonger _)

end Template

namespace Target

open Template

variable {api name address text : String} {t₀ t : Template} {bindings : Bindings} {request : Request}

/-- An empty target looks at how the base and the path of a template begin, and then sends it as it is. -/
theorem apply_empty_eq_ok_iff : ((empty api name).apply t).2 = .ok request ↔
    (startsWith "http" t.base = true ∨ startsWith "http" t.path = true) ∧ t.request = .ok request := by
  simp only [apply, isAbsolute, Bool.or_eq_true]
  split
  next habsolute => simp [habsolute]
  next hrelative => simp [hrelative]

/-- A template that takes over an address and is resolved has the stem of the address as its base. -/
theorem isResolved_of_target [Charsets]
    (hresolve : ((t₀.uri text false).target address).resolve bindings = (t, none)) :
    t.base = addressStem address ∧ t.method = t₀.method ∧ t.resolved = true ∧
      (startsWith "http" text = false →
        t.path = "" ∨ startsWith "/" t.path = true ∨ startsWith "\x7b" text = true) := by
  have hdone := isResolved_of_resolve hresolve
  have hpath : ((t₀.uri text false).target address).path =
      rooted (String.ofList (Text.cut '?' text.toList).1) := by
    rw [target_eq]
    exact path_uri t₀ text
  have hbase : ((t₀.uri text false).target address).base = addressStem address := by
    rw [target_eq]
    rfl
  have hmethod : ((t₀.uri text false).target address).method = t₀.method := by
    rw [target_eq, uri_eq]
  exact ⟨hdone.base.trans hbase, hdone.method.trans hmethod, hdone.resolved,
    path_of_resolve_rooted hpath hresolve⟩

/--
Of the templates that a path text, an address and variables make, an empty target sends those
that have a verb and whose base or path begins with `http`, and refuses all others. So every
request begins with `http`, and it has a scheme exactly if what comes before its query has one.
This is so for every address that names a host after its scheme, unless the path text begins
with `http` or a placeholder. A template that took over no address has an empty one.
-/
theorem apply_empty_sends [Charsets] (api name : String)
    (hresolve : ((t₀.uri text false).target address).resolve bindings = (t, none)) :
    ((∃ request, ((empty api name).apply t).2 = .ok request) ↔ t₀.method.isSome = true ∧
      (startsWith "http" (addressStem address) = true ∨ startsWith "http" t.path = true)) ∧
    (startsWith "http" (addressStem address) = false → startsWith "http" t.path = false →
      ((empty api name).apply t).2 = .error (.foreign "ValueError"
        ("Request with non-absolute URL not supported with empty target: " ++ t.url))) ∧
    ∀ request, ((empty api name).apply t).2 = .ok request →
      startsWith "http" request.url = true ∧
      (HasScheme request.url ↔ HasScheme
        (if startsWith "http" t.path then t.path else addressStem address ++ t.path)) ∧
      (NamesHost address → startsWith "http" text = false → startsWith "\x7b" text = false →
        HasScheme request.url) := by
  obtain ⟨hbase, hmethod, hresolved, hrooted⟩ := isResolved_of_target hresolve
  refine ⟨?_, ?_, ?_⟩
  · have hverb : (∃ request, t.request = .ok request) ↔ t₀.method.isSome = true := by
      simp [request_eq_ok_iff, hresolved, hmethod, Option.isSome_iff_exists]
    simp only [apply_empty_eq_ok_iff, exists_and_left, hverb, hbase]
    exact and_comm
  · intro hstem hpath
    simp [apply, isAbsolute, hbase, hstem, hpath]
  · intro request hrequest
    obtain ⟨habsolute, hsent⟩ := apply_empty_eq_ok_iff.mp hrequest
    obtain ⟨-, method, -, rfl⟩ := request_eq_ok_iff.mp hsent
    rw [hasScheme_url, hbase]
    refine ⟨?_, Iff.rfl, ?_⟩
    · rw [url_eq, startsWith_append_query (by decide) t.querySuffix_cases]
      split
      next hpath => exact hpath
      next hpath =>
        rw [startsWith_iff, String.toList_append]
        exact (startsWith_iff.mp (habsolute.resolve_right hpath)).trans (List.prefix_append _ _)
    · intro hhost htext hbrace
      have hpath : t.path = "" ∨ startsWith "/" t.path = true := by
        rcases hrooted htext with hempty | hslash | hopen
        · exact .inl hempty
        · exact .inr hslash
        · rw [hbrace] at hopen
          cases hopen
      rw [not_startsWith_http hpath, if_neg Bool.false_ne_true]
      exact (hasScheme_addressStem hhost).append t.path

open scoped CommonCharsets

theorem apply_empty_sends_ofStatus : ∃ t request,
    (((({ method := some .get } : Template).uri "/status/\x7bid\x7d" false).target
        "https://api.test/?v=1").resolve [("id", .text "http://x")]) = (t, none) ∧
      ((empty "Api" "empty").apply t).2 = .ok request ∧ HasScheme request.url := by
  have hresolve : ∃ t, ((({ method := some .get } : Template).uri "/status/\x7bid\x7d" false).target
      "https://api.test/?v=1").resolve [("id", .text "http://x")] = (t, none) :=
    resolve_isResolved (Bindings.areTextual_ofTexts [("id", "http://x")]) (by decide +kernel)
  obtain ⟨t, hresolve⟩ := hresolve
  obtain ⟨hsent, -, hall⟩ := apply_empty_sends "Api" "empty" hresolve
  have hstem : startsWith "http" (addressStem "https://api.test/?v=1") = true := by decide
  obtain ⟨request, hrequest⟩ := hsent.mpr ⟨rfl, .inl hstem⟩
  refine ⟨t, request, hresolve, hrequest, (hall request hrequest).2.2 ?_ (by decide) (by decide)⟩
  exact ⟨"https://", by simp, 'a', "pi.test/?v=1".toList, by decide, by decide, by decide⟩

/-- The name of a host is taken for an address, and the request has no scheme. -/
theorem apply_empty_sends_relative : ∃ t request,
    (((({ method := some .get } : Template).uri "/status" false).target "httpbin.test").resolve []) =
        (t, none) ∧
      ((empty "Api" "empty").apply t).2 = .ok request ∧
      request.url = "httpbin.test/status" ∧ ¬ HasScheme request.url := by
  have hpath : fill [] (Percent.encodePath true) "/status" = .ok "/status" :=
    fill_of_no_placeholders (placeholders_of_no_brace (by decide))
  have hresolve := resolve_of_path
    (t := (({ method := some .get } : Template).uri "/status" false).target "httpbin.test")
    hpath rfl rfl rfl
  exact ⟨_, _, hresolve, rfl, rfl, by decide⟩

end Target

end HttpBinding
