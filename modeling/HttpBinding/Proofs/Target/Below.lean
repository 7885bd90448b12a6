import HttpBinding.Octets.Charset
import HttpBinding.Proofs.Template.WellFormed
import HttpBinding.Target

/-!
# Requests below a base address

A fixed target sends everything below its base address: the address of a request is
the base, and a path or a query may follow. What decides this is how the path begins
once it is filled. A path text gets a slash in front unless it begins with a slash, a
placeholder or `http`, and no value can take that slash away. A text that begins with
a placeholder leaves the beginning of the path to the value in its place.
-/

namespace HttpBinding

namespace Template

theorem startsWith_iff {start text : String} :
    startsWith start text = true ↔ start.toList <+: text.toList :=
  List.isPrefixOf_iff_prefix

theorem startsWith_trans {start between text : String} (hstart : startsWith start between = true)
    (hbetween : startsWith between text = true) : startsWith start text = true := by
  rw [startsWith_iff] at hstart hbetween ⊢
  exact hstart.trans hbetween

theorem startsWith_slash_iff {text : String} :
    startsWith "/" text = true ↔ text.toList.head? = some '/' := by
  rw [startsWith_iff]
  cases h : text.toList with
  | nil => simp
  | cons c rest => simp [eq_comm]

theorem rooted_cases (path : String) :
    startsWith "/" (rooted path) = true ∨ rooted path = path ∧
      (path = "" ∨ startsWith "\x7b" path = true ∨ startsWith "http" path = true) := by
  unfold rooted
  split
  next hkept =>
    simp only [List.any_cons, List.any_nil, Bool.or_false, Bool.or_eq_true,
      String.isEmpty_iff] at hkept
    rcases hkept with hempty | hslash | hother
    · exact Or.inr ⟨rfl, Or.inl hempty⟩
    · exact Or.inl hslash
    · exact Or.inr ⟨rfl, Or.inr hother⟩
  next =>
    refine Or.inl (startsWith_iff.mpr ?_)
    rw [String.toList_append]
    exact List.prefix_append _ _

theorem startsWith_of_cut {start text : String}
    (hstart : startsWith start (String.ofList (Text.cut '?' text.toList).1) = true) :
    startsWith start text = true := by
  rw [startsWith_iff, String.toList_ofList] at hstart
  rw [startsWith_iff]
  refine hstart.trans ?_
  have hcut := Text.cut_fst_append '?' text.toList
  exact ⟨_, hcut⟩

section Paths

variable {t t' : Template} {bindings : Bindings} {text : String}

/-- How a path that a text was rooted to begins once it is filled. -/
theorem path_of_resolve_rooted [Charsets]
    (hpath : t.path = rooted (String.ofList (Text.cut '?' text.toList).1))
    (hresolve : t.resolve bindings = (t', none)) (htext : startsWith "http" text = false) :
    t'.path = "" ∨ startsWith "/" t'.path = true ∨ startsWith "\x7b" text = true := by
  have hfill := (isResolved_of_resolve hresolve).path
  rw [hpath] at hfill
  -- A slash in front belongs to no placeholder, so filling leaves it where it is.
  rcases rooted_cases (String.ofList (Text.cut '?' text.toList).1) with hslash | ⟨hkept, hpath⟩
  · rw [startsWith_slash_iff] at hslash
    obtain ⟨rest, hrest⟩ := List.head?_eq_some_iff.mp hslash
    have hhead := head?_of_fill hfill hrest (by decide)
    exact Or.inr (Or.inl (startsWith_slash_iff.mpr hhead))
  · rw [hkept] at hfill
    rcases hpath with hempty | hbrace | hhttp
    · rw [hempty, fill_empty] at hfill
      exact Or.inl (Except.ok.inj hfill).symm
    · exact Or.inr (Or.inr (startsWith_of_cut hbrace))
    · rw [startsWith_of_cut hhttp] at htext
      simp at htext

theorem path_uri (t : Template) (text : String) :
    (t.uri text false).path = rooted (String.ofList (Text.cut '?' text.toList).1) := by
  rw [uri_eq]
  exact String.empty_append

theorem path_of_resolve_uri [Charsets] (hresolve : (t.uri text false).resolve bindings = (t', none))
    (htext : startsWith "http" text = false) :
    t'.path = "" ∨ startsWith "/" t'.path = true ∨ startsWith "\x7b" text = true :=
  path_of_resolve_rooted (path_uri t text) hresolve htext

end Paths

/-! ## The base address -/

/-- A base address that has neither a query nor slashes at its end is taken over as it is. -/
theorem target_of_base (t : Template) {b : String} (hquery : '?' ∉ b.toList)
    (hslash : dropSlashes b.toList = b.toList) : t.target b = { t with base := b } := by
  rw [target_eq, Text.cut_of_not_mem hquery, hslash, String.ofList_toList]
  rfl

/-- What follows the path in an address. -/
def querySuffix (t : Template) : String :=
  if t.queryLine.isEmpty then "" else "?" ++ t.queryLine

theorem querySuffix_cases (t : Template) :
    t.querySuffix = "" ∨ startsWith "?" t.querySuffix = true := by
  unfold querySuffix
  split
  · exact Or.inl rfl
  · refine Or.inr (startsWith_iff.mpr ?_)
    rw [String.toList_append]
    exact List.prefix_append _ _

theorem url_eq (t : Template) :
    t.url = (if startsWith "http" t.path then t.path else t.base ++ t.path) ++ t.querySuffix := by
  unfold url querySuffix
  dsimp only
  split
  · rw [String.append_empty]
  · rw [String.append_assoc]

theorem url_of_relative {t : Template} (hpath : startsWith "http" t.path = false) :
    t.url = t.base ++ (t.path ++ t.querySuffix) := by
  rw [url_eq, hpath, if_neg Bool.false_ne_true, String.append_assoc]

theorem url_of_absolute {t : Template} (hpath : startsWith "http" t.path = true) :
    t.url = t.path ++ t.querySuffix := by
  rw [url_eq, if_pos hpath]

theorem request_eq_ok_iff {t : Template} {request : Request} : t.request = .ok request ↔
    t.resolved = true ∧ ∃ method, t.method = some method ∧
      request = ⟨method, t.url, t.headers, t.body, t.charset⟩ := by
  cases hresolved : t.resolved with
  | false => simp [Template.request, hresolved]
  | true => cases hmethod : t.method <;> simp [Template.request, hresolved, hmethod, eq_comm]

theorem request_of_resolved {t : Template} (hresolved : t.resolved = true) {method : Method}
    (hmethod : t.method = some method) :
    t.request = .ok ⟨method, t.url, t.headers, t.body, t.charset⟩ :=
  request_eq_ok_iff.mpr ⟨hresolved, method, hmethod, rfl⟩

/-- The query of the address of a request is the query text, if there is any. -/
theorem cut_url {t : Template} (hbase : '?' ∉ t.base.toList) (hpath : '?' ∉ t.path.toList) :
    (Text.cut '?' t.url.toList).1 =
        (if startsWith "http" t.path then t.path else t.base ++ t.path).toList ∧
      (Text.cut '?' t.url.toList).2.getD [] = t.queryLine.toList := by
  have haddress : '?' ∉ (if startsWith "http" t.path then t.path else t.base ++ t.path).toList := by
    split
    · exact hpath
    · rw [String.toList_append, List.mem_append, not_or]
      exact ⟨hbase, hpath⟩
  rw [url_eq, String.toList_append]
  generalize (if startsWith "http" t.path then t.path else t.base ++ t.path) = address at haddress ⊢
  unfold querySuffix
  split
  next hempty =>
    rw [String.toList_empty, List.append_nil, Text.cut_of_not_mem haddress,
      String.isEmpty_iff.mp hempty]
    exact ⟨rfl, rfl⟩
  next =>
    have hmark : ("?" ++ t.queryLine).toList = '?' :: t.queryLine.toList := by
      rw [String.toList_append]
      rfl
    rw [hmark, Text.cut_append haddress]
    exact ⟨rfl, rfl⟩

theorem not_startsWith_http {path : String} (hpath : path = "" ∨ startsWith "/" path = true) :
    startsWith "http" path = false := by
  rcases hpath with rfl | hslash
  · rfl
  · rw [startsWith_slash_iff] at hslash
    obtain ⟨rest, hrest⟩ := List.head?_eq_some_iff.mp hslash
    unfold startsWith
    rw [hrest]
    rfl

end Template

namespace Target

open Template

/-- An address that is a base address or goes on from it with a path or a query. -/
def IsBelow (base address : String) : Prop :=
  ∃ rest, address = base ++ rest ∧
    (rest = "" ∨ startsWith "/" rest = true ∨ startsWith "?" rest = true)

theorem isBelow_url {t : Template} (hpath : t.path = "" ∨ startsWith "/" t.path = true) :
    IsBelow t.base t.url := by
  refine ⟨t.path ++ t.querySuffix, url_of_relative (not_startsWith_http hpath), ?_⟩
  rcases hpath with hempty | hslash
  · rw [hempty, String.empty_append]
    exact t.querySuffix_cases.imp_right Or.inr
  · refine Or.inr (Or.inl ?_)
    rw [startsWith_iff] at hslash ⊢
    rw [String.toList_append]
    exact hslash.trans (List.prefix_append _ _)

section Apply

variable {api url b : String} {name : Option String} {target : Target} {t t' : Template}

theorem fixed_of_ofUrl (htarget : ofUrl api url name = .ok target) (hb : target.url = .ok b) :
    (∃ given, target = fixed api b given) ∧ dropSlashes b.toList = b.toList := by
  unfold ofUrl at htarget
  split at htarget
  · cases htarget
  · obtain rfl := Except.ok.inj htarget
    obtain rfl := Except.ok.inj hb
    refine ⟨⟨_, rfl⟩, ?_⟩
    rw [String.toList_ofList, dropSlashes_eq, dropSlashes_eq]
    exact List.rdropWhile_idempotent _ _

theorem apply_fixed_of_baseless (api url given : String) (hbase : t.base = "") :
    ((fixed api url given).apply t).2 = (t.target url).request := by
  have hrelative : isAbsolute t.base = false := by
    rw [hbase]
    rfl
  simp [apply, hrelative]

/-- A resolved template without a base address of its own is sent to that of the target. -/
theorem apply_eq (htarget : ofUrl api url name = .ok target) (hb : target.url = .ok b)
    (hquery : '?' ∉ b.toList) (hbase : t.base = "") (hresolved : t.resolved = true)
    {method : Method} (hmethod : t.method = some method) :
    ∃ request, (target.apply t).2 = .ok request ∧
      request.url = ({ t with base := b } : Template).url := by
  obtain ⟨⟨given, rfl⟩, hslash⟩ := fixed_of_ofUrl htarget hb
  have hrequest := request_of_resolved (t := { t with base := b }) hresolved hmethod
  rw [apply_fixed_of_baseless api b given hbase, target_of_base t hquery hslash, hrequest]
  exact ⟨_, rfl, rfl⟩

/--
Values cannot move a request off the base address. This is so for every path text that does
not begin with `http`, unless it begins with a placeholder. Then the path is what the value in
its place makes of it: one that is an address takes the place of the base, and every other one
comes directly after the base, so that a slash is needed for the request to stay below it.
-/
theorem apply_isBelow [Charsets] (htarget : ofUrl api url name = .ok target)
    (hb : target.url = .ok b)
    (hquery : '?' ∉ b.toList) {text : String} (htext : startsWith "http" text = false)
    (hbase : t.base = "") {method : Method} (hmethod : t.method = some method)
    (texts : Entries String String) :
    (t.bodyText = none → ∃ t', (t.uri text false).resolve (.ofTexts texts) = (t', none)) ∧
      ∀ t', (t.uri text false).resolve (.ofTexts texts) = (t', none) →
        ∃ request, (target.apply t').2 = .ok request ∧
          ((startsWith "\x7b" text = true → t'.path = "" ∨ startsWith "/" t'.path = true) →
            IsBelow b request.url) ∧
          (startsWith "http" t'.path = false → request.url = b ++ (t'.path ++ t'.querySuffix)) ∧
          (startsWith "http://" t'.path = true ∨ startsWith "https://" t'.path = true →
            request.url = t'.path ++ t'.querySuffix) := by
  constructor
  · intro hbody
    apply resolve_isResolved (Bindings.areTextual_ofTexts texts)
    rwa [uri_eq]
  intro t' hresolve
  have hdone := isResolved_of_resolve hresolve
  have hbase' : t'.base = "" := by
    rw [hdone.base, uri_eq, hbase]
  have hmethod' : t'.method = some method := by
    rw [hdone.method, uri_eq, hmethod]
  obtain ⟨request, hrequest, haddress⟩ := apply_eq htarget hb hquery hbase' hdone.resolved hmethod'
  refine ⟨request, hrequest, ?_⟩
  rw [haddress]
  refine ⟨?_, ?_, ?_⟩
  · intro hplaceholder
    have hpath : t'.path = "" ∨ startsWith "/" t'.path = true := by
      rcases path_of_resolve_uri hresolve htext with hempty | hslash | hbrace
      · exact Or.inl hempty
      · exact Or.inr hslash
      · exact hplaceholder hbrace
    exact isBelow_url (t := { t' with base := b }) hpath
  · exact url_of_relative (t := { t' with base := b })
  · intro hscheme
    refine url_of_absolute (t := { t' with base := b }) ?_
    rcases hscheme with hplain | hsecure
    · exact startsWith_trans (by decide) hplain
    · exact startsWith_trans (by decide) hsecure

open scoped CommonCharsets

theorem apply_isBelow_ofUser : ∃ t' request,
    (uri { method := some .get } "/users/\x7bid\x7d" false).resolve
        (.ofTexts [("id", "http://evil.test")]) = (t', none) ∧
      ((fixed "Api" "http://api.test" "http://api.test").apply t').2 = .ok request ∧
      IsBelow "http://api.test" request.url := by
  have htarget : ofUrl "Api" "http://api.test/" none =
      .ok (fixed "Api" "http://api.test" "http://api.test") := rfl
  have htext : startsWith "http" "/users/\x7bid\x7d" = false := rfl
  obtain ⟨hsome, hall⟩ := apply_isBelow (t := { method := some .get }) htarget rfl (by decide)
    htext rfl rfl [("id", "http://evil.test")]
  obtain ⟨t', hresolve⟩ := hsome rfl
  obtain ⟨request, hrequest, hbelow, -⟩ := hall t' hresolve
  exact ⟨t', request, hresolve, hrequest, hbelow (fun hbrace => by cases hbrace)⟩

/-- A path that is a placeholder becomes any address that its value is. -/
theorem not_isBelow_solePlaceholder : ∃ t' request,
    ofUrl "Api" "http://api.test" none = .ok (fixed "Api" "http://api.test" "http://api.test") ∧
      (uri { method := some .get } "\x7bp\x7d" false).resolve
        (.ofTexts [("p", "http://evil.test/x")]) = (t', none) ∧
      ((fixed "Api" "http://api.test" "http://api.test").apply t').2 = .ok request ∧
      request.url = "http://evil.test/x" ∧ ¬ IsBelow "http://api.test" request.url := by
  have hpieces : piecesOf "\x7bp\x7d" = [.slot ['p']] := by
    have hclose : Piece.closeName? ['p', '}'] = some (['p'], []) := rfl
    change Piece.ofChars ['{', 'p', '}'] = _
    rw [Piece.ofChars, hclose]
    simp [Piece.ofChars]
  have hpath : fill (.ofTexts [("p", "http://evil.test/x")]) (Percent.encodePath true)
      "\x7bp\x7d" = .ok "http://evil.test/x" := by
    unfold fill
    rw [hpieces]
    rfl
  have hresolve := resolve_of_path (t := uri { method := some .get } "\x7bp\x7d" false) hpath rfl rfl rfl
  refine ⟨_, _, rfl, hresolve, rfl, rfl, ?_⟩
  rintro ⟨rest, hrest, -⟩
  change "http://evil.test/x" = "http://api.test" ++ rest at hrest
  have hprefix : startsWith "http://api.test" "http://evil.test/x" = true := by
    rw [startsWith_iff, hrest, String.toList_append]
    exact List.prefix_append _ _
  revert hprefix
  decide

end Apply

end Target

end HttpBinding
