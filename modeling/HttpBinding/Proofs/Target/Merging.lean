import HttpBinding.Octets.Charset
import HttpBinding.Proofs.Target.Below
import HttpBinding.Proofs.Template.GappedTables
import HttpBinding.Proofs.Template.Literals

/-!
# A fixed target and its query

A fixed target takes the slashes from the end of its whole address, while a template that takes
over the same address takes them from what comes before the query. So the two make the same
request unless the query ends with slashes. Then its last part loses them at a fixed target: a
value is another one, and a bare name is written differently unless the query has both of its
spellings already.
-/

namespace HttpBinding

namespace Template

variable {t t' : Template} {queries : Queries} {query last : List Char} {before : List (List Char)}
  {name : String}

/-! ## Slashes at the end of a query -/

theorem cut_dropSlashes (address : List Char) :
    dropSlashes (Text.cut '?' (dropSlashes address)).1 = dropSlashes (Text.cut '?' address).1 ∧
      (Text.cut '?' (dropSlashes address)).2.getD [] =
        dropSlashes ((Text.cut '?' address).2.getD []) := by
  by_cases hmark : '?' ∈ address
  · obtain ⟨stem, query, rfl, hstem⟩ := List.eq_append_cons_of_mem hmark
    rw [dropSlashes_append (by decide), Text.cut_append hstem, Text.cut_append hstem]
    exact ⟨rfl, rfl⟩
  · rw [Text.cut_of_not_mem hmark, Text.cut_of_not_mem (not_mem_dropSlashes hmark)]
    refine ⟨?_, rfl⟩
    rw [dropSlashes_eq, dropSlashes_eq]
    exact List.rdropWhile_idempotent _ _

theorem exists_splitOn_concat (query : List Char) :
    ∃ before last, Text.splitOn '&' query = before ++ [last] :=
  ⟨_, _, (List.dropLast_append_getLast (Text.splitOn_ne_nil '&' query)).symm⟩

/-- Only the last part of a query loses slashes at its end. -/
theorem splitOn_dropSlashes (hsplit : Text.splitOn '&' query = before ++ [last]) :
    Text.splitOn '&' (dropSlashes query) = before ++ [dropSlashes last] := by
  have hmarks : ∀ part ∈ before ++ [last], '&' ∉ part := by
    rw [← hsplit]
    exact fun part hpart => Text.not_mem_of_mem_splitOn hpart
  have hquery : query = List.intercalate ['&'] (before ++ [last]) := by
    rw [← hsplit, ← Text.join_eq_intercalate, Text.join_splitOn]
  have hdropped : dropSlashes query = List.intercalate ['&'] (before ++ [dropSlashes last]) := by
    rw [hquery, Text.intercalate_concat, Text.intercalate_concat]
    split
    · rfl
    · rw [List.append_assoc, List.append_assoc]
      exact dropSlashes_append (by decide) _ _
  rw [hdropped]
  refine Text.splitOn_intercalate (by simp) ?_
  intro part hpart
  rcases List.mem_append.mp hpart with hbefore | hlast
  · exact hmarks part (List.mem_append_left _ hbefore)
  · rw [List.mem_singleton.mp hlast]
    exact not_mem_dropSlashes (hmarks last (List.mem_append_right _ (List.mem_singleton_self _)))

/-- The query parameters that parts are added to. -/
def addParts (parts : List (List Char)) (queries : Queries) : Queries :=
  addPairs ((parts.filter (!·.isEmpty)).map queryPair) queries

theorem addParts_concat (before : List (List Char)) (last : List Char) (queries : Queries) :
    addParts (before ++ [last]) queries =
      if last = [] then addParts before queries
      else (addParts before queries).extend (queryPair last).1 [(queryPair last).2] := by
  unfold addParts addPairs
  rw [List.filter_append, List.map_append, List.foldl_append]
  by_cases hempty : last = []
  · simp [hempty]
  · simp [hempty]

theorem addPairs_splitQuery (query : List Char) (queries : Queries) :
    addPairs (splitQuery query) queries = addParts (Text.splitOn '&' query) queries := rfl

/-! ## The text of the query -/

/-- The parts of the text of query parameters. -/
def partsOf (queries : Queries) : List String :=
  queries.flatMap fun entry => queryParts entry.1 entry.2

theorem toList_queryLine (t : Template) :
    t.queryLine.toList = List.intercalate ['&'] ((partsOf t.queries).map String.toList) :=
  String.toList_intercalate

/-- A bare name changes nothing about a parameter that is there, and is a part of its own otherwise. -/
theorem partsOf_extend_none (queries : Queries) (name : String) :
    partsOf (queries.extend name [none]) =
      if name ∈ queries.keys then partsOf queries else partsOf queries ++ [name] := by
  induction queries with
  | nil => rfl
  | cons entry rest ih =>
      obtain ⟨key, values⟩ := entry
      have hcons : ∀ (entry : String × List (Option String)) (rest : Queries),
          partsOf (entry :: rest) = queryParts entry.1 entry.2 ++ partsOf rest :=
        fun entry rest => List.flatMap_cons
      rw [Entries.extend, Entries.keys_cons]
      by_cases hkey : key = name
      · have hsame : queryParts name (values ++ [none]) = queryParts name values := by
          simp [queryParts]
        simp [hkey, hcons, hsame]
      · simp only [hkey, if_false, hcons, ih, List.mem_cons, Ne.symm hkey, false_or]
        split
        · rfl
        · rw [List.append_assoc]

/-- Values that are added to a parameter last are told apart by the text of the query. -/
theorem value_of_queryLine_eq {value value' : String} (ht : t.queries = queries.extend name [some value])
    (ht' : t'.queries = queries.extend name [some value']) (heq : t.queryLine = t'.queryLine) :
    value = value' := by
  -- The two are one table with a gap for the value.
  rw [← GappedQueries.plug_withGap] at ht ht'
  rw [queryLine_plug ht, queryLine_plug ht'] at heq
  exact Gapped.text_inj (GappedQueries.hasGap_withGap name queries).mem_line heq

/-- So are the values of parts that come last and have the same name. -/
theorem value_of_part {name value value' : List Char} (hname : '=' ∉ name)
    (ht : t.queries = addParts (before ++ [name ++ '=' :: value]) queries)
    (ht' : t'.queries = addParts (before ++ [name ++ '=' :: value']) queries)
    (heq : t.queryLine = t'.queryLine) : value = value' := by
  rw [addParts_concat, if_neg (by simp), queryPair_append hname] at ht ht'
  exact String.ofList_injective (value_of_queryLine_eq ht ht' heq)

/-- A part without a value is not written if there is nothing to it or its name is there already. -/
def IsIdle (queries : Queries) (part : List Char) : Prop :=
  part ≠ [] → String.ofList part ∈ queries.keys

theorem toList_queryLine_of_bare {part : List Char} (hbare : '=' ∉ part)
    (ht : t.queries = addParts (before ++ [part]) queries) :
    (IsIdle (addParts before queries) part → t.queryLine.toList =
        List.intercalate ['&'] ((partsOf (addParts before queries)).map String.toList)) ∧
      (¬ IsIdle (addParts before queries) part → t.queryLine.toList =
        List.intercalate ['&'] ((partsOf (addParts before queries)).map String.toList ++ [part])) := by
  rw [toList_queryLine, ht, addParts_concat, queryPair_of_bare hbare]
  by_cases hempty : part = []
  · simp [IsIdle, hempty]
  · simp only [IsIdle, hempty, if_false, partsOf_extend_none, ne_eq, not_false_eq_true, true_implies]
    refine ⟨fun hkey => by rw [if_pos hkey], fun hnew => ?_⟩
    rw [if_neg hnew, List.map_append, List.map_singleton, String.toList_ofList]

/-- Two bare names at the end of a query make the same text only if neither is written. -/
theorem queryLine_eq_iff_of_bare {part part' : List Char} (hbare : '=' ∉ part) (hbare' : '=' ∉ part')
    (hne : part ≠ part') (ht : t.queries = addParts (before ++ [part]) queries)
    (ht' : t'.queries = addParts (before ++ [part']) queries) :
    t.queryLine = t'.queryLine ↔
      IsIdle (addParts before queries) part ∧ IsIdle (addParts before queries) part' := by
  obtain ⟨hidle, hwritten⟩ := toList_queryLine_of_bare hbare ht
  obtain ⟨hidle', hwritten'⟩ := toList_queryLine_of_bare hbare' ht'
  have hsome : ∀ {part : List Char}, ¬ IsIdle (addParts before queries) part → part ≠ [] := by
    rintro part hother rfl
    exact hother fun habsurd => absurd rfl habsurd
  rw [← String.toList_inj]
  by_cases hfirst : IsIdle (addParts before queries) part
  · by_cases hsecond : IsIdle (addParts before queries) part'
    · simp [hidle hfirst, hidle' hsecond, hfirst, hsecond]
    · rw [hidle hfirst, hwritten' hsecond]
      have hlonger := Text.intercalate_concat_ne (hsome hsecond) ['&']
        ((partsOf (addParts before queries)).map String.toList)
      simp [hlonger.symm, hsecond]
  · by_cases hsecond : IsIdle (addParts before queries) part'
    · rw [hwritten hfirst, hidle' hsecond]
      have hlonger := Text.intercalate_concat_ne (hsome hfirst) ['&']
        ((partsOf (addParts before queries)).map String.toList)
      simp [hlonger, hfirst]
    · rw [hwritten hfirst, hwritten' hsecond]
      refine ⟨fun heq => absurd (Text.intercalate_concat_inj heq) hne, fun hboth => ?_⟩
      exact absurd hboth.1 hfirst

/--
Slashes at the end of a query are nothing to the parameters that it is added to: its last part
has none, or it is a bare name that is there with and without them.
-/
def SlashesAreIdle (queries : Queries) (query : List Char) : Prop :=
  ∃ before last, Text.splitOn '&' query = before ++ [last] ∧
    (dropSlashes last = last ∨ '=' ∉ last ∧ IsIdle (addParts before queries) last ∧
      IsIdle (addParts before queries) (dropSlashes last))

/-- A query has one last part only. -/
theorem slashesAreIdle_iff (hsplit : Text.splitOn '&' query = before ++ [last]) :
    SlashesAreIdle queries query ↔ (dropSlashes last = last ∨ '=' ∉ last ∧
      IsIdle (addParts before queries) last ∧ IsIdle (addParts before queries) (dropSlashes last)) := by
  refine ⟨?_, fun hidle => ⟨before, last, hsplit, hidle⟩⟩
  rintro ⟨before', last', hsplit', hidle⟩
  obtain ⟨rfl, hlast⟩ := List.append_inj' (hsplit.symm.trans hsplit') rfl
  obtain rfl := List.singleton_inj.mp hlast
  exact hidle

theorem slashesAreIdle_of_kept (hkept : dropSlashes query = query) (queries : Queries) :
    SlashesAreIdle queries query := by
  obtain ⟨before, last, hsplit⟩ := exists_splitOn_concat query
  have hdropped := splitOn_dropSlashes hsplit
  rw [hkept, hsplit] at hdropped
  have hlast := List.singleton_inj.mp (List.append_cancel_left hdropped)
  exact ⟨before, last, hsplit, .inl hlast.symm⟩

theorem queryLine_dropSlashes_iff (ht : t.queries = addPairs (splitQuery (dropSlashes query)) queries)
    (ht' : t'.queries = addPairs (splitQuery query) queries) :
    t.queryLine = t'.queryLine ↔ SlashesAreIdle queries query := by
  obtain ⟨before, last, hsplit⟩ := exists_splitOn_concat query
  rw [slashesAreIdle_iff hsplit]
  rw [addPairs_splitQuery, splitOn_dropSlashes hsplit] at ht
  rw [addPairs_splitQuery, hsplit] at ht'
  by_cases hkept : dropSlashes last = last
  · rw [hkept] at ht
    have hsame : t.queryLine = t'.queryLine := by
      rw [← String.toList_inj, toList_queryLine, toList_queryLine, ht, ht']
    simp [hsame, hkept]
  · by_cases hequals : '=' ∈ last
    · -- The last value loses its slashes.
      refine ⟨fun heq => ?_, fun hidle => absurd hequals (hidle.resolve_left hkept).1⟩
      obtain ⟨name, value, rfl, hname⟩ := List.eq_append_cons_of_mem hequals
      have hdropped := dropSlashes_append (c := '=') (by decide) name value
      rw [hdropped] at ht
      have hvalue := value_of_part hname ht ht' heq
      exact absurd (hdropped.trans (by rw [hvalue])) hkept
    · rw [queryLine_eq_iff_of_bare (not_mem_dropSlashes hequals) hequals hkept ht ht']
      simp only [hkept, hequals, not_false_eq_true, true_and, false_or, and_comm]

/-! ## Addresses that differ in their query -/

theorem querySuffix_inj : t.querySuffix = t'.querySuffix ↔ t.queryLine = t'.queryLine := by
  have hmark : ∀ query : String, "" ≠ "?" ++ query := by
    intro query heq
    have hchars := congrArg String.toList heq
    rw [String.toList_append] at hchars
    cases hchars
  unfold querySuffix
  simp only [String.isEmpty_iff]
  by_cases hempty : t.queryLine = ""
  · by_cases hempty' : t'.queryLine = ""
    · simp [hempty, hempty']
    · rw [if_pos hempty, if_neg hempty', hempty]
      exact iff_of_false (hmark _) (Ne.symm hempty')
  · by_cases hempty' : t'.queryLine = ""
    · rw [if_neg hempty, if_pos hempty', hempty']
      exact iff_of_false (hmark _).symm hempty
    · rw [if_neg hempty, if_neg hempty']
      exact String.append_right_inj "?"

theorem url_eq_iff_queryLine_eq (hbase : t.base = t'.base) (hpath : t.path = t'.path) :
    t.url = t'.url ↔ t.queryLine = t'.queryLine := by
  rw [url_eq, url_eq, hbase, hpath, String.append_right_inj, querySuffix_inj]

/-- An address that is without its slashes already is taken over as it was, its query apart. -/
theorem url_target_dropSlashes_iff (t : Template) (url : String) :
    (t.target (String.ofList (dropSlashes url.toList))).url = (t.target url).url ↔
      SlashesAreIdle t.queries ((Text.cut '?' url.toList).2.getD []) := by
  obtain ⟨hstem, hquery⟩ := cut_dropSlashes url.toList
  rw [url_eq_iff_queryLine_eq]
  · apply queryLine_dropSlashes_iff
    · rw [target_eq, String.toList_ofList, hquery]
    · rw [target_eq]
  · rw [target_eq, target_eq, String.toList_ofList, hstem]
  · rw [target_eq, target_eq]

end Template

namespace Target

open Template

variable {url : String} {t : Template}

theorem ofUrl_of_ne_empty (api : String) (name : Option String) (hurl : url ≠ "") : ∃ given,
    ofUrl api url name = .ok (fixed api (String.ofList (dropSlashes url.toList)) given) := by
  unfold ofUrl
  rw [if_neg (by simpa using hurl)]
  exact ⟨_, rfl⟩

theorem request_target_of_resolved (hresolved : t.resolved = true) {method : Method}
    (hmethod : t.method = some method) (url : String) :
    (t.target url).request = .ok ⟨method, (t.target url).url, t.headers, t.body, t.charset⟩ := by
  have htarget := target_eq t url
  rw [request_of_resolved (t := t.target url) (by rw [htarget, hresolved]) (by rw [htarget, hmethod])]
  rw [htarget]

/--
A fixed target makes the request that a resolved template makes below the same address, the
address of the request apart. This is the same too exactly if the slashes at the end of the
query are nothing to the parameters of the template, as they are if there are none.
-/
theorem apply_fixed_merges (api : String) (name : Option String) (hurl : url ≠ "") (hbase : t.base = "")
    (hresolved : t.resolved = true) {method : Method} (hmethod : t.method = some method) :
    ∃ target request merged, ofUrl api url name = .ok target ∧ (target.apply t).2 = .ok request ∧
      (t.target url).request = .ok merged ∧ request = { merged with url := request.url } ∧
      (request.url = merged.url ↔
        SlashesAreIdle t.queries ((Text.cut '?' url.toList).2.getD [])) := by
  obtain ⟨given, htarget⟩ := ofUrl_of_ne_empty api name hurl
  have hsent := request_target_of_resolved hresolved hmethod
  have happly := apply_fixed_of_baseless api (String.ofList (dropSlashes url.toList)) given hbase
  rw [hsent] at happly
  refine ⟨_, _, _, htarget, happly, hsent url, ?_, ?_⟩
  · dsimp only
  · dsimp only
    exact url_target_dropSlashes_iff t url

open scoped CommonCharsets

theorem apply_fixed_merges_ofKey : ∃ t target request merged,
    (({ method := some .get } : Template).uri "/x?key=0" false).resolve [] = (t, none) ∧
      ofUrl "Api" "http://api.test//?dir=/v1/&key=1" none = .ok target ∧
      (target.apply t).2 = .ok request ∧
      (t.target "http://api.test//?dir=/v1/&key=1").request = .ok merged ∧ request.url = merged.url := by
  have hresolve : ∃ t, (({ method := some .get } : Template).uri "/x?key=0" false).resolve [] =
      (t, none) :=
    resolve_isResolved (Bindings.areTextual_ofTexts []) (by decide +kernel)
  obtain ⟨t, hresolve⟩ := hresolve
  have hdone := isResolved_of_resolve hresolve
  have hurl : "http://api.test//?dir=/v1/&key=1" ≠ "" := by decide
  have hbase : t.base = "" := by
    rw [hdone.base, uri_eq]
  have hmethod : t.method = some .get := by
    rw [hdone.method, uri_eq]
  obtain ⟨target, request, merged, htarget, hrequest, hmerged, -, hsame⟩ :=
    apply_fixed_merges "Api" none hurl hbase hdone.resolved hmethod
  refine ⟨t, target, request, merged, hresolve, htarget, hrequest, hmerged, hsame.mpr ?_⟩
  exact slashesAreIdle_of_kept (by decide) t.queries

/-- A query that ends with a slash loses it at a fixed target only. -/
theorem apply_fixed_merges_without_slash : ∃ t target request merged,
    (({ method := some .get } : Template).uri "/x" false).resolve [] = (t, none) ∧ t.base = "" ∧
      ofUrl "Api" "http://api.test/?dir=/v1/" none = .ok target ∧
      (target.apply t).2 = .ok request ∧ request.url = "http://api.test/x?dir=/v1" ∧
      (t.target "http://api.test/?dir=/v1/").request = .ok merged ∧
      merged.url = "http://api.test/x?dir=/v1/" := by
  have hpath : fill [] (Percent.encodePath true) "/x" = .ok "/x" :=
    fill_of_no_placeholders (placeholders_of_no_brace (by decide))
  have hresolve := resolve_of_path (t := ({ method := some .get } : Template).uri "/x" false)
    hpath rfl rfl rfl
  exact ⟨_, _, _, _, hresolve, rfl, rfl, rfl, by decide +kernel, rfl, by decide +kernel⟩

end Target

end HttpBinding
