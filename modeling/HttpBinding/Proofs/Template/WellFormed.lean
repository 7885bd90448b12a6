import HttpBinding.Octets.Charset
import HttpBinding.Proofs.Entries
import HttpBinding.Proofs.Template.Resolving
import Mathlib.Data.List.DropRight

/-!
# Templates are well formed

Looking up a name finds the right entry only as long as no two entries share it, and a
body is read off a template only as long as there are not two of them. This module
names what holds of every template that is reached from a fresh one: no entry without
values, no name twice, at most one body, and a base address and a path that a query
can be appended to. It is shown of each operation, including those that fail halfway,
and from there of every sequence of operations.
-/

namespace HttpBinding.Template

/-- What a header name is told from others by. -/
def foldedName (name : String) : List Char :=
  Text.lower name.toList

/-- What holds of a template at all times. -/
structure IsWellFormed (t : Template) : Prop where
  queryValues : ∀ entry ∈ t.queries, entry.2 ≠ []
  queryNames : t.queries.keys.Nodup
  headerValues : ∀ entry ∈ t.headers, entry.2 ≠ []
  headerNames : (t.headers.map fun entry => foldedName entry.1).Nodup
  body : t.body = none ∨ t.bodyText = none
  base_query : '?' ∉ t.base.toList
  base_slash : t.base.toList.getLast? ≠ some '/'
  path_query : '?' ∉ t.path.toList

/-! ## Addresses -/

theorem uri_eq (t : Template) (text : String) (append : Bool) :
    t.uri text append =
      { t with
        path := (if append then t.path else "") ++ rooted (String.ofList (Text.cut '?' text.toList).1)
        queries := addPairs (splitQuery ((Text.cut '?' text.toList).2.getD [])) t.queries } := by
  unfold uri
  cases Text.cut '?' text.toList
  cases append <;> simp

theorem target_eq (t : Template) (url : String) :
    t.target url =
      { t with
        base := String.ofList (dropSlashes (Text.cut '?' url.toList).1)
        queries := addPairs (splitQuery ((Text.cut '?' url.toList).2.getD [])) t.queries } := by
  unfold target
  cases Text.cut '?' url.toList
  rfl

theorem dropSlashes_eq (text : List Char) : dropSlashes text = text.rdropWhile (· == '/') := rfl

theorem getLast?_dropSlashes (text : List Char) : (dropSlashes text).getLast? ≠ some '/' := by
  rw [dropSlashes_eq]
  intro hlast
  obtain ⟨hne, heq⟩ := List.mem_getLast?_eq_getLast hlast
  have hslash := List.rdropWhile_last_not (· == '/') text hne
  exact hslash (by simp [← heq])

theorem not_mem_dropSlashes {text : List Char} {c : Char} (hc : c ∉ text) : c ∉ dropSlashes text := by
  intro hmem
  rw [dropSlashes_eq] at hmem
  exact hc ((List.rdropWhile_prefix _ text).subset hmem)

theorem not_mem_rooted {path : String} (hpath : '?' ∉ path.toList) : '?' ∉ (rooted path).toList := by
  unfold rooted
  split
  · exact hpath
  · simpa using hpath

/-- What is put into a path is encoded, and the mark is escaped there. -/
theorem not_mem_filled_path {bindings : Bindings} {decodeSlash : Bool} {path filled : String}
    (hpath : '?' ∉ path.toList)
    (hfill : fill bindings (Percent.encodePath decodeSlash) path = .ok filled) :
    '?' ∉ filled.toList := by
  intro hmark
  rcases mem_of_fill hfill hmark with hmem | hcomma | ⟨s, hmem⟩
  · exact hpath hmem
  · simp at hcomma
  · have hsafe : Percent.isPathSafe decodeSlash '?' = false := by cases decodeSlash <;> rfl
    exact Percent.not_mem_encodePath hsafe (by decide) rfl s hmem

/-! ## Queries -/

section Queries

variable {queries : Queries} {name : String} {values : List (Option String)}

theorem queryValues_extend (hqueries : ∀ entry ∈ queries, entry.2 ≠ []) (hvalues : values ≠ []) :
    ∀ entry ∈ queries.extend name values, entry.2 ≠ [] := by
  intro entry hentry
  rcases Entries.mem_extend hentry with hold | rfl | ⟨old, hold, rfl⟩
  · exact hqueries entry hold
  · exact hvalues
  · simp [hvalues]

theorem queryValues_addPairs (pairs : List (String × Option String))
    (hqueries : ∀ entry ∈ queries, entry.2 ≠ []) :
    ∀ entry ∈ addPairs pairs queries, entry.2 ≠ [] := by
  induction pairs generalizing queries with
  | nil => exact hqueries
  | cons pair rest ih => exact ih (queryValues_extend hqueries (List.cons_ne_nil _ _))

theorem queryNames_addPairs (pairs : List (String × Option String)) (hqueries : queries.keys.Nodup) :
    (addPairs pairs queries).keys.Nodup := by
  induction pairs generalizing queries with
  | nil => exact hqueries
  | cons pair rest ih => exact ih (Entries.nodup_keys_extend hqueries)

theorem queryValues_query {t : Template} (hqueries : ∀ entry ∈ t.queries, entry.2 ≠ []) :
    ∀ entry ∈ (t.query name values).queries, entry.2 ≠ [] := by
  intro entry hentry
  unfold query at hentry
  dsimp only at hentry
  split at hentry
  · split at hentry
    · exact hqueries entry hentry
    next hvalues =>
      rcases Entries.mem_put hentry with hold | rfl
      · exact hqueries entry hold
      · simpa using hvalues
  · split at hentry
    · exact hqueries entry ((Entries.erase_sublist _ _).mem hentry)
    next hvalues =>
      have hne : values ≠ [] := by simpa using hvalues
      split at hentry
      · rcases Entries.mem_put hentry with hold | rfl
        · exact hqueries entry hold
        · exact hne
      · -- The table is built anew with the entry renamed, and nothing else is put into it.
        obtain ⟨old, hold, rfl⟩ := List.mem_map.mp (Entries.mem_of_mem_ofPairs hentry)
        split
        · exact hne
        · exact hqueries old hold

theorem queryNames_query {t : Template} (hqueries : t.queries.keys.Nodup) :
    (t.query name values).queries.keys.Nodup := by
  unfold query
  dsimp only
  split
  · split
    · exact hqueries
    · exact Entries.nodup_keys_put hqueries
  · split
    · exact ((Entries.erase_sublist _ _).map Prod.fst).nodup hqueries
    · split
      · exact Entries.nodup_keys_put hqueries
      · exact Entries.nodup_keys_ofPairs _

/-- Resolved parameters are added to those before them, and each of them with a value. -/
theorem resolveQueriesFrom_wellFormed {t : Template} {bindings : Bindings} {done resolved : Queries}
    (hresolved : t.resolveQueriesFrom bindings done queries = .ok resolved)
    (hvalues : ∀ entry ∈ done, entry.2 ≠ []) (hnames : done.keys.Nodup) :
    (∀ entry ∈ resolved, entry.2 ≠ []) ∧ resolved.keys.Nodup := by
  induction queries generalizing done with
  | nil =>
      obtain rfl := Except.ok.inj hresolved
      exact ⟨hvalues, hnames⟩
  | cons entry rest ih =>
      rcases resolveQueriesFrom_step hresolved with ⟨name, filled, -, -, -, hrest⟩ | ⟨-, hrest⟩
      · refine ih hrest (queryValues_extend hvalues ?_) (Entries.nodup_keys_extend hnames)
        split
        · exact List.cons_ne_nil _ _
        next hfilled => exact hfilled
      · exact ih hrest hvalues hnames

end Queries

/-! ## Headers -/

section Headers

variable {t : Template} {headers : Headers} {name : String} {values : List String}

theorem sameName_eq (a b : String) : Text.sameName a b = decide (foldedName a = foldedName b) := by
  rw [Bool.eq_iff_iff, decide_eq_true_iff]
  exact beq_iff_eq

theorem headerKey?_eq (headers : Headers) (name : String) :
    headerKey? headers name =
      (headers.find? fun entry => decide (foldedName entry.1 = foldedName name)).map Prod.fst := by
  simp only [headerKey?, sameName_eq]

theorem map_foldedName (headers : Headers) :
    (headers.map fun entry => foldedName entry.1) = headers.keys.map foldedName := by
  simp [Entries.keys]

/-- Setting a header leaves the other headers, and puts its values after them. -/
theorem headers_header (hnames : (t.headers.map fun entry => foldedName entry.1).Nodup) :
    (t.header name values).headers =
      (t.headers.filter fun entry => foldedName entry.1 ≠ foldedName name) ++
        if values.isEmpty then [] else [(name, values)] := by
  have hnew : name ∉ Entries.keys
      (t.headers.filter fun entry => foldedName entry.1 ≠ foldedName name) := by
    simp [Entries.keys]
  have hset : ∀ others : Headers,
      others = t.headers.filter (fun entry => foldedName entry.1 ≠ foldedName name) →
      (if values.isEmpty then others else others.put name values) =
        (t.headers.filter fun entry => foldedName entry.1 ≠ foldedName name) ++
          if values.isEmpty then [] else [(name, values)] := by
    rintro others rfl
    split
    · rw [List.append_nil]
    · exact Entries.put_of_not_mem hnew
  unfold header
  dsimp only
  rw [headerKey?_eq]
  cases hfound : t.headers.find? fun entry => decide (foldedName entry.1 = foldedName name) with
  | none =>
      refine hset t.headers (List.filter_eq_self.mpr ?_).symm
      simpa using hfound
  | some found => exact hset _ (Entries.erase_of_find? hnames hfound)

theorem headerNames_append (hnames : (headers.map fun entry => foldedName entry.1).Nodup)
    (hnew : ∀ entry ∈ headers, foldedName entry.1 ≠ foldedName name) :
    ((headers ++ [(name, values)]).map fun entry => foldedName entry.1).Nodup := by
  rw [List.map_append, List.nodup_append]
  refine ⟨hnames, by simp, ?_⟩
  intro a ha b hb
  obtain ⟨entry, hentry, rfl⟩ := List.mem_map.mp ha
  obtain rfl : b = foldedName name := by simpa using hb
  exact hnew entry hentry

theorem headerNames_header (hnames : (t.headers.map fun entry => foldedName entry.1).Nodup) :
    ((t.header name values).headers.map fun entry => foldedName entry.1).Nodup := by
  have hothers : ((t.headers.filter fun entry => foldedName entry.1 ≠ foldedName name).map
      fun entry => foldedName entry.1).Nodup := (List.filter_sublist.map _).nodup hnames
  rw [headers_header hnames]
  split
  · rwa [List.append_nil]
  · refine headerNames_append hothers ?_
    intro entry hentry
    simpa using (List.mem_filter.mp hentry).2

theorem headerValues_header (hnames : (t.headers.map fun entry => foldedName entry.1).Nodup)
    (hvalues : ∀ entry ∈ t.headers, entry.2 ≠ []) :
    ∀ entry ∈ (t.header name values).headers, entry.2 ≠ [] := by
  rw [headers_header hnames]
  intro entry hentry
  rcases List.mem_append.mp hentry with hold | hnew
  · exact hvalues entry (List.mem_of_mem_filter hold)
  · split at hnew
    · simp at hnew
    next hne =>
      rw [List.mem_singleton.mp hnew]
      simpa using hne

/-- Appending to a header changes its values, or puts a header after the others. -/
theorem headers_addHeader (t : Template) (name : String) (values : List String) :
    values = [] ∧ (t.addHeader name values).headers = t.headers ∨ values ≠ [] ∧
      ((∃ entry ∈ t.headers, foldedName entry.1 = foldedName name ∧
          (t.addHeader name values).headers = t.headers.extend entry.1 values) ∨
        (∀ entry ∈ t.headers, foldedName entry.1 ≠ foldedName name) ∧
          (t.addHeader name values).headers = t.headers ++ [(name, values)]) := by
  unfold addHeader
  split
  next hvalues => exact Or.inl ⟨by simpa using hvalues, rfl⟩
  next hvalues =>
    refine Or.inr ⟨by simpa using hvalues, ?_⟩
    rw [headerKey?_eq]
    cases hfound : t.headers.find? fun entry => decide (foldedName entry.1 = foldedName name) with
    | some found =>
        exact Or.inl ⟨found, List.mem_of_find?_eq_some hfound,
          by simpa using List.find?_some hfound, rfl⟩
    | none =>
        have hnew : ∀ entry ∈ t.headers, foldedName entry.1 ≠ foldedName name := by
          simpa using hfound
        have hkey : name ∉ t.headers.keys := by
          intro hmem
          obtain ⟨entry, hentry, hname⟩ := List.mem_map.mp hmem
          exact hnew entry hentry (by rw [hname])
        exact Or.inr ⟨hnew, Entries.put_of_not_mem hkey⟩

theorem addHeader_eq (t : Template) (name : String) (values : List String) :
    t.addHeader name values = { t with headers := (t.addHeader name values).headers } := by
  unfold addHeader
  split
  · rfl
  · split <;> rfl

theorem headerNames_addHeader (hnames : (t.headers.map fun entry => foldedName entry.1).Nodup) :
    ((t.addHeader name values).headers.map fun entry => foldedName entry.1).Nodup := by
  rcases headers_addHeader t name values with
    ⟨-, hsame⟩ | ⟨-, ⟨entry, hentry, -, hextended⟩ | ⟨hnew, hput⟩⟩
  · rwa [hsame]
  · -- The names are those from before, since the name that is extended is one of them.
    have hkey : entry.1 ∈ t.headers.keys := List.mem_map_of_mem hentry
    have hkeys : (t.headers.extend entry.1 values).keys = t.headers.keys := by
      rw [Entries.keys_extend, if_pos hkey]
    rw [hextended, map_foldedName, hkeys, ← map_foldedName]
    exact hnames
  · rw [hput]
    exact headerNames_append hnames hnew

theorem headerValues_addHeader (hvalues : ∀ entry ∈ t.headers, entry.2 ≠ []) :
    ∀ entry ∈ (t.addHeader name values).headers, entry.2 ≠ [] := by
  intro entry hentry
  rcases headers_addHeader t name values with
    ⟨-, hsame⟩ | ⟨hne, ⟨found, -, -, hextended⟩ | ⟨-, hput⟩⟩
  · exact hvalues entry (hsame ▸ hentry)
  · rw [hextended] at hentry
    rcases Entries.mem_extend hentry with hold | rfl | ⟨old, -, rfl⟩
    · exact hvalues entry hold
    · exact hne
    · simp [hne]
  · rw [hput] at hentry
    rcases List.mem_append.mp hentry with hold | hnew
    · exact hvalues entry hold
    · rwa [List.mem_singleton.mp hnew]

/-- Resolving keeps header names as they are and leaves out those without values. -/
theorem resolveHeaders_wellFormed {bindings : Bindings} {resolved : Headers}
    (hresolved : resolveHeaders bindings headers = .ok resolved) :
    (∀ entry ∈ resolved, entry.2 ≠ []) ∧ resolved.keys.Sublist headers.keys := by
  induction headers generalizing resolved with
  | nil =>
      obtain rfl := Except.ok.inj hresolved
      simp
  | cons entry rest ih =>
      rw [resolveHeaders] at hresolved
      obtain ⟨filled, -, hresolved⟩ := bind_eq_ok.mp hresolved
      obtain ⟨others, hothers, hresolved⟩ := bind_eq_ok.mp hresolved
      obtain ⟨hvalues, hnames⟩ := ih hothers
      obtain rfl := Except.ok.inj hresolved
      split
      · exact ⟨hvalues, hnames.cons entry.1⟩
      next hfilled =>
        refine ⟨?_, hnames.cons_cons entry.1⟩
        intro e he
        rcases List.mem_cons.mp he with rfl | hrest
        · simpa using hfilled
        · exact hvalues e hrest

end Headers

/-! ## Operations -/

/-- What can be done to a template. -/
inductive Operation where
  | configure (method : Option Method) (charset : String) (decodeSlash : Bool)
      (format : CollectionFormat)
  | uri (text : String) (append : Bool)
  | target (url : String)
  | query (name : String) (values : List (Option String))
  | header (name : String) (values : List String)
  | addHeader (name : String) (values : List String)
  | body (octets : Option Octets) (charset : Option String)
  | bodyOfText (text : String) (charset : Option String)
  | bodyTemplate (text : String)
  | resolve (bindings : Bindings)
  /-- Goes on with a copy, which shares nothing with the template and has all its values. -/
  | copy

/-- The template that an operation leaves behind, and the fault that it ends with if it fails. -/
def perform [Charsets] (t : Template) : Operation → Template × Option Fault
  | .configure method charset decodeSlash format =>
      ({ t with method := method, charset := charset, decodeSlash := decodeSlash, format := format },
        none)
  | .uri text append => (t.uri text append, none)
  | .target url => (t.target url, none)
  | .query name values => (t.query name values, none)
  | .header name values => (t.header name values, none)
  | .addHeader name values => (t.addHeader name values, none)
  | .body octets charset => ((t.withCharset charset).setBody octets, none)
  | .bodyOfText text charset => (t.withCharset charset).setBodyText text
  | .bodyTemplate text => (t.setBodyTemplate text, none)
  | .resolve bindings => t.resolve bindings
  | .copy => (t, none)

/-- The template after a number of operations. One that fails does not end the sequence. -/
def performAll [Charsets] (t : Template) (operations : List Operation) : Template :=
  operations.foldl (fun t operation => (t.perform operation).1) t

section Operations

variable {t : Template}

theorem isWellFormed_fresh : IsWellFormed {} where
  queryValues := by simp
  queryNames := List.nodup_nil
  headerValues := by simp
  headerNames := List.nodup_nil
  body := Or.inl rfl
  base_query := by simp
  base_slash := by simp
  path_query := by simp

theorem isWellFormed_uri (ht : IsWellFormed t) (text : String) (append : Bool) :
    IsWellFormed (t.uri text append) := by
  have hcut : '?' ∉ (String.ofList (Text.cut '?' text.toList).1).toList := by
    rw [String.toList_ofList]
    exact Text.not_mem_cut_fst '?' text.toList
  have hbefore : '?' ∉ (if append then t.path else "").toList := by
    cases append with
    | false => simp
    | true => exact ht.path_query
  rw [uri_eq]
  refine { ht with
    queryValues := queryValues_addPairs _ ht.queryValues
    queryNames := queryNames_addPairs _ ht.queryNames
    path_query := ?_ }
  rw [String.toList_append, List.mem_append, not_or]
  exact ⟨hbefore, not_mem_rooted hcut⟩

theorem isWellFormed_target (ht : IsWellFormed t) (url : String) : IsWellFormed (t.target url) := by
  rw [target_eq]
  refine { ht with
    queryValues := queryValues_addPairs _ ht.queryValues
    queryNames := queryNames_addPairs _ ht.queryNames
    base_query := ?_
    base_slash := ?_ }
  · rw [String.toList_ofList]
    exact not_mem_dropSlashes (Text.not_mem_cut_fst '?' url.toList)
  · rw [String.toList_ofList]
    exact getLast?_dropSlashes _

theorem isWellFormed_withCharset (ht : IsWellFormed t) (charset : Option String) :
    IsWellFormed (t.withCharset charset) := by
  unfold withCharset
  split
  · split
    · exact ht
    · exact { ht with }
  · exact ht

theorem isWellFormed_setBodyText [Charsets] (ht : IsWellFormed t) (text : String) :
    IsWellFormed (t.setBodyText text).1 := by
  unfold setBodyText
  split
  · exact { ht with body := Or.inr rfl }
  · exact ht

@[simp]
theorem resolved_withCharset (t : Template) (charset : Option String) :
    (t.withCharset charset).resolved = t.resolved := by
  unfold withCharset
  split
  · split <;> rfl
  · rfl

@[simp]
theorem resolved_setBodyText [Charsets] (t : Template) (text : String) :
    (t.setBodyText text).1.resolved = t.resolved := by
  unfold setBodyText
  split <;> rfl

/-- Resolving keeps a template well formed also where it stops before the end. -/
theorem isWellFormed_resolve [Charsets] (ht : IsWellFormed t) (bindings : Bindings) :
    IsWellFormed (t.resolve bindings).1 := by
  have hresolution := isResolution_resolve t bindings
  generalize (t.resolve bindings).1 = t' at hresolution ⊢
  -- Wherever resolving stops, each part is as it was or resolved as a whole.
  obtain ⟨hbase, hpath, hqueries, hheaders, hbody, -⟩ := hresolution
  have hpath_query : '?' ∉ t'.path.toList := by
    rcases hpath with hpath | hfill
    · rw [hpath]
      exact ht.path_query
    · exact not_mem_filled_path ht.path_query hfill
  have hqueries' : (∀ entry ∈ t'.queries, entry.2 ≠ []) ∧ t'.queries.keys.Nodup := by
    rcases hqueries with hqueries | ⟨u, hresolved⟩
    · rw [hqueries]
      exact ⟨ht.queryValues, ht.queryNames⟩
    · exact resolveQueriesFrom_wellFormed hresolved (by simp) List.nodup_nil
  have hheaders' : (∀ entry ∈ t'.headers, entry.2 ≠ []) ∧
      (t'.headers.map fun entry => foldedName entry.1).Nodup := by
    rcases hheaders with hheaders | hresolved
    · rw [hheaders]
      exact ⟨ht.headerValues, ht.headerNames⟩
    · obtain ⟨hvalues, hnames⟩ := resolveHeaders_wellFormed hresolved
      refine ⟨hvalues, ?_⟩
      have hfolded := (hnames.map foldedName).nodup
      simp only [Entries.keys, List.map_map] at hfolded
      exact hfolded ht.headerNames
  refine ⟨hqueries'.1, hqueries'.2, hheaders'.1, hheaders'.2, ?_, ?_, ?_, hpath_query⟩
  · rcases hbody with ⟨hbody, htext⟩ | htext
    · rw [hbody, htext]
      exact ht.body
    · exact Or.inr htext
  · rw [hbase]
    exact ht.base_query
  · rw [hbase]
    exact ht.base_slash

theorem isWellFormed_perform [Charsets] (ht : IsWellFormed t) (operation : Operation) :
    IsWellFormed (t.perform operation).1 := by
  cases operation with
  | configure method charset decodeSlash format => exact { ht with }
  | uri text append => exact isWellFormed_uri ht text append
  | target url => exact isWellFormed_target ht url
  | query name values =>
      exact { ht with
        queryValues := queryValues_query ht.queryValues
        queryNames := queryNames_query ht.queryNames }
  | header name values =>
      exact { ht with
        headerValues := headerValues_header ht.headerNames ht.headerValues
        headerNames := headerNames_header ht.headerNames }
  | addHeader name values =>
      change IsWellFormed (t.addHeader name values)
      rw [addHeader_eq]
      exact { ht with
        headerValues := headerValues_addHeader ht.headerValues
        headerNames := headerNames_addHeader ht.headerNames }
  | body octets charset => exact { isWellFormed_withCharset ht charset with body := Or.inr rfl }
  | bodyOfText text charset => exact isWellFormed_setBodyText (isWellFormed_withCharset ht charset) text
  | bodyTemplate text => exact { ht with body := Or.inl rfl }
  | resolve bindings => exact isWellFormed_resolve ht bindings
  | copy => exact ht

/-- No operation takes back that a template was resolved. -/
theorem resolved_perform [Charsets] (hresolved : t.resolved = true) (operation : Operation) :
    (t.perform operation).1.resolved = true := by
  cases operation with
  | addHeader name values =>
      change (t.addHeader name values).resolved = true
      rw [addHeader_eq]
      exact hresolved
  | body octets charset =>
      change (t.withCharset charset).resolved = true
      rw [resolved_withCharset]
      exact hresolved
  | bodyOfText text charset =>
      change ((t.withCharset charset).setBodyText text).1.resolved = true
      rw [resolved_setBodyText, resolved_withCharset]
      exact hresolved
  | resolve bindings =>
      rcases (isResolution_resolve t bindings).resolved with hkept | hset
      · exact hkept.trans hresolved
      · exact hset
  | _ => exact hresolved

theorem isWellFormed_performAll [Charsets] (ht : IsWellFormed t) (operations : List Operation) :
    IsWellFormed (t.performAll operations) := by
  induction operations generalizing t with
  | nil => exact ht
  | cons operation rest ih => exact ih (isWellFormed_perform ht operation)

theorem resolved_performAll [Charsets] (hresolved : t.resolved = true)
    (operations : List Operation) :
    (t.performAll operations).resolved = true := by
  induction operations generalizing t with
  | nil => exact hresolved
  | cons operation rest ih => exact ih (resolved_perform hresolved operation)

/--
Whatever is done to a fresh template, and whatever of it fails, the template is well
formed; and once it is resolved it stays so.
-/
theorem performAll_fresh [Charsets] (operations : List Operation) :
    IsWellFormed (performAll {} operations) ∧
      ∀ later, (performAll {} operations).resolved = true →
        (performAll {} (operations ++ later)).resolved = true := by
  refine ⟨isWellFormed_performAll isWellFormed_fresh operations, ?_⟩
  intro later hresolved
  have happend : performAll {} (operations ++ later) =
      (performAll {} operations).performAll later := List.foldl_append
  rw [happend]
  exact resolved_performAll hresolved later

open scoped CommonCharsets

/-- A template that is resolved for a user, and again with octets that are no text. -/
theorem performAll_fresh_resolvedTwice :
    (performAll {} [.uri "/users/\x7bid\x7d" false, .resolve [("id", .text "7")]]).resolved = true ∧
      (performAll {} ([.uri "/users/\x7bid\x7d" false, .resolve [("id", .text "7")]] ++
        [.bodyTemplate "\x7bid\x7d", .resolve [("id", .octets [255])]])).resolved = true := by
  have hresolved : (performAll {} [.uri "/users/\x7bid\x7d" false,
      .resolve [("id", .text "7")]]).resolved = true := by
    obtain ⟨t', hresolve⟩ := resolve_isResolved (t := uri {} "/users/\x7bid\x7d" false)
      (Bindings.areTextual_ofTexts [("id", "7")]) rfl
    change ((uri {} "/users/\x7bid\x7d" false).resolve
      (Bindings.ofTexts [("id", "7")])).1.resolved = true
    rw [hresolve]
    exact (isResolved_of_resolve hresolve).resolved
  exact ⟨hresolved, (performAll_fresh _).2 _ hresolved⟩

end Operations

end HttpBinding.Template
