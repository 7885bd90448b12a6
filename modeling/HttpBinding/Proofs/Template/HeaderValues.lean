import HttpBinding.Plan.Filling
import HttpBinding.Proofs.Template.Resolving
import HttpBinding.Proofs.Template.WellFormed

/-!
# The values of a header

No two header names of a template are the same without regard to case, so that a header
is found whatever its spelling. Setting a header gives it its values in place of those from
before, adding to it gives it more of them, and resolving resolves them; other headers
have the values that they had.
-/

namespace HttpBinding.Template

/-- The values of all headers that are named alike without regard to case. -/
def valuesUnder (name : String) (headers : Headers) : List String :=
  (headers.filter fun entry => foldedName entry.1 = foldedName name).flatMap Prod.snd

variable {t : Template} {headers : Headers} {bindings : Bindings} {name key : String}
  {values : List String}

@[simp]
theorem valuesUnder_nil (name : String) : valuesUnder name [] = [] := rfl

theorem valuesUnder_cons (name : String) (entry : String × List String) (rest : Headers) :
    valuesUnder name (entry :: rest) =
      (if foldedName entry.1 = foldedName name then entry.2 else []) ++ valuesUnder name rest := by
  by_cases hsame : foldedName entry.1 = foldedName name
  · simp [valuesUnder, hsame]
  · simp [valuesUnder, hsame]

theorem valuesUnder_append (name : String) (headers later : Headers) :
    valuesUnder name (headers ++ later) = valuesUnder name headers ++ valuesUnder name later := by
  simp [valuesUnder]

theorem valuesUnder_of_other (hother : ∀ entry ∈ headers, foldedName entry.1 ≠ foldedName name) :
    valuesUnder name headers = [] := by
  unfold valuesUnder
  rw [List.filter_eq_nil_iff.mpr (by simpa using hother)]
  rfl

/-! ## Reading -/

theorem headerValues_congr {t' : Template} (hheaders : t'.headers = t.headers) (name : String) :
    t'.headerValues name = t.headerValues name := by
  unfold headerValues
  rw [hheaders]

section Distinct

variable (hnames : (t.headers.map fun entry => foldedName entry.1).Nodup)

include hnames

theorem headerValues_eq (name : String) : t.headerValues name = valuesUnder name t.headers := by
  unfold headerValues
  rw [headerKey?_eq]
  cases hfound : t.headers.find? fun entry => decide (foldedName entry.1 = foldedName name) with
  | none =>
      have hother : ∀ entry ∈ t.headers, foldedName entry.1 ≠ foldedName name := by
        simpa using hfound
      rw [valuesUnder_of_other hother]
      rfl
  | some found =>
      have hmem : found ∈ t.headers := List.mem_of_find?_eq_some hfound
      have hsame : foldedName found.1 = foldedName name := by simpa using List.find?_some hfound
      have honly := Entries.filter_of_mem hnames hmem
      rw [hsame] at honly
      have hlookup : t.headers.lookup found.1 = some found.2 :=
        (Entries.lookup_eq_some_iff (Entries.nodup_keys_of_meanings hnames)).mpr hmem
      unfold valuesUnder
      rw [honly]
      simp [hlookup]

/-! ## Setting and adding -/

theorem headerValues_of_header (name : String) (values : List String) (other : String) :
    (t.header name values).headerValues other =
      if foldedName name = foldedName other then values else t.headerValues other := by
  rw [headerValues_eq (headerNames_header hnames), headerValues_eq hnames, headers_header hnames,
    valuesUnder_append]
  have hset : valuesUnder other (if values.isEmpty then [] else [(name, values)]) =
      if foldedName name = foldedName other then values else [] := by
    cases values with
    | nil => simp
    | cons => simp [valuesUnder_cons]
  rw [hset]
  by_cases hsame : foldedName name = foldedName other
  · have hothers : valuesUnder other
        (t.headers.filter fun entry => foldedName entry.1 ≠ foldedName name) = [] := by
      apply valuesUnder_of_other
      intro entry hentry
      simpa [hsame] using (List.mem_filter.mp hentry).2
    rw [hothers, if_pos hsame, if_pos hsame, List.nil_append]
  · have hkept : valuesUnder other
        (t.headers.filter fun entry => foldedName entry.1 ≠ foldedName name) =
          valuesUnder other t.headers := by
      unfold valuesUnder
      rw [List.filter_filter]
      congr 1
      apply List.filter_congr
      intro entry _
      by_cases hentry : foldedName entry.1 = foldedName other
      · simp [hentry, Ne.symm hsame]
      · simp [hentry]
    rw [hkept, if_neg hsame, if_neg hsame, List.append_nil]

omit hnames in
theorem valuesUnder_extend (hnames : (headers.map fun entry => foldedName entry.1).Nodup)
    (key : String) (values : List String) (name : String) :
    valuesUnder name (headers.extend key values) =
      valuesUnder name headers ++ if foldedName key = foldedName name then values else [] := by
  induction headers with
  | nil => simp [Entries.extend, valuesUnder_cons]
  | cons entry rest ih =>
      obtain ⟨k, old⟩ := entry
      obtain ⟨hfirst, hnames⟩ := List.nodup_cons.mp hnames
      rw [Entries.extend]
      split
      next hk =>
        subst hk
        rw [valuesUnder_cons, valuesUnder_cons]
        by_cases hsame : foldedName k = foldedName name
        · have hrest : valuesUnder name rest = [] := by
            apply valuesUnder_of_other
            intro entry hentry heq
            exact hfirst (List.mem_map.mpr ⟨entry, hentry, heq.trans hsame.symm⟩)
          simp [hsame, hrest]
        · simp [hsame]
      next => rw [valuesUnder_cons, valuesUnder_cons, ih hnames, List.append_assoc]

theorem headerValues_of_addHeader (name : String) (values : List String) (other : String) :
    (t.addHeader name values).headerValues other =
      t.headerValues other ++ if foldedName name = foldedName other then values else [] := by
  rw [headerValues_eq (headerNames_addHeader hnames), headerValues_eq hnames]
  rcases headers_addHeader t name values with
    ⟨hnone, hsame⟩ | ⟨-, ⟨found, -, hfolded, hextended⟩ | ⟨-, hput⟩⟩
  · rw [hsame, hnone, ite_self, List.append_nil]
  · rw [hextended, valuesUnder_extend hnames, hfolded]
  · rw [hput, valuesUnder_append, valuesUnder_cons, valuesUnder_nil, List.append_nil]

/-- A header that is there has a value. -/
theorem headerValues_eq_nil_iff (hvalues : ∀ entry ∈ t.headers, entry.2 ≠ []) :
    t.headerValues name = [] ↔ ∀ entry ∈ t.headers, foldedName entry.1 ≠ foldedName name := by
  rw [headerValues_eq hnames]
  constructor
  · intro hnone entry hentry hsame
    unfold valuesUnder at hnone
    rw [List.flatMap_eq_nil_iff] at hnone
    exact hvalues entry hentry (hnone entry (List.mem_filter.mpr ⟨hentry, by simpa using hsame⟩))
  · exact valuesUnder_of_other

end Distinct

/-! ## Resolving -/

theorem resolveHeaderValues_append {later resolved resolved' : List String}
    (hvalues : resolveHeaderValues bindings values = .ok resolved)
    (hlater : resolveHeaderValues bindings later = .ok resolved') :
    resolveHeaderValues bindings (values ++ later) = .ok (resolved ++ resolved') := by
  induction values generalizing resolved with
  | nil =>
      obtain rfl := Except.ok.inj hvalues
      exact hlater
  | cons value rest ih =>
      rw [resolveHeaderValues] at hvalues
      obtain ⟨first, hfirst, hvalues⟩ := bind_eq_ok.mp hvalues
      obtain ⟨others, hothers, hvalues⟩ := bind_eq_ok.mp hvalues
      obtain rfl := Except.ok.inj hvalues
      rw [List.cons_append, resolveHeaderValues, hfirst, ih hothers, List.append_assoc]
      rfl

/-- Resolving headers resolves the values under a name. -/
theorem resolveHeaderValues_valuesUnder {resolved : Headers}
    (hresolved : resolveHeaders bindings headers = .ok resolved) (name : String) :
    resolveHeaderValues bindings (valuesUnder name headers) = .ok (valuesUnder name resolved) := by
  induction headers generalizing resolved with
  | nil =>
      obtain rfl := Except.ok.inj hresolved
      rfl
  | cons entry rest ih =>
      rw [resolveHeaders] at hresolved
      obtain ⟨filled, hfilled, hresolved⟩ := bind_eq_ok.mp hresolved
      obtain ⟨others, hothers, hresolved⟩ := bind_eq_ok.mp hresolved
      have hkept : valuesUnder name resolved =
          (if foldedName entry.1 = foldedName name then filled else []) ++
            valuesUnder name others := by
        obtain rfl := Except.ok.inj hresolved
        split
        next hempty => simp [List.isEmpty_iff.mp hempty]
        next => exact valuesUnder_cons name _ _
      rw [valuesUnder_cons, hkept]
      refine resolveHeaderValues_append ?_ (ih hothers)
      split
      · exact hfilled
      · rfl

theorem headers_of_resolve [Charsets] {t' : Template} (hresolve : t.resolve bindings = (t', none)) :
    resolveHeaders bindings t.headers = .ok t'.headers := by
  obtain ⟨path, queries, headers, -, -, hheaders, ⟨-, rfl⟩ | ⟨-, -, -, -, -, -, rfl⟩⟩ :=
    resolve_eq hresolve
  · exact hheaders
  · exact hheaders

/-- Names stay apart when headers are resolved, and each has what its values become. -/
theorem headerValues_of_resolve [Charsets] {t' : Template}
    (hnames : (t.headers.map fun entry => foldedName entry.1).Nodup)
    (hresolve : t.resolve bindings = (t', none)) :
    (t'.headers.map fun entry => foldedName entry.1).Nodup ∧ ∀ name,
      resolveHeaderValues bindings (t.headerValues name) = .ok (t'.headerValues name) := by
  have hheaders := headers_of_resolve hresolve
  have hnames' : (t'.headers.map fun entry => foldedName entry.1).Nodup := by
    rw [map_foldedName] at hnames ⊢
    exact ((resolveHeaders_wellFormed hheaders).2.map foldedName).nodup hnames
  refine ⟨hnames', fun name => ?_⟩
  rw [headerValues_eq hnames, headerValues_eq hnames']
  exact resolveHeaderValues_valuesUnder hheaders name

/-! ## Header maps -/

/-- The texts that an entry of a header map adds under a name. -/
def textsUnder (name : String) (entry : Value × Value) : List String :=
  match entry.1 with
  | .text key => if foldedName key = foldedName name then headerTexts entry.2 else []
  | _ => []

/-- Adding an entry of a header map adds its texts under its name. -/
theorem headerValues_of_addHeaderEntry {t' : Template} {key value : Value}
    (hnames : (t.headers.map fun entry => foldedName entry.1).Nodup)
    (hadd : t.addHeaderEntry key value = .ok t') :
    (t'.headers.map fun entry => foldedName entry.1).Nodup ∧
      ∀ name, t'.headerValues name = t.headerValues name ++ textsUnder name (key, value) := by
  unfold addHeaderEntry at hadd
  split at hadd
  next htexts =>
    obtain rfl := Except.ok.inj hadd
    refine ⟨hnames, fun name => ?_⟩
    unfold textsUnder
    split
    · simp [htexts]
    · simp
  next key hkey =>
    obtain rfl := Except.ok.inj hadd
    exact ⟨headerNames_addHeader hnames, fun name => headerValues_of_addHeader hnames key _ name⟩
  next => cases hadd

/-- Adding a header map adds the texts of all its entries, in the order of the map. -/
theorem headerValues_of_addHeaderMap {t' : Template} {entries : ValueEntries}
    (hnames : (t.headers.map fun entry => foldedName entry.1).Nodup)
    (hadd : t.addHeaderMap entries = .ok t') (name : String) :
    t'.headerValues name = t.headerValues name ++ entries.flatMap (textsUnder name) := by
  induction entries generalizing t with
  | nil =>
      obtain rfl := Except.ok.inj hadd
      simp
  | cons entry rest ih =>
      obtain ⟨between, hfirst, hrest⟩ := bind_eq_ok.mp hadd
      obtain ⟨hbetween, hvalues⟩ := headerValues_of_addHeaderEntry hnames hfirst
      rw [ih hbetween hrest, hvalues, List.flatMap_cons, List.append_assoc]

end HttpBinding.Template
