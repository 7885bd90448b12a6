import HttpBinding.Proofs.Template.HeaderValues

/-!
# Header maps

A header map is added to the headers of a template entry by entry. Several of its keys may
be one name in different spellings, of each other or of headers that are there. No two
headers are ever named alike, so that every text finds its header: those that are there
stay where they are and as they are spelled, and the others come after them in the order in
which a first text turns up for them.
-/

namespace HttpBinding

theorem mem_of_mem_eraseDupsBy {α : Type} {same : α → α → Bool} {item : α} {items : List α}
    (hitem : item ∈ items.eraseDupsBy same) : item ∈ items := by
  match items with
  | [] => exact hitem
  | first :: rest =>
      rw [List.eraseDupsBy_cons] at hitem
      rcases List.mem_cons.mp hitem with rfl | hlater
      · exact List.mem_cons_self
      · exact List.mem_cons_of_mem _ (List.mem_of_mem_filter (mem_of_mem_eraseDupsBy hlater))
termination_by items.length
decreasing_by exact Nat.lt_succ_of_le (List.length_filter_le _ _)

namespace Template

/-! ## What a header map says -/

/-- The texts that a value of a header map stands for: those of its members, or its own, unless null. -/
def givenTexts (value : Value) : List String :=
  ((value.members?.getD [value]).filter (!·.isNull)).map Value.plainText

/-- The texts that a header map has for a name, whatever the case it is spelled in. -/
def textsNamed (name : String) (map : Entries String Value) : List String :=
  (map.filter fun entry => Text.sameName entry.1 name).flatMap fun entry => givenTexts entry.2

/-- Whether a header has a name. -/
def namesHeader (headers : Headers) (name : String) : Bool :=
  headers.any fun entry => Text.sameName entry.1 name

/-- The names for which a header map has texts and there is no header, as they are first spelled. -/
def newNames (headers : Headers) (map : Entries String Value) : List String :=
  (((map.filter fun entry => !(givenTexts entry.2).isEmpty).map Prod.fst).filter
    fun name => !namesHeader headers name).eraseDupsBy Text.sameName

/-- What adding a header map does to a template. -/
structure AddsHeaders (map : Entries String Value) (t t' : Template) : Prop where
  values : ∀ name, t'.headerValues name = t.headerValues name ++ textsNamed name map
  headers : t'.headers = t.headers.appendLists (textsNamed · map) ++
    (newNames t.headers map).map fun name => (name, textsNamed name map)
  others : t' = { t with headers := t'.headers }

theorem headerTexts_eq (value : Value) : headerTexts value = givenTexts value := by
  unfold headerTexts givenTexts
  cases value.members? with
  | some items => rfl
  | none => cases hnull : value.isNull <;> simp [hnull]

variable {t : Template} {headers : Headers} {map rest : Entries String Value} {name key : String}
  {value : Value} {values : List String}

theorem textsNamed_cons (name key : String) (value : Value) (rest : Entries String Value) :
    textsNamed name ((key, value) :: rest) =
      (if foldedName key = foldedName name then givenTexts value else []) ++ textsNamed name rest := by
  by_cases hsame : foldedName key = foldedName name
  · simp [textsNamed, sameName_eq, hsame]
  · simp [textsNamed, sameName_eq, hsame]

theorem namesHeader_eq_false (hname : name ∈ newNames headers map) : namesHeader headers name = false := by
  simpa using (List.mem_filter.mp (mem_of_mem_eraseDupsBy hname)).2

theorem namesHeader_iff : namesHeader headers name = true ↔
    ∃ entry ∈ headers, foldedName entry.1 = foldedName name := by
  simp [namesHeader, sameName_eq]

theorem namesHeader_appendLists (added : String → List String) (headers : Headers) (name : String) :
    namesHeader (headers.appendLists added) name = namesHeader headers name := by
  simp only [namesHeader, Entries.appendLists, List.any_map, Function.comp_def]

theorem namesHeader_of_sameName {other : String} (hnamed : namesHeader headers name = true)
    (hsame : Text.sameName other name = true) : namesHeader headers other = true := by
  obtain ⟨entry, hentry, heq⟩ := namesHeader_iff.mp hnamed
  rw [sameName_eq, decide_eq_true_iff] at hsame
  exact namesHeader_iff.mpr ⟨entry, hentry, heq.trans hsame.symm⟩

/-! ## One entry -/

section Distinct

variable (hnames : (t.headers.map fun entry => foldedName entry.1).Nodup)

include hnames

/-- Texts go to the header of their name. Where there is none, they make one after the others. -/
theorem headers_addHeader_eq (name : String) (values : List String) :
    (t.addHeader name values).headers =
      t.headers.appendLists (fun key => if foldedName name = foldedName key then values else []) ++
        if values = [] ∨ namesHeader t.headers name then [] else [(name, values)] := by
  rcases headers_addHeader t name values with
    ⟨rfl, hsame⟩ | ⟨hvalues, ⟨found, hfound, hfolded, hextended⟩ | ⟨hnew, hput⟩⟩
  · rw [hsame, if_pos (Or.inl rfl), Entries.appendLists_of_nil (by simp), List.append_nil]
  · rw [hextended, if_pos (Or.inr (namesHeader_iff.mpr ⟨found, hfound, hfolded⟩)), List.append_nil]
    refine (Entries.extend_of_mem (Entries.nodup_keys_of_meanings hnames)
      (List.mem_map_of_mem hfound)).trans (List.map_congr_left ?_)
    intro entry hentry
    -- Of all headers the one that is found is the only one of its name.
    have honly : entry.1 = found.1 ↔ foldedName name = foldedName entry.1 := by
      rw [← hfolded]
      refine ⟨fun heq => by rw [heq], fun heq => ?_⟩
      rw [List.inj_on_of_nodup_map hnames hentry hfound heq.symm]
    simp only [honly]
  · have hunnamed : ¬ (values = [] ∨ namesHeader t.headers name) := by
      rintro (hnone | hnamed)
      · exact hvalues hnone
      · obtain ⟨entry, hentry, hsame⟩ := namesHeader_iff.mp hnamed
        exact hnew entry hentry hsame
    rw [hput, if_neg hunnamed, Entries.appendLists_of_nil fun entry hentry =>
      if_neg (Ne.symm (hnew entry hentry))]

/-- A name has a header if it had one, or if texts were added under it. -/
theorem namesHeader_addHeader (name : String) (values : List String) (other : String) :
    namesHeader (t.addHeader name values).headers other =
      (namesHeader t.headers other || (!values.isEmpty && Text.sameName other name)) := by
  have hsymm : Text.sameName name other = Text.sameName other name := by
    simp only [sameName_eq, eq_comm]
  rw [headers_addHeader_eq hnames, namesHeader, List.any_append, ← namesHeader,
    namesHeader_appendLists]
  cases values with
  | nil => simp
  | cons =>
      cases hnamed : namesHeader t.headers name with
      | false => simp [hsymm]
      | true =>
          cases hsame : Text.sameName other name with
          | false => simp
          | true => simp [namesHeader_of_sameName hnamed hsame]

theorem newNames_cons (key : String) (value : Value) (rest : Entries String Value) :
    newNames t.headers ((key, value) :: rest) =
      (if givenTexts value = [] ∨ namesHeader t.headers key then [] else [key]) ++
        newNames (t.addHeader key (givenTexts value)).headers rest := by
  unfold newNames
  simp only [namesHeader_addHeader hnames]
  cases hgiven : givenTexts value with
  | nil => simp [hgiven]
  | cons =>
      cases hnamed : namesHeader t.headers key with
      | true =>
          have hsame : ∀ other,
              (namesHeader t.headers other || Text.sameName other key) = namesHeader t.headers other := by
            intro other
            cases hother : Text.sameName other key with
            | true => simp [namesHeader_of_sameName hnamed hother]
            | false => simp
          simp [hgiven, hnamed, hsame]
      | false =>
          simp [hgiven, hnamed, List.eraseDupsBy_cons, List.filter_filter, Bool.and_comm]

/-- Adding an entry and then the rest of a map is adding the map. -/
theorem AddsHeaders.cons {t' : Template}
    (hadds : AddsHeaders rest (t.addHeader key (givenTexts value)) t') :
    AddsHeaders ((key, value) :: rest) t t' := by
  refine ⟨fun name => ?_, ?_, ?_⟩
  · rw [hadds.values, headerValues_of_addHeader hnames, textsNamed_cons, List.append_assoc]
  · have hthere : (t.addHeader key (givenTexts value)).headers.appendLists (textsNamed · rest) =
        t.headers.appendLists (textsNamed · ((key, value) :: rest)) ++
          (if givenTexts value = [] ∨ namesHeader t.headers key then [] else [key]).map
            fun name => (name, textsNamed name ((key, value) :: rest)) := by
      simp only [headers_addHeader_eq hnames, textsNamed_cons, Entries.appendLists_append,
        Entries.appendLists_appendLists]
      split
      next => rfl
      next => simp [Entries.appendLists]
    have hlater : (newNames (t.addHeader key (givenTexts value)).headers rest).map
        (fun name => (name, textsNamed name ((key, value) :: rest))) =
          (newNames (t.addHeader key (givenTexts value)).headers rest).map
            fun name => (name, textsNamed name rest) := by
      refine List.map_congr_left fun name hname => ?_
      -- A name that is new after the entry has none of its texts.
      have hnew := namesHeader_eq_false hname
      rw [namesHeader_addHeader hnames, Bool.or_eq_false_iff, sameName_eq] at hnew
      rw [textsNamed_cons]
      by_cases hsame : foldedName key = foldedName name
      · have hnone : givenTexts value = [] := by simpa [hsame] using hnew.2
        rw [hnone, ite_self, List.nil_append]
      · rw [if_neg hsame, List.nil_append]
    rw [hadds.headers, newNames_cons hnames, List.map_append, hlater, hthere, List.append_assoc]
  · rw [hadds.others, addHeader_eq]

end Distinct

theorem addHeaderEntry_text (t : Template) (name : String) (value : Value) :
    t.addHeaderEntry (.text name) value = .ok (t.addHeader name (givenTexts value)) := by
  unfold addHeaderEntry
  rw [headerTexts_eq]
  cases givenTexts value <;> rfl

/-! ## The map -/

theorem addHeaderMap_texts (hnames : (t.headers.map fun entry => foldedName entry.1).Nodup)
    (map : Entries String Value) :
    ∃ t', t.addHeaderMap (map.map fun entry => (.text entry.1, entry.2)) = .ok t' ∧
      AddsHeaders map t t' := by
  induction map generalizing t with
  | nil =>
      refine ⟨t, rfl, fun name => (List.append_nil _).symm, ?_, rfl⟩
      rw [Entries.appendLists_of_nil fun entry _ => rfl]
      exact (List.append_nil _).symm
  | cons entry rest ih =>
      have hbetween : ((t.addHeader entry.1 (givenTexts entry.2)).headers.map fun entry =>
          foldedName entry.1).Nodup := headerNames_addHeader hnames
      obtain ⟨t', hadd, hadds⟩ := ih hbetween
      refine ⟨t', ?_, hadds.cons hnames⟩
      rw [addHeaderMap, List.map_cons, List.foldlM_cons, addHeaderEntry_text]
      exact hadd

/--
A header map adds its texts to the headers of a template, in the order of the map and whatever
the case its keys are spelled in. Headers that are there keep their spelling and their place;
new ones come after them, spelled and ordered as the first entry that has a text for them.
-/
theorem performAll_addHeaderMap [Charsets] (operations : List Operation)
    (map : Entries String Value) :
    ∃ t', (performAll {} operations).addHeaderMap (map.map fun entry => (.text entry.1, entry.2)) =
        .ok t' ∧ AddsHeaders map (performAll {} operations) t' :=
  addHeaderMap_texts (isWellFormed_performAll isWellFormed_fresh operations).headerNames map

example : ((addHeader {} "X-Name" ["ann"]).addHeaderMap
    [(.text "x-list", .list [.text "1", .null]), (.text "X-None", .null), (.text "X-NAME", .text "bob"),
      (.text "X-List", .int 2)]).toOption.map Template.headers =
        some [("X-Name", ["ann", "bob"]), ("x-list", ["1", "2"])] := by
  decide +kernel

end Template

end HttpBinding
