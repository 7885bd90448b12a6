import HttpBinding.Octets.Charset
import HttpBinding.Proofs.Template.Literals

/-!
# Resolving keeps what is literal

Resolving puts texts in the place of placeholders and leaves alone what holds none. The
literal characters of a path, the literal values of a header and the literal values under
a query name come through unchanged and in their order, whatever the variables are bound
to and wherever resolving stops. A query parameter goes away with a name that no variable
fills, and moves if its name becomes that of an earlier one. A template without placeholders
is the same request before and after, as long as every query name has a value or stands
there bare just once.
-/

namespace HttpBinding

/-- A list of items, those that are fixed still in place and each other one giving way to any items. -/
inductive Retains {α β : Type} (fixed : α → Option β) : List α → List β → Prop where
  | nil : Retains fixed [] []
  | fixed {a : α} {b : β} {before : List α} {after : List β} (hfixed : fixed a = some b)
      (hrest : Retains fixed before after) : Retains fixed (a :: before) (b :: after)
  | other {a : α} {before : List α} {after : List β} (hother : fixed a = none) (items : List β)
      (hrest : Retains fixed before after) : Retains fixed (a :: before) (items ++ after)

namespace Retains

variable {α β : Type} {fixed : α → Option β} {before before' : List α} {after after' : List β}

theorem single {a : α} {items : List β} (hitems : ∀ b, fixed a = some b → items = [b]) :
    Retains fixed [a] items := by
  cases hfixed : fixed a with
  | some b =>
      rw [hitems b hfixed]
      exact .fixed hfixed .nil
  | none => simpa using Retains.other hfixed items .nil

theorem append (hfirst : Retains fixed before after) (hsecond : Retains fixed before' after') :
    Retains fixed (before ++ before') (after ++ after') := by
  induction hfirst with
  | nil => exact hsecond
  | fixed hfixed _ ih => exact .fixed hfixed ih
  | other hother items _ ih =>
      rw [List.append_assoc]
      exact .other hother items ih

theorem of_flatMap {f : α → List β} (hkept : ∀ a b, fixed a = some b → f a = [b]) (items : List α) :
    Retains fixed items (items.flatMap f) := by
  induction items with
  | nil => exact .nil
  | cons a rest ih => exact (single (hkept a)).append ih

/-- A list retains what is fixed as it is. -/
theorem refl {fixed : α → Option α} (hself : ∀ a b, fixed a = some b → a = b) (items : List α) :
    Retains fixed items items := by
  have hkept : ∀ a b, fixed a = some b → [a] = [b] := fun a b hfixed => by rw [hself a b hfixed]
  simpa using of_flatMap hkept items

end Retains

/-! ## Texts -/

/-- The character that a literal piece stands for. -/
def Piece.char? : Piece → Option Char
  | .literal c => some c
  | .slot _ => none

/-- A text without placeholders stands for itself. -/
def literal? (text : String) : Option String :=
  if placeholders text = [] then some text else none

theorem literal?_eq_some {text kept : String} (hkept : literal? text = some kept) :
    placeholders text = [] ∧ kept = text := by
  unfold literal? at hkept
  split at hkept
  next hnone => exact ⟨hnone, (Option.some.inj hkept).symm⟩
  next => cases hkept

variable {bindings : Bindings} {encode : String → String} {text filled : String}

/-- A filled text has the literal characters in order, with texts in the place of placeholders. -/
theorem retains_of_fill (hfill : fill bindings encode text = .ok filled) :
    Retains Piece.char? (piecesOf text) filled.toList := by
  obtain ⟨texts, htexts, hfilled⟩ := fill_pieces hfill
  rw [hfilled]
  clear hfilled hfill
  generalize piecesOf text = pieces at htexts
  induction htexts with
  | nil => exact .nil
  | @cons piece t pieces texts ht _ ih =>
      have hfirst : Retains Piece.char? [piece] t.toList := by
        apply Retains.single
        intro c hc
        cases piece with
        | literal other =>
            obtain rfl := Option.some.inj hc
            obtain rfl := Except.ok.inj ht
            exact String.toList_ofList
        | slot name => cases hc
      exact hfirst.append ih

theorem retains_self (text : String) : Retains Piece.char? (piecesOf text) text.toList := by
  have hkept : ∀ piece c, Piece.char? piece = some c → piece.chars = [c] := by
    rintro (c | name) _ ⟨⟩
    rfl
  have hpieces := Retains.of_flatMap hkept (piecesOf text)
  rwa [piecesOf, Piece.flatMap_chars_ofChars] at hpieces

namespace Template

/-! ## Query parameters -/

/-- A value that is a text without placeholders. -/
def literalValue? (value : Option String) : Option (Option String) :=
  (value.bind literal?).map some

/-- The name that a query parameter gets, unless it goes away. -/
def nameAfter? (bindings : Bindings) (name : String) : Option String :=
  match fillIfBound bindings id name with
  | .ok filled => filled
  | .error _ => none

/-- The values of all query parameters that get a name, one parameter after another. -/
def valuesNamed (bindings : Bindings) (name : String) (queries : Queries) : List (Option String) :=
  queries.flatMap fun entry => if nameAfter? bindings entry.1 = some name then entry.2 else []

/-- A parameter that is bare, or that has a value without placeholders. -/
def IsKept (values : List (Option String)) : Prop :=
  values = [none] ∨ ∃ value ∈ values, (literalValue? value).isSome

/-- What is literal in query parameters is still there, in its place. -/
structure KeepsParameters (bindings : Bindings) (queries queries' : Queries) : Prop where
  values : ∀ name,
    Retains literalValue? (valuesNamed bindings name queries) ((queries'.lookup name).getD [])
  names : ∀ entry ∈ queries, ∀ name, nameAfter? bindings entry.1 = some name → IsKept entry.2 →
    name ∈ queries'.keys
  literalNames : ∀ entry ∈ queries, placeholders entry.1 = [] → IsKept entry.2 →
    entry.1 ∈ queries'.keys
  order : (queries.keys.filterMap (nameAfter? bindings)).Nodup →
    queries'.keys.Sublist (queries.keys.filterMap (nameAfter? bindings))

variable {t t' : Template} {queries done resolved : Queries} {name : String}

theorem nameAfter?_of_fillIfBound {filledName : Option String}
    (hname : fillIfBound bindings id name = .ok filledName) :
    nameAfter? bindings name = filledName := by
  unfold nameAfter?
  rw [hname]

theorem nameAfter?_of_no_placeholders (hname : placeholders name = []) :
    nameAfter? bindings name = some name :=
  nameAfter?_of_fillIfBound (fillIfBound_of_no_placeholders hname)

theorem valuesNamed_cons (bindings : Bindings) (name : String) (entry : String × List (Option String))
    (rest : Queries) :
    valuesNamed bindings name (entry :: rest) =
      (if nameAfter? bindings entry.1 = some name then entry.2 else []) ++
        valuesNamed bindings name rest :=
  List.flatMap_cons

theorem literalValue?_eq_some {value kept : Option String} (hkept : literalValue? value = some kept) :
    ∃ text, placeholders text = [] ∧ value = some text ∧ kept = some text := by
  obtain ⟨text, htext, rfl⟩ := Option.map_eq_some_iff.mp hkept
  obtain ⟨found, rfl, hfound⟩ := Option.bind_eq_some_iff.mp htext
  obtain ⟨hnone, rfl⟩ := literal?_eq_some hfound
  exact ⟨text, hnone, rfl, rfl⟩

/-- What a value becomes under a name. One that is missing may stay as it is. -/
def IsRendering (t : Template) (bindings : Bindings) (value : Option String)
    (rendered : List (Option String)) : Prop :=
  t.resolveQueryValue bindings value = .ok rendered ∨ value = none ∧ rendered = [none]

theorem renderings_of_resolveQueryValues {values filled : List (Option String)}
    (hfilled : t.resolveQueryValues bindings values = .ok filled) :
    ∃ renderings, List.Forall₂ (t.IsRendering bindings) values renderings ∧
      filled = renderings.flatten := by
  induction values generalizing filled with
  | nil => exact ⟨[], .nil, (Except.ok.inj hfilled).symm⟩
  | cons value rest ih =>
      rw [resolveQueryValues] at hfilled
      obtain ⟨first, hfirst, hfilled⟩ := bind_eq_ok.mp hfilled
      obtain ⟨others, hothers, hfilled⟩ := bind_eq_ok.mp hfilled
      obtain ⟨renderings, hrenderings, rfl⟩ := ih hothers
      exact ⟨first :: renderings, .cons (Or.inl hfirst) hrenderings, (Except.ok.inj hfilled).symm⟩

/-- A parameter that is kept with nothing left of its values has a missing value that stays. -/
theorem renderings_of_kept {values filled : List (Option String)}
    (hfilled : t.resolveQueryValues bindings values = .ok filled)
    (hkept : filled ≠ [] ∨ values = [none]) :
    ∃ renderings, List.Forall₂ (t.IsRendering bindings) values renderings ∧
      (if filled = [] then [none] else filled) = renderings.flatten := by
  split
  next hempty =>
    rw [hkept.resolve_left (not_not.mpr hempty)]
    exact ⟨[[none]], .cons (Or.inr ⟨rfl, rfl⟩) .nil, rfl⟩
  next => exact renderings_of_resolveQueryValues hfilled

/-- The values of the parameters that are still to be resolved come after those that are. -/
theorem renderings_of_resolveQueriesFrom (name : String) {before : List (Option String)}
    {renderings : List (List (Option String))}
    (hbefore : List.Forall₂ (t.IsRendering bindings) before renderings)
    (hdone : (done.lookup name).getD [] = renderings.flatten)
    (hresolved : t.resolveQueriesFrom bindings done queries = .ok resolved) :
    ∃ renderings, List.Forall₂ (t.IsRendering bindings) (before ++ valuesNamed bindings name queries)
        renderings ∧ (resolved.lookup name).getD [] = renderings.flatten := by
  -- Every step moves the values of one parameter from those that are left to those that are done.
  induction queries generalizing before done renderings with
  | nil =>
      obtain rfl := Except.ok.inj hresolved
      exact ⟨renderings, by simpa [valuesNamed] using hbefore, hdone⟩
  | cons entry rest ih =>
      rw [valuesNamed_cons, ← List.append_assoc]
      rcases resolveQueriesFrom_step hresolved with
        ⟨filledName, values, hname, hvalues, hkept, hrest⟩ | ⟨hdropped, hrest⟩
      · have hlookup := Entries.lookup_extend filledName (if values = [] then [none] else values) done name
        rw [nameAfter?_of_fillIfBound hname]
        by_cases hsame : name = filledName
        · subst hsame
          rw [if_pos rfl, hdone] at hlookup
          rw [if_pos rfl]
          obtain ⟨later, hlater, hflat⟩ := renderings_of_kept hvalues hkept
          refine ih (List.rel_append hbefore hlater) ?_ hrest
          rw [hlookup, hflat, List.flatten_append]
        · have hother : some filledName ≠ some name := fun heq => hsame (Option.some.inj heq).symm
          rw [if_neg hsame, List.append_nil] at hlookup
          rw [if_neg hother, List.append_nil]
          exact ih hbefore (hlookup.trans hdone) hrest
      · rcases hdropped with hname | ⟨hvalues, -⟩
        · rw [nameAfter?_of_fillIfBound hname, if_neg (Option.some_ne_none name).symm, List.append_nil]
          exact ih hbefore hdone hrest
        · split
          next =>
            obtain ⟨later, hlater, hflat⟩ := renderings_of_resolveQueryValues hvalues
            refine ih (List.rel_append hbefore hlater) ?_ hrest
            rw [List.flatten_append, ← hflat, List.append_nil, hdone]
          next =>
            rw [List.append_nil]
            exact ih hbefore hdone hrest

theorem IsRendering.retains {value : Option String} {rendered : List (Option String)}
    (hrendered : t.IsRendering bindings value rendered) : Retains literalValue? [value] rendered := by
  apply Retains.single
  intro kept hkept
  obtain ⟨text, hnone, rfl, rfl⟩ := literalValue?_eq_some hkept
  have hfilled := hrendered.resolve_right fun hmissing => Option.some_ne_none text hmissing.1
  rw [resolveQueryValue_of_no_placeholders hnone] at hfilled
  exact (Except.ok.inj hfilled).symm

theorem retains_renderings {values : List (Option String)} {renderings : List (List (Option String))}
    (hrenderings : List.Forall₂ (t.IsRendering bindings) values renderings) :
    Retains literalValue? values renderings.flatten := by
  induction hrenderings with
  | nil => exact .nil
  | cons hrendered _ ih => exact hrendered.retains.append ih

theorem keys_subset_resolveQueriesFrom (hname : name ∈ done.keys)
    (hresolved : t.resolveQueriesFrom bindings done queries = .ok resolved) :
    name ∈ resolved.keys := by
  induction queries generalizing done with
  | nil =>
      obtain rfl := Except.ok.inj hresolved
      exact hname
  | cons entry rest ih =>
      rcases resolveQueriesFrom_step hresolved with ⟨other, values, -, -, -, hrest⟩ | ⟨-, hrest⟩
      · exact ih (Entries.mem_keys_extend.mpr (Or.inl hname)) hrest
      · exact ih hname hrest

theorem mem_keys_resolveQueriesFrom {entry : String × List (Option String)} (hentry : entry ∈ queries)
    (hname : nameAfter? bindings entry.1 = some name) (hkept : IsKept entry.2)
    (hresolved : t.resolveQueriesFrom bindings done queries = .ok resolved) :
    name ∈ resolved.keys := by
  induction queries generalizing done with
  | nil => cases hentry
  | cons first rest ih =>
      rcases List.mem_cons.mp hentry with rfl | hlater
      · rcases resolveQueriesFrom_step hresolved with
          ⟨filledName, values, hfilled, -, -, hrest⟩ | ⟨hdropped | ⟨hvalues, hbare⟩, -⟩
        · obtain rfl := Option.some.inj ((nameAfter?_of_fillIfBound hfilled).symm.trans hname)
          exact keys_subset_resolveQueriesFrom (Entries.mem_keys_extend.mpr (Or.inr rfl)) hrest
        · rw [nameAfter?_of_fillIfBound hdropped] at hname
          cases hname
        · -- A literal value is left of the values, so that the parameter is not dropped for them.
          obtain ⟨value, hvalue, hliteral⟩ := hkept.resolve_left hbare
          obtain ⟨kept, hliteral⟩ := Option.isSome_iff_exists.mp hliteral
          obtain ⟨text, hnone, rfl, -⟩ := literalValue?_eq_some hliteral
          cases mem_resolveQueryValues hnone hvalue hvalues
      · rcases resolveQueriesFrom_step hresolved with ⟨other, values, -, -, -, hrest⟩ | ⟨-, hrest⟩
        · exact ih hlater hrest
        · exact ih hlater hrest

/-- As long as no two parameters get one name, they stay in order. -/
theorem keys_resolveQueriesFrom_sublist
    (hnodup : (done.keys ++ queries.keys.filterMap (nameAfter? bindings)).Nodup)
    (hresolved : t.resolveQueriesFrom bindings done queries = .ok resolved) :
    resolved.keys.Sublist (done.keys ++ queries.keys.filterMap (nameAfter? bindings)) := by
  induction queries generalizing done with
  | nil =>
      obtain rfl := Except.ok.inj hresolved
      exact List.sublist_append_left _ _
  | cons entry rest ih =>
      have hsmaller : (done.keys ++ (Entries.keys rest).filterMap (nameAfter? bindings)).Sublist
          (done.keys ++ (Entries.keys (entry :: rest)).filterMap (nameAfter? bindings)) := by
        refine (List.Sublist.refl _).append (List.Sublist.filterMap _ ?_)
        exact List.sublist_cons_self entry.1 _
      rcases resolveQueriesFrom_step hresolved with ⟨filledName, values, hname, -, -, hrest⟩ | ⟨-, hrest⟩
      · -- The name is new among those that are done, so that it is added after them.
        have hafter := nameAfter?_of_fillIfBound hname
        rw [Entries.keys_cons, List.filterMap_cons_some hafter] at hnodup ⊢
        have hnew : filledName ∉ done.keys := fun hmem =>
          List.disjoint_of_nodup_append hnodup hmem List.mem_cons_self
        have hkeys : ∀ values, (done.extend filledName values).keys = done.keys ++ [filledName] := by
          intro values
          rw [Entries.keys_extend, if_neg hnew]
        have hlater := ih (by rw [hkeys, List.append_assoc]; exact hnodup) hrest
        rwa [hkeys, List.append_assoc] at hlater
      · exact (ih (hnodup.sublist hsmaller) hrest).trans hsmaller

theorem keepsParameters_of_resolveQueriesFrom
    (hresolved : t.resolveQueriesFrom bindings [] queries = .ok resolved) :
    KeepsParameters bindings queries resolved where
  values name := by
    obtain ⟨renderings, hrenderings, hvalues⟩ :=
      renderings_of_resolveQueriesFrom name .nil rfl hresolved
    rw [hvalues]
    exact retains_renderings hrenderings
  names _ hentry _ hname hkept := mem_keys_resolveQueriesFrom hentry hname hkept hresolved
  literalNames _ hentry hname hkept :=
    mem_keys_resolveQueriesFrom hentry (nameAfter?_of_no_placeholders hname) hkept hresolved
  order hnodup := by
    have hdistinct : (Entries.keys ([] : Queries) ++
        queries.keys.filterMap (nameAfter? bindings)).Nodup := hnodup
    exact keys_resolveQueriesFrom_sublist hdistinct hresolved

/-! ## Headers -/

theorem resolveHeaderValue_of_no_placeholders (hnone : placeholders text = []) :
    resolveHeaderValue bindings text = .ok [text] := by
  rw [resolveHeaderValue, solePlaceholder?_of_no_placeholders hnone]
  dsimp only
  rw [fillIfBound_of_no_placeholders hnone]
  rfl

theorem retains_resolveHeaderValues {values filled : List String}
    (hfilled : resolveHeaderValues bindings values = .ok filled) : Retains literal? values filled := by
  induction values generalizing filled with
  | nil =>
      obtain rfl := Except.ok.inj hfilled
      exact .nil
  | cons value rest ih =>
      rw [resolveHeaderValues] at hfilled
      obtain ⟨first, hfirst, hfilled⟩ := bind_eq_ok.mp hfilled
      obtain ⟨others, hothers, hfilled⟩ := bind_eq_ok.mp hfilled
      obtain rfl := Except.ok.inj hfilled
      have hvalue : Retains literal? [value] first := by
        apply Retains.single
        intro kept hkept
        obtain ⟨hnone, rfl⟩ := literal?_eq_some hkept
        rw [resolveHeaderValue_of_no_placeholders hnone] at hfirst
        exact (Except.ok.inj hfirst).symm
      exact hvalue.append (ih hothers)

theorem retains_resolveHeaders {headers resolved : Headers} (hnodup : headers.keys.Nodup)
    {entry : String × List String} (hentry : entry ∈ headers)
    (hresolved : resolveHeaders bindings headers = .ok resolved) :
    Retains literal? entry.2 ((resolved.lookup entry.1).getD []) := by
  induction headers generalizing resolved with
  | nil => cases hentry
  | cons first rest ih =>
      obtain ⟨hfirst, hnodup⟩ := List.nodup_cons.mp hnodup
      rw [resolveHeaders] at hresolved
      obtain ⟨filled, hfilled, hresolved⟩ := bind_eq_ok.mp hresolved
      obtain ⟨others, hothers, hresolved⟩ := bind_eq_ok.mp hresolved
      obtain rfl := Except.ok.inj hresolved
      rcases List.mem_cons.mp hentry with rfl | hlater
      · -- No later header has the name, and none gets it, as names are not resolved.
        have hnew : others.lookup entry.1 = none := by
          rw [Entries.lookup_eq_none_iff]
          exact fun hmem => hfirst ((resolveHeaders_wellFormed hothers).2.subset hmem)
        have hvalues := retains_resolveHeaderValues hfilled
        split
        next hempty =>
          rw [hnew]
          simpa [List.isEmpty_iff.mp hempty] using hvalues
        next => simpa [Entries.lookup_cons] using hvalues
      · have hne : entry.1 ≠ first.1 := by
          intro heq
          exact hfirst (heq ▸ List.mem_map_of_mem hlater)
        split
        · exact ih hnodup hlater hothers
        · rw [Entries.lookup_cons, if_neg hne]
          exact ih hnodup hlater hothers

/-! ## Templates without placeholders -/

/-- The names that were found, each once, are the names that were found. -/
theorem mem_foldl_names {found names : List String} :
    name ∈ found.foldl (fun names name => if names.contains name then names else names ++ [name]) names ↔
      name ∈ found ∨ name ∈ names := by
  induction found generalizing names with
  | nil => simp
  | cons first rest ih =>
      have hstep : name ∈ (if names.contains first then names else names ++ [first]) ↔
          name = first ∨ name ∈ names := by
        split
        next hmem =>
          have hfirst : first ∈ names := by simpa using hmem
          exact ⟨Or.inr, fun hname => hname.elim (fun heq => heq ▸ hfirst) id⟩
        next => rw [List.mem_append, List.mem_singleton, or_comm]
      rw [List.foldl_cons, ih, hstep, List.mem_cons]
      tauto

/-- Where the placeholders of a template stand. -/
theorem mem_placeholderNames_iff : name ∈ t.placeholderNames ↔
    name ∈ placeholders t.path ∨
      (∃ entry ∈ t.queries, name ∈ placeholders entry.1 ∨
        ∃ value ∈ entry.2, name ∈ placeholders (value.getD "")) ∨
      (∃ entry ∈ t.headers, ∃ value ∈ entry.2, name ∈ placeholders value) ∨
      name ∈ placeholders (t.bodyText.getD "") := by
  simp only [placeholderNames, mem_foldl_names, List.mem_append, List.mem_flatMap, List.not_mem_nil,
    or_false, or_assoc]

/-- Every part of a template is literal. -/
structure IsLiteral (t : Template) : Prop where
  path : placeholders t.path = []
  queryNames : ∀ entry ∈ t.queries, placeholders entry.1 = []
  queryValues : ∀ entry ∈ t.queries, ∀ value, some value ∈ entry.2 → placeholders value = []
  headerValues : ∀ entry ∈ t.headers, ∀ value ∈ entry.2, placeholders value = []

theorem isLiteral_of_placeholderNames (hnone : t.placeholderNames = []) : IsLiteral t := by
  have hnowhere : ∀ name, name ∉ t.placeholderNames := by
    rw [hnone]
    exact fun name => List.not_mem_nil
  simp only [mem_placeholderNames_iff, not_or, not_exists, not_and] at hnowhere
  constructor
  · exact List.eq_nil_iff_forall_not_mem.mpr fun name => (hnowhere name).1
  · intro entry hentry
    exact List.eq_nil_iff_forall_not_mem.mpr fun name => ((hnowhere name).2.1 entry hentry).1
  · intro entry hentry value hvalue
    exact List.eq_nil_iff_forall_not_mem.mpr fun name =>
      ((hnowhere name).2.1 entry hentry).2 (some value) hvalue
  · intro entry hentry value hvalue
    exact List.eq_nil_iff_forall_not_mem.mpr fun name => (hnowhere name).2.2.1 entry hentry value hvalue

/-- Values without those that are missing, unless that is all there is. -/
def withoutMissing (values : List (Option String)) : List (Option String) :=
  if values.filter Option.isSome = [] then [none] else values.filter Option.isSome

theorem queryParts_withoutMissing (name : String) (values : List (Option String)) :
    queryParts name (withoutMissing values) = queryParts name values := by
  have hpresent : (values.filter Option.isSome).filterMap id = values.filterMap id := by
    rw [List.filterMap_filter]
    congr 1
    funext value
    cases value <;> rfl
  unfold withoutMissing
  split
  next hempty =>
    rw [hempty] at hpresent
    unfold queryParts
    rw [← hpresent]
    rfl
  next =>
    unfold queryParts
    rw [hpresent]

theorem resolveQueryValues_of_no_placeholders {values : List (Option String)}
    (hnone : ∀ value, some value ∈ values → placeholders value = []) :
    t.resolveQueryValues bindings values = .ok (values.filter Option.isSome) := by
  induction values with
  | nil => rfl
  | cons value rest ih =>
      have hrest := ih fun value hvalue => hnone value (List.mem_cons_of_mem _ hvalue)
      rw [resolveQueryValues, hrest]
      cases value with
      | none => rfl
      | some text =>
          rw [resolveQueryValue_of_no_placeholders (hnone text List.mem_cons_self)]
          rfl

/-- A parameter stays in a query without placeholders: it has a value, or is bare just once. -/
def isWritten (values : List (Option String)) : Bool :=
  !(values.filter Option.isSome).isEmpty || values == [none]

/-- Literal parameters stay in order and lose nothing but what is missing among their values. -/
theorem resolveQueriesFrom_of_literal (hnodup : (done.keys ++ queries.keys).Nodup)
    (hnames : ∀ entry ∈ queries, placeholders entry.1 = [])
    (hvalues : ∀ entry ∈ queries, ∀ value, some value ∈ entry.2 → placeholders value = []) :
    t.resolveQueriesFrom bindings done queries = .ok (done ++
      (queries.filter fun entry => isWritten entry.2).map fun entry =>
        (entry.1, withoutMissing entry.2)) := by
  induction queries generalizing done with
  | nil => simp [resolveQueriesFrom]
  | cons entry rest ih =>
      obtain ⟨name, values⟩ := entry
      obtain ⟨hname, hnames⟩ := List.forall_mem_cons.mp hnames
      obtain ⟨hvalue, hvalues⟩ := List.forall_mem_cons.mp hvalues
      have hnew : name ∉ done.keys := fun hmem =>
        List.disjoint_of_nodup_append hnodup hmem List.mem_cons_self
      have hstep : t.resolveQueriesFrom bindings done ((name, values) :: rest) =
          if isWritten values then
            t.resolveQueriesFrom bindings (done.extend name (withoutMissing values)) rest
          else t.resolveQueriesFrom bindings done rest := by
        rw [resolveQueriesFrom, fillIfBound_of_no_placeholders hname,
          resolveQueryValues_of_no_placeholders hvalue]
        unfold withoutMissing isWritten
        simp only [← List.isEmpty_iff]
        rfl
      rw [hstep]
      cases hwritten : isWritten values with
      | true =>
          have hnext : (Entries.keys (done ++ [(name, withoutMissing values)]) ++
              Entries.keys rest).Nodup := by
            simpa [Entries.keys] using hnodup
          rw [if_pos rfl, Entries.extend_of_not_mem hnew, ih hnext hnames hvalues]
          simp [hwritten]
      | false =>
          have hnext : (done.keys ++ Entries.keys rest).Nodup := by
            refine hnodup.sublist ((List.Sublist.refl _).append ?_)
            exact List.sublist_cons_self name _
          rw [if_neg Bool.false_ne_true, ih hnext hnames hvalues]
          simp [hwritten]

theorem resolveHeaderValues_of_no_placeholders {values : List String}
    (hnone : ∀ value ∈ values, placeholders value = []) :
    resolveHeaderValues bindings values = .ok values := by
  induction values with
  | nil => rfl
  | cons value rest ih =>
      obtain ⟨hvalue, hrest⟩ := List.forall_mem_cons.mp hnone
      rw [resolveHeaderValues, resolveHeaderValue_of_no_placeholders hvalue, ih hrest]
      rfl

theorem resolveHeaders_of_no_placeholders {headers : Headers} (hsome : ∀ entry ∈ headers, entry.2 ≠ [])
    (hnone : ∀ entry ∈ headers, ∀ value ∈ entry.2, placeholders value = []) :
    resolveHeaders bindings headers = .ok headers := by
  induction headers with
  | nil => rfl
  | cons entry rest ih =>
      obtain ⟨hentry, hsome⟩ := List.forall_mem_cons.mp hsome
      obtain ⟨hvalues, hnone⟩ := List.forall_mem_cons.mp hnone
      rw [resolveHeaders, resolveHeaderValues_of_no_placeholders hvalues, ih hsome hnone]
      change Except.ok (if entry.2.isEmpty then rest else (entry.1, entry.2) :: rest) = _
      rw [if_neg (by simpa using hentry)]

/-! ## Resolving -/

/-- What is literal in a template is still there, in its place. -/
structure KeepsLiterals (bindings : Bindings) (t t' : Template) : Prop where
  path : Retains Piece.char? (piecesOf t.path) t'.path.toList
  parameters : t'.queries = t.queries ∨ KeepsParameters bindings t.queries t'.queries
  headers : ∀ entry ∈ t.headers, Retains literal? entry.2 ((t'.headers.lookup entry.1).getD [])
  headerNames : t'.headers.keys.Sublist t.headers.keys

/-- The address and the headers are as they were, unless a bare name stands there repeatedly. -/
structure KeepsRequest (t t' : Template) : Prop where
  headers : t'.headers = t.headers
  url : (∀ entry ∈ t.queries, isWritten entry.2 = true) → t'.url = t.url

theorem keepsLiterals_resolve [Charsets] (ht : IsWellFormed t) (bindings : Bindings) :
    KeepsLiterals bindings t (t.resolve bindings).1 := by
  have hparts := isResolution_resolve t bindings
  have hnodup : t.headers.keys.Nodup := Entries.nodup_keys_of_meanings ht.headerNames
  constructor
  case path =>
    rcases hparts.path with hkept | hfilled
    · rw [hkept]
      exact retains_self t.path
    · exact retains_of_fill hfilled
  case parameters =>
    refine hparts.queries.imp_right ?_
    rintro ⟨u, hresolved⟩
    exact keepsParameters_of_resolveQueriesFrom hresolved
  case headers =>
    intro entry hentry
    rcases hparts.headers with hkept | hresolved
    · rw [hkept, (Entries.lookup_eq_some_iff hnodup).mpr hentry, Option.getD_some]
      apply Retains.refl
      intro text kept hliteral
      exact (literal?_eq_some hliteral).2.symm
    · exact retains_resolveHeaders hnodup hentry hresolved
  case headerNames =>
    rcases hparts.headers with hkept | hresolved
    · rw [hkept]
    · exact (resolveHeaders_wellFormed hresolved).2

section Literal

variable (ht : IsWellFormed t) (hliteral : IsLiteral t)

include ht hliteral

theorem resolveQueriesFrom_of_isLiteral (u : Template) :
    u.resolveQueriesFrom bindings [] t.queries =
      .ok ((t.queries.filter fun entry => isWritten entry.2).map fun entry =>
        (entry.1, withoutMissing entry.2)) := by
  have hdistinct : (Entries.keys ([] : Queries) ++ t.queries.keys).Nodup := ht.queryNames
  exact resolveQueriesFrom_of_literal hdistinct hliteral.queryNames hliteral.queryValues

theorem keepsRequest_resolve [Charsets] (bindings : Bindings) :
    KeepsRequest t (t.resolve bindings).1 := by
  have hparts := isResolution_resolve t bindings
  constructor
  case headers =>
    rcases hparts.headers with hkept | hresolved
    · exact hkept
    · rw [resolveHeaders_of_no_placeholders ht.headerValues hliteral.headerValues] at hresolved
      exact (Except.ok.inj hresolved).symm
  case url =>
    intro hwritten
    have hpath : (t.resolve bindings).1.path = t.path := by
      rcases hparts.path with hkept | hfilled
      · exact hkept
      · rw [fill_of_no_placeholders hliteral.path] at hfilled
        exact (Except.ok.inj hfilled).symm
    have hline : (t.resolve bindings).1.queryLine = t.queryLine := by
      rcases hparts.queries with hkept | ⟨u, hresolved⟩
      · unfold queryLine
        rw [hkept]
      · rw [resolveQueriesFrom_of_isLiteral ht hliteral, List.filter_eq_self.mpr hwritten] at hresolved
        unfold queryLine
        rw [← Except.ok.inj hresolved, List.flatMap_map]
        simp only [queryParts_withoutMissing]
    unfold url
    rw [hpath, hparts.base, hline]

theorem resolve_succeeds [Charsets] (hbody : t.bodyText = none) (bindings : Bindings) :
    (t.resolve bindings).2 = none := by
  have hheaders : resolveHeaders bindings t.headers = .ok t.headers :=
    resolveHeaders_of_no_placeholders ht.headerValues hliteral.headerValues
  unfold resolve
  rw [fill_of_no_placeholders hliteral.path]
  dsimp only
  unfold resolveQueries
  rw [resolveQueriesFrom_of_isLiteral ht hliteral]
  dsimp only
  rw [hheaders]
  dsimp only
  rw [hbody]

end Literal

/--
Whatever was done to a template, resolving it keeps what is literal in its path, under the names
of its query and in its headers. Without any placeholder it is resolved to the same request.
-/
theorem resolve_keepsLiterals [Charsets] (operations : List Operation) (bindings : Bindings) :
    KeepsLiterals bindings (performAll {} operations) ((performAll {} operations).resolve bindings).1 ∧
      ((performAll {} operations).placeholderNames = [] →
        KeepsRequest (performAll {} operations) ((performAll {} operations).resolve bindings).1 ∧
          ((performAll {} operations).bodyText = none →
            ((performAll {} operations).resolve bindings).2 = none)) := by
  have ht := isWellFormed_performAll isWellFormed_fresh operations
  refine ⟨keepsLiterals_resolve ht bindings, fun hnone => ?_⟩
  have hliteral := isLiteral_of_placeholderNames hnone
  exact ⟨keepsRequest_resolve ht hliteral bindings, fun hbody => resolve_succeeds ht hliteral hbody bindings⟩

open scoped CommonCharsets

theorem resolve_keepsLiterals_ofSearch :
    ((performAll {} [.uri "/search?flag&limit=10" false, .header "Accept" ["text/plain"]]).resolve
        []).1.url = "/search?flag&limit=10" ∧
      ((performAll {} [.uri "/search?flag&limit=10" false, .header "Accept" ["text/plain"]]).resolve
        []).1.headers = [("Accept", ["text/plain"])] := by
  have hnone : (performAll {} [.uri "/search?flag&limit=10" false,
      .header "Accept" ["text/plain"]]).placeholderNames = [] := by decide +kernel
  have hwritten : ∀ entry ∈ (performAll {} [.uri "/search?flag&limit=10" false,
      .header "Accept" ["text/plain"]]).queries, isWritten entry.2 = true := by decide +kernel
  obtain ⟨hrequest, -⟩ := (resolve_keepsLiterals
    [.uri "/search?flag&limit=10" false, .header "Accept" ["text/plain"]] []).2 hnone
  constructor
  · rw [hrequest.url hwritten]
    decide +kernel
  · rw [hrequest.headers]
    decide +kernel

/--
A literal value goes away with the name that it stands under, and a name that becomes one of the
others takes its values there.
-/
theorem resolve_moves_literals :
    (performAll {} [.uri "/x?\x7bn\x7d=lit" false]).queries.Has "\x7bn\x7d" (some "lit") ∧
      (∀ name, ¬ ((performAll {} [.uri "/x?\x7bn\x7d=lit" false]).resolve []).1.queries.Has name
        (some "lit")) ∧
      (performAll {} [.uri "/x?\x7bn\x7d=1&b=2&a=3" false]).queries.flatMap Prod.snd =
        [some "1", some "2", some "3"] ∧
      ((performAll {} [.uri "/x?\x7bn\x7d=1&b=2&a=3" false]).resolve
        [("n", .text "a")]).1.queries.flatMap Prod.snd = [some "1", some "3", some "2"] := by
  have hbefore : (performAll {} [.uri "/x?\x7bn\x7d=lit" false]).queries =
      [("\x7bn\x7d", [some "lit"])] := by decide +kernel
  have hafter : ((performAll {} [.uri "/x?\x7bn\x7d=lit" false]).resolve []).1.queries = [] := by
    decide +kernel
  refine ⟨?_, ?_, by decide +kernel, by decide +kernel⟩
  · rw [hbefore]
    exact ⟨[some "lit"], by simp, by simp⟩
  · rintro name ⟨values, hentry, -⟩
    rw [hafter] at hentry
    cases hentry

end Template

end HttpBinding
