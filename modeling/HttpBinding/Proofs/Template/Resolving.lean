import HttpBinding.Proofs.Template.QueryStructure

/-!
# What resolving does to a template

Resolving goes through a template part by part and stops at the first part that
cannot be resolved. What it leaves behind is therefore the template with some parts
replaced by what they are resolved to; only when it goes through to the end are all
of them replaced. With texts for the variables nothing stops it before the body.
-/

namespace HttpBinding.Template

variable {t t' : Template} {bindings : Bindings}

/-- What resolving may leave of a template, whether it goes through or not. -/
structure IsResolution (bindings : Bindings) (t t' : Template) : Prop where
  base : t'.base = t.base
  path : t'.path = t.path ∨ fill bindings (Percent.encodePath t.decodeSlash) t.path = .ok t'.path
  queries : t'.queries = t.queries ∨
    ∃ u : Template, u.resolveQueriesFrom bindings [] t.queries = .ok t'.queries
  headers : t'.headers = t.headers ∨ resolveHeaders bindings t.headers = .ok t'.headers
  body : t'.body = t.body ∧ t'.bodyText = t.bodyText ∨ t'.bodyText = none
  resolved : t'.resolved = t.resolved ∨ t'.resolved = true

/-- What resolving leaves of a template when it goes through. -/
structure IsResolved (bindings : Bindings) (t t' : Template) : Prop where
  method : t'.method = t.method
  base : t'.base = t.base
  path : fill bindings (Percent.encodePath t.decodeSlash) t.path = .ok t'.path
  resolved : t'.resolved = true

theorem isResolution_resolve [Charsets] (t : Template) (bindings : Bindings) :
    IsResolution bindings t (t.resolve bindings).1 := by
  unfold resolve
  split
  · exact ⟨rfl, .inl rfl, .inl rfl, .inl rfl, .inl ⟨rfl, rfl⟩, .inl rfl⟩
  next path hpath =>
    dsimp only
    split
    · exact ⟨rfl, .inr hpath, .inl rfl, .inl rfl, .inl ⟨rfl, rfl⟩, .inl rfl⟩
    next queries hqueries =>
      split
      · exact ⟨rfl, .inr hpath, .inr ⟨_, hqueries⟩, .inl rfl, .inl ⟨rfl, rfl⟩, .inl rfl⟩
      next headers hheaders =>
        split
        next => exact ⟨rfl, .inr hpath, .inr ⟨_, hqueries⟩, .inr hheaders, .inl ⟨rfl, rfl⟩, .inr rfl⟩
        next =>
          split
          · exact ⟨rfl, .inr hpath, .inr ⟨_, hqueries⟩, .inr hheaders, .inl ⟨rfl, rfl⟩, .inl rfl⟩
          · exact ⟨rfl, .inr hpath, .inr ⟨_, hqueries⟩, .inr hheaders, .inr rfl, .inr rfl⟩

/-- Resolving goes through only if every part does, and then it leaves what each of them becomes. -/
theorem resolve_eq [Charsets] (hresolve : t.resolve bindings = (t', none)) :
    ∃ path queries headers,
      fill bindings (Percent.encodePath t.decodeSlash) t.path = .ok path ∧
      resolveQueries { t with path := path } bindings = .ok queries ∧
      resolveHeaders bindings t.headers = .ok headers ∧
      (t.bodyText = none ∧
          t' = { t with path := path, queries := queries, headers := headers, resolved := true } ∨
        ∃ text filled octets, t.bodyText = some text ∧ fill bindings id text = .ok filled ∧
          encodeText t.charset filled = .ok octets ∧
          t' = { t with
            path := path, queries := queries, headers := headers, body := some octets
            bodyText := none, resolved := true }) := by
  unfold resolve at hresolve
  split at hresolve
  · simp at hresolve
  next path hpath =>
    dsimp only at hresolve
    split at hresolve
    · simp at hresolve
    next queries hqueries =>
      split at hresolve
      · simp at hresolve
      next headers hheaders =>
        refine ⟨path, queries, headers, hpath, hqueries, hheaders, ?_⟩
        split at hresolve
        next hbody =>
          obtain ⟨rfl, -⟩ := Prod.mk.inj hresolve
          exact Or.inl ⟨hbody, rfl⟩
        next text hbody =>
          split at hresolve
          · simp at hresolve
          next octets hoctets =>
            obtain ⟨filled, hfilled, hencoded⟩ := bind_eq_ok.mp hoctets
            obtain ⟨rfl, -⟩ := Prod.mk.inj hresolve
            exact Or.inr ⟨text, filled, octets, hbody, hfilled, hencoded, rfl⟩

theorem isResolved_of_resolve [Charsets] (hresolve : t.resolve bindings = (t', none)) :
    IsResolved bindings t t' := by
  obtain ⟨path, queries, headers, hpath, -, -, ⟨-, rfl⟩ | ⟨-, -, -, -, -, -, rfl⟩⟩ :=
    resolve_eq hresolve
  · exact ⟨rfl, rfl, hpath, rfl⟩
  · exact ⟨rfl, rfl, hpath, rfl⟩

/-- A template that is nothing but a path is resolved once the path is filled. -/
theorem resolve_of_path [Charsets] {path : String}
    (hpath : fill bindings (Percent.encodePath t.decodeSlash) t.path = .ok path)
    (hqueries : t.queries = []) (hheaders : t.headers = []) (hbody : t.bodyText = none) :
    t.resolve bindings =
      ({ t with path := path, queries := [], headers := [], resolved := true }, none) := by
  unfold resolve resolveQueries
  rw [hpath]
  dsimp only
  rw [hqueries, hheaders]
  dsimp only [resolveQueriesFrom, resolveHeaders]
  rw [hbody]

/--
Resolving a query parameter adds it to those that are resolved already, or leaves it out: for
its name, or because nothing is left of its values.
-/
theorem resolveQueriesFrom_step {done rest resolved : Queries} {entry : String × List (Option String)}
    (hresolved : t.resolveQueriesFrom bindings done (entry :: rest) = .ok resolved) :
    (∃ name values, fillIfBound bindings id entry.1 = .ok (some name) ∧
        t.resolveQueryValues bindings entry.2 = .ok values ∧ (values ≠ [] ∨ entry.2 = [none]) ∧
        t.resolveQueriesFrom bindings (done.extend name (if values = [] then [none] else values))
          rest = .ok resolved) ∨
      (fillIfBound bindings id entry.1 = .ok none ∨
          t.resolveQueryValues bindings entry.2 = .ok [] ∧ entry.2 ≠ [none]) ∧
        t.resolveQueriesFrom bindings done rest = .ok resolved := by
  rw [resolveQueriesFrom] at hresolved
  obtain ⟨filledName, hname, hresolved⟩ := bind_eq_ok.mp hresolved
  cases filledName with
  | none => exact Or.inr ⟨Or.inl hname, hresolved⟩
  | some name =>
      obtain ⟨values, hvalues, hresolved⟩ := bind_eq_ok.mp hresolved
      split at hresolved
      next hkept =>
        refine Or.inl ⟨name, values, hname, hvalues, ?_, ?_⟩
        · simpa using hkept
        · simpa only [List.isEmpty_iff] using hresolved
      next hdropped =>
        simp only [Bool.or_eq_true, Bool.not_eq_true', List.isEmpty_eq_false_iff, beq_iff_eq, not_or,
          not_not] at hdropped
        obtain ⟨rfl, hbare⟩ := hdropped
        exact Or.inr ⟨Or.inr ⟨hvalues, hbare⟩, hresolved⟩

/-- Of a template, its format alone has a part in resolving query parameters. -/
theorem resolveQueriesFrom_congr (hformat : t'.format = t.format) (done queries : Queries) :
    t'.resolveQueriesFrom bindings done queries = t.resolveQueriesFrom bindings done queries := by
  have hvalue : t'.resolveQueryValue bindings = t.resolveQueryValue bindings := by
    funext value
    cases value with
    | none => rfl
    | some value => rw [resolveQueryValue, resolveQueryValue, hformat]
  have hvalues : t'.resolveQueryValues bindings = t.resolveQueryValues bindings := by
    funext values
    induction values with
    | nil => rfl
    | cons value rest ih => rw [resolveQueryValues, resolveQueryValues, hvalue, ih]
  induction queries generalizing done with
  | nil => rfl
  | cons entry rest ih =>
      rw [resolveQueriesFrom, resolveQueriesFrom, hvalues]
      simp only [ih]

theorem queries_of_resolve [Charsets] (hresolve : t.resolve bindings = (t', none)) :
    t.resolveQueriesFrom bindings [] t.queries = .ok t'.queries := by
  obtain ⟨path, queries, headers, -, hqueries, -, hresolved⟩ := resolve_eq hresolve
  have hkept : t'.queries = queries := by
    rcases hresolved with ⟨-, rfl⟩ | ⟨-, -, -, -, -, -, rfl⟩ <;> rfl
  rw [hkept, ← hqueries]
  have hsame : ({ t with path := path } : Template).format = t.format := rfl
  exact (resolveQueriesFrom_congr hsame [] t.queries).symm

/-! ## Texts for the variables -/

section Textual

variable (htextual : bindings.AreTextual)

include htextual

theorem fillIfBound_isOk (encode : String → String) (text : String) :
    ∃ filled, fillIfBound bindings encode text = .ok filled := by
  unfold fillIfBound
  dsimp only
  split
  · exact ⟨none, rfl⟩
  · rw [fill_eq htextual]
    exact ⟨some _, rfl⟩

theorem resolveQueriesFrom_isOk (t : Template) (done queries : Queries) :
    ∃ resolved, t.resolveQueriesFrom bindings done queries = .ok resolved := by
  induction queries generalizing done with
  | nil => exact ⟨done, rfl⟩
  | cons entry rest ih =>
      obtain ⟨name, values⟩ := entry
      obtain ⟨filledName, hname⟩ := fillIfBound_isOk htextual id name
      rw [resolveQueriesFrom, hname]
      cases filledName with
      | none => exact ih done
      | some filledName =>
          change ∃ resolved, (t.resolveQueryValues bindings values).bind _ = .ok resolved
          rw [resolveQueryValues_eq htextual]
          dsimp only [Except.bind]
          split
          · exact ih _
          · exact ih done

theorem resolveHeaderValue_isOk (value : String) :
    ∃ resolved, resolveHeaderValue bindings value = .ok resolved := by
  unfold resolveHeaderValue
  split
  next name _ =>
    split
    next bound hbound =>
      obtain ⟨filling, hfilling⟩ := Filling.ofValue_of_textual (htextual name bound hbound)
      rw [hfilling]
      exact ⟨_, rfl⟩
    next => exact ⟨[], rfl⟩
  next =>
    obtain ⟨filled, hfilled⟩ := fillIfBound_isOk htextual id value
    rw [hfilled]
    exact ⟨_, rfl⟩

theorem resolveHeaderValues_isOk (values : List String) :
    ∃ resolved, resolveHeaderValues bindings values = .ok resolved := by
  induction values with
  | nil => exact ⟨[], rfl⟩
  | cons value rest ih =>
      obtain ⟨first, hfirst⟩ := resolveHeaderValue_isOk htextual value
      obtain ⟨others, hothers⟩ := ih
      rw [resolveHeaderValues, hfirst, hothers]
      exact ⟨_, rfl⟩

theorem resolveHeaders_isOk (headers : Headers) :
    ∃ resolved, resolveHeaders bindings headers = .ok resolved := by
  induction headers with
  | nil => exact ⟨[], rfl⟩
  | cons entry rest ih =>
      obtain ⟨filled, hfilled⟩ := resolveHeaderValues_isOk htextual entry.2
      obtain ⟨others, hothers⟩ := ih
      rw [resolveHeaders, hfilled, hothers]
      exact ⟨_, rfl⟩

/-- Only a body that is still to be filled can keep a template from being resolved with texts. -/
theorem resolve_isResolved [Charsets] (hbody : t.bodyText = none) :
    ∃ t', t.resolve bindings = (t', none) := by
  unfold resolve
  rw [fill_eq htextual]
  dsimp only
  generalize filledText bindings (Percent.encodePath t.decodeSlash) t.path = path
  have hqueries := resolveQueriesFrom_isOk htextual { t with path := path } [] t.queries
  obtain ⟨queries, hqueries⟩ := hqueries
  obtain ⟨headers, hheaders⟩ := resolveHeaders_isOk htextual t.headers
  unfold resolveQueries
  rw [hqueries]
  dsimp only
  rw [hheaders]
  dsimp only
  rw [hbody]
  exact ⟨_, rfl⟩

end Textual

end HttpBinding.Template
