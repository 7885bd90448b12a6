import Mathlib.Data.List.Forall2

/-!
# Steps that succeed

What may fail is put together from steps that may fail, and the whole succeeds only
if every step does. These lemmas take a successful whole apart into its steps.
-/

namespace HttpBinding

variable {ε α β : Type}

theorem bind_eq_ok {x : Except ε α} {next : α → Except ε β} {b : β} :
    x >>= next = .ok b ↔ ∃ a, x = .ok a ∧ next a = .ok b := by
  cases x <;> simp [bind, Except.bind]

theorem bind_eq_error {x : Except ε α} {next : α → Except ε β} {e : ε} :
    x >>= next = .error e ↔ x = .error e ∨ ∃ a, x = .ok a ∧ next a = .error e := by
  cases x <;> simp [bind, Except.bind]

theorem map_eq_ok {x : Except ε α} {f : α → β} {b : β} :
    x.map f = .ok b ↔ ∃ a, x = .ok a ∧ f a = b := by
  cases x <;> simp [Except.map]

section Changes

variable {α' β' : Type} {x : Except ε α} {f : α → α'} {next : α → Except ε β} {g : β → β'}

/-- A change that the next step makes to its result is made to the result of both steps. -/
theorem bind_eq_map {next' : α → Except ε β'} (hnext : ∀ a, next' a = (next a).map g) :
    x >>= next' = (x >>= next).map g := by
  cases x with
  | error e => rfl
  | ok a => exact hnext a

/-- So is a change that the next step takes over. -/
theorem map_bind_eq_map {next' : α' → Except ε β'} (hnext : ∀ a, next' (f a) = (next a).map g) :
    x.map f >>= next' = (x >>= next).map g := by
  cases x with
  | error e => rfl
  | ok a => exact hnext a

end Changes

theorem toOption_eq_some {x : Except ε α} {a : α} : x.toOption = some a ↔ x = .ok a := by
  cases x <;> simp [Except.toOption]

/-- Going through a list succeeds when every step does, and gives their results in order. -/
theorem mapM_eq_ok {f : α → Except ε β} {items : List α} {results : List β} :
    items.mapM f = .ok results ↔ List.Forall₂ (fun item result => f item = .ok result)
      items results := by
  induction items generalizing results with
  | nil => simp [pure, Except.pure, eq_comm]
  | cons item rest ih =>
      rw [List.mapM_cons, bind_eq_ok]
      constructor
      · rintro ⟨first, hfirst, hothers⟩
        obtain ⟨others, hrest, hresults⟩ := bind_eq_ok.mp hothers
        obtain rfl : first :: others = results := by simpa [pure, Except.pure] using hresults
        exact .cons hfirst (ih.mp hrest)
      · intro hall
        obtain ⟨first, others, hfirst, hrest, rfl⟩ := List.forall₂_cons_left_iff.mp hall
        refine ⟨first, hfirst, ?_⟩
        rw [ih.mpr hrest]
        rfl

theorem exists_of_mapM_eq_error {f : α → Except ε β} {items : List α} {e : ε}
    (herror : items.mapM f = .error e) : ∃ item ∈ items, f item = .error e := by
  induction items with
  | nil => cases herror
  | cons item rest ih =>
      rw [List.mapM_cons] at herror
      rcases bind_eq_error.mp herror with hfirst | ⟨first, -, hothers⟩
      · exact ⟨item, List.mem_cons_self, hfirst⟩
      rcases bind_eq_error.mp hothers with hrest | ⟨others, -, hdone⟩
      · obtain ⟨other, hother, hfailed⟩ := ih hrest
        exact ⟨other, List.mem_cons_of_mem _ hother, hfailed⟩
      · cases hdone

theorem exists_forall₂ {related : α → β → Prop} {items : List α}
    (htotal : ∀ item ∈ items, ∃ result, related item result) :
    ∃ results, List.Forall₂ related items results := by
  induction items with
  | nil => exact ⟨[], .nil⟩
  | cons item rest ih =>
      obtain ⟨first, hfirst⟩ := htotal item List.mem_cons_self
      obtain ⟨others, hrest⟩ := ih fun other hother => htotal other (List.mem_cons_of_mem _ hother)
      exact ⟨first :: others, .cons hfirst hrest⟩

/-- What is on the right of two related lists is related to something on the left. -/
theorem exists_mem_left {related : α → β → Prop} {items : List α} {results : List β}
    (hall : List.Forall₂ related items results) {result : β} (hresult : result ∈ results) :
    ∃ item ∈ items, related item result := by
  induction hall with
  | nil => simp at hresult
  | cons hfirst _ ih =>
      rcases List.mem_cons.mp hresult with rfl | hrest
      · exact ⟨_, List.mem_cons_self, hfirst⟩
      · obtain ⟨item, hitem, hrelated⟩ := ih hrest
        exact ⟨item, List.mem_cons_of_mem _ hitem, hrelated⟩

theorem exists_mem_right {related : α → β → Prop} {items : List α} {results : List β}
    (hall : List.Forall₂ related items results) {item : α} (hitem : item ∈ items) :
    ∃ result ∈ results, related item result := by
  obtain ⟨result, hresult, hrelated⟩ := exists_mem_left hall.flip hitem
  exact ⟨result, hresult, hrelated⟩

end HttpBinding
