import HttpBinding.Entries
import Mathlib.Data.List.Induction
import Mathlib.Data.List.Nodup

/-!
# Operations on ordered entries

Putting, extending and erasing keep the keys distinct, and everything that they leave
was there before or comes from what was given. Where the keys are distinct, an
operation on the first entry of a key is one on all of its entries: putting replaces
in place, and erasing keeps everything else.
-/

namespace HttpBinding.Entries

section Lists

variable {α γ : Type} [DecidableEq α] {key : α} {values : List γ}

/-- An entry after values were added is an entry from before or the one that they were added to. -/
theorem mem_extend {entries : Entries α (List γ)} {entry : α × List γ}
    (hentry : entry ∈ entries.extend key values) :
    entry ∈ entries ∨ entry = (key, values) ∨
      ∃ old, (key, old) ∈ entries ∧ entry = (key, old ++ values) := by
  induction entries with
  | nil => exact Or.inr (Or.inl (List.mem_singleton.mp hentry))
  | cons first rest ih =>
      obtain ⟨k, old⟩ := first
      rw [extend] at hentry
      split at hentry
      next hk =>
        subst hk
        rcases List.mem_cons.mp hentry with rfl | hrest
        · exact Or.inr (Or.inr ⟨old, List.mem_cons_self, rfl⟩)
        · exact Or.inl (List.mem_cons_of_mem _ hrest)
      next =>
        rcases List.mem_cons.mp hentry with rfl | hrest
        · exact Or.inl List.mem_cons_self
        rcases ih hrest with hmem | hnew | ⟨old', hold, heq⟩
        · exact Or.inl (List.mem_cons_of_mem _ hmem)
        · exact Or.inr (Or.inl hnew)
        · exact Or.inr (Or.inr ⟨old', List.mem_cons_of_mem _ hold, heq⟩)

theorem extend_of_not_mem {entries : Entries α (List γ)} (hkey : key ∉ entries.keys) :
    entries.extend key values = entries ++ [(key, values)] := by
  induction entries with
  | nil => rfl
  | cons first rest ih =>
      obtain ⟨hk, hrest⟩ := List.ne_and_not_mem_of_not_mem_cons hkey
      rw [extend, if_neg (Ne.symm hk), ih hrest]
      rfl

theorem mem_extend_of_ne {entries : Entries α (List γ)} {entry : α × List γ} (hentry : entry ∈ entries)
    (hkey : entry.1 ≠ key) : entry ∈ entries.extend key values := by
  induction entries with
  | nil => cases hentry
  | cons first rest ih =>
      rw [extend]
      rcases List.mem_cons.mp hentry with rfl | hrest
      · rw [if_neg hkey]
        exact List.mem_cons_self
      · split
        · exact List.mem_cons_of_mem _ hrest
        · exact List.mem_cons_of_mem _ (ih hrest)

theorem filter_extend (holds : α → Bool) (key : α) (values : List γ) (entries : Entries α (List γ)) :
    (entries.extend key values).filter (fun entry => holds entry.1) =
      if holds key then extend key values (entries.filter fun entry => holds entry.1)
      else entries.filter fun entry => holds entry.1 := by
  induction entries with
  | nil =>
      rw [extend, List.filter_cons]
      split <;> rfl
  | cons first rest ih =>
      rw [extend]
      split
      next hkey =>
        subst hkey
        rw [List.filter_cons, List.filter_cons]
        split
        · rw [extend, if_pos rfl]
        · rfl
      next hkey =>
        rw [List.filter_cons, List.filter_cons, ih]
        split
        · split
          · rw [extend, if_neg hkey]
          · rfl
        · rfl

/-- An item stands in the list that a key holds. -/
def Has (entries : Entries α (List γ)) (key : α) (item : γ) : Prop :=
  ∃ values, (key, values) ∈ entries ∧ item ∈ values

theorem has_extend_self {entries : Entries α (List γ)} {item : γ} (hitem : item ∈ values) :
    (entries.extend key values).Has key item := by
  induction entries with
  | nil => exact ⟨values, List.mem_singleton_self _, hitem⟩
  | cons first rest ih =>
      rw [extend]
      split
      next hkey =>
        refine ⟨first.2 ++ values, ?_, List.mem_append_right _ hitem⟩
        rw [← hkey]
        exact List.mem_cons_self
      next =>
        obtain ⟨all, hall, hmem⟩ := ih
        exact ⟨all, List.mem_cons_of_mem _ hall, hmem⟩

theorem Has.extend {entries : Entries α (List γ)} {name : α} {item : γ} (hhas : entries.Has name item) :
    (entries.extend key values).Has name item := by
  induction entries with
  | nil =>
      obtain ⟨old, hold, -⟩ := hhas
      cases hold
  | cons first rest ih =>
      obtain ⟨old, hold, hitem⟩ := hhas
      rw [Entries.extend]
      rcases List.mem_cons.mp hold with hfirst | hrest
      · rw [← hfirst]
        split
        · exact ⟨old ++ values, List.mem_cons_self, List.mem_append_left _ hitem⟩
        · exact ⟨old, List.mem_cons_self, hitem⟩
      · split
        · exact ⟨old, List.mem_cons_of_mem _ hrest, hitem⟩
        · obtain ⟨all, hall, hmem⟩ := ih ⟨old, hrest, hitem⟩
          exact ⟨all, List.mem_cons_of_mem _ hall, hmem⟩

/-- Entries with every item of every list replaced. -/
def mapLists {δ : Type} (f : γ → δ) (entries : Entries α (List γ)) : Entries α (List δ) :=
  List.map (fun entry => (entry.1, entry.2.map f)) entries

theorem extend_mapLists {δ : Type} (f : γ → δ) (key : α) (values : List γ) (entries : Entries α (List γ)) :
    (entries.mapLists f).extend key (values.map f) = (entries.extend key values).mapLists f := by
  unfold mapLists
  induction entries with
  | nil => rfl
  | cons first rest ih =>
      rw [List.map_cons, extend, extend]
      by_cases hkey : first.1 = key
      · rw [if_pos hkey, if_pos hkey, List.map_cons, List.map_append]
      · rw [if_neg hkey, if_neg hkey, List.map_cons, ih]

/-- Entries with more items after those of every list. -/
def appendLists (added : α → List γ) (entries : Entries α (List γ)) : Entries α (List γ) :=
  List.map (fun entry => (entry.1, entry.2 ++ added entry.1)) entries

omit [DecidableEq α] in
theorem appendLists_cons (added : α → List γ) (entry : α × List γ) (rest : Entries α (List γ)) :
    appendLists added (entry :: rest) = (entry.1, entry.2 ++ added entry.1) :: rest.appendLists added :=
  rfl

omit [DecidableEq α] in
theorem appendLists_of_nil {added : α → List γ} {entries : Entries α (List γ)}
    (hadded : ∀ entry ∈ entries, added entry.1 = []) : entries.appendLists added = entries := by
  refine (List.map_congr_left ?_).trans (List.map_id entries)
  intro entry hentry
  rw [hadded entry hentry, List.append_nil, id]

omit [DecidableEq α] in
theorem appendLists_append (added : α → List γ) (entries later : Entries α (List γ)) :
    appendLists added (entries ++ later) = entries.appendLists added ++ later.appendLists added :=
  List.map_append

omit [DecidableEq α] in
theorem appendLists_appendLists (added later : α → List γ) (entries : Entries α (List γ)) :
    (entries.appendLists added).appendLists later =
      entries.appendLists fun key => added key ++ later key := by
  simp [appendLists]

theorem extend_of_mem {entries : Entries α (List γ)} (hnodup : entries.keys.Nodup)
    (hkey : key ∈ entries.keys) :
    entries.extend key values = entries.appendLists fun k => if k = key then values else [] := by
  induction entries with
  | nil => cases hkey
  | cons first rest ih =>
      obtain ⟨hfirst, hrest⟩ := List.nodup_cons.mp hnodup
      rw [extend, appendLists_cons]
      by_cases hsame : first.1 = key
      · have hothers : ∀ entry ∈ rest, (if entry.1 = key then values else []) = [] := by
          intro entry hentry
          refine if_neg ?_
          rintro rfl
          exact hfirst (hsame ▸ List.mem_map_of_mem hentry)
        rw [if_pos hsame, if_pos hsame, appendLists_of_nil hothers]
      · rw [if_neg hsame, if_neg hsame, List.append_nil,
          ih hrest ((List.mem_cons.mp hkey).resolve_left (Ne.symm hsame))]

theorem mem_keys_extend {entries : Entries α (List γ)} {name : α} :
    name ∈ (entries.extend key values).keys ↔ name ∈ entries.keys ∨ name = key := by
  rw [keys_extend]
  split
  next hmem =>
    constructor
    · exact Or.inl
    · rintro (hold | rfl)
      · exact hold
      · exact hmem
  next => simp

theorem nodup_keys_extend {entries : Entries α (List γ)} (hnodup : entries.keys.Nodup) :
    (entries.extend key values).keys.Nodup := by
  rw [keys_extend]
  split
  next => exact hnodup
  next hkey =>
    refine List.nodup_append.mpr
      ⟨hnodup, List.nodup_cons.mpr ⟨List.not_mem_nil, List.nodup_nil⟩, ?_⟩
    rintro a ha b hb rfl
    exact hkey (List.mem_singleton.mp hb ▸ ha)

end Lists

section Values

variable {α β : Type} [DecidableEq α] {key : α} {value : β} {entries : Entries α β}

omit [DecidableEq α] in
@[simp]
theorem keys_cons (entry : α × β) (entries : Entries α β) :
    keys (entry :: entries) = entry.1 :: entries.keys := rfl

omit [DecidableEq α] in
@[simp]
theorem keys_append (entries later : Entries α β) :
    keys (entries ++ later) = entries.keys ++ later.keys :=
  List.map_append

omit [DecidableEq α] in
theorem fst_ne_of_not_mem (hkey : key ∉ entries.keys) {entry : α × β} (hentry : entry ∈ entries) :
    entry.1 ≠ key := by
  rintro rfl
  exact hkey (List.mem_map_of_mem hentry)

theorem find?_of_mem (hnodup : entries.keys.Nodup) {entry : α × β}
    (hentry : entry ∈ entries) : entries.find? (fun e => decide (e.1 = entry.1)) = some entry := by
  cases hfound : entries.find? fun e => decide (e.1 = entry.1) with
  | none =>
      have hnone := List.find?_eq_none.mp hfound entry hentry
      simp at hnone
  | some found =>
      have hkey : found.1 = entry.1 := by simpa using List.find?_some hfound
      have hmem : found ∈ entries := List.mem_of_find?_eq_some hfound
      rw [List.inj_on_of_nodup_map hnodup hmem hentry hkey]

theorem mem_put {entry : α × β} (hentry : entry ∈ entries.put key value) :
    entry ∈ entries ∨ entry = (key, value) := by
  induction entries with
  | nil => exact Or.inr (List.mem_singleton.mp hentry)
  | cons first rest ih =>
      rw [put] at hentry
      split at hentry
      · rcases List.mem_cons.mp hentry with rfl | hrest
        · exact Or.inr rfl
        · exact Or.inl (List.mem_cons_of_mem _ hrest)
      · rcases List.mem_cons.mp hentry with rfl | hrest
        · exact Or.inl List.mem_cons_self
        · exact (ih hrest).imp_left (List.mem_cons_of_mem _)

theorem put_of_not_mem (hkey : key ∉ entries.keys) :
    entries.put key value = entries ++ [(key, value)] := by
  induction entries with
  | nil => rfl
  | cons first rest ih =>
      have hne : first.1 ≠ key := fun heq => hkey (heq ▸ List.mem_cons_self)
      have hrest : key ∉ keys rest := fun hmem => hkey (List.mem_cons_of_mem _ hmem)
      rw [put, if_neg hne, ih hrest, List.cons_append]

theorem put_of_mem (hnodup : entries.keys.Nodup) (hkey : key ∈ entries.keys) :
    entries.put key value =
      entries.map fun entry => if entry.1 = key then (key, value) else entry := by
  induction entries with
  | nil => simp [keys] at hkey
  | cons first rest ih =>
      obtain ⟨hfirst, hrest⟩ := List.nodup_cons.mp hnodup
      by_cases heq : first.1 = key
      · -- No later entry has the key, so that the rest is mapped to itself.
        rw [heq] at hfirst
        have hkept : ∀ entry ∈ rest, (if entry.1 = key then (key, value) else entry) = entry := by
          intro entry hentry
          exact if_neg (fst_ne_of_not_mem hfirst hentry)
        rw [put, if_pos heq, List.map_cons, if_pos heq, List.map_congr_left hkept, List.map_id']
      · have hmem : key ∈ keys rest := (List.mem_cons.mp hkey).resolve_left (Ne.symm heq)
        rw [put, if_neg heq, ih hrest hmem, List.map_cons, if_neg heq]

theorem nodup_keys_put (hnodup : entries.keys.Nodup) : (entries.put key value).keys.Nodup := by
  rw [keys_put]
  split
  next => exact hnodup
  next hkey => simpa [List.nodup_append] using ⟨hnodup, fun a ha heq => hkey (heq ▸ ha)⟩

theorem erase_sublist (key : α) (entries : Entries α β) : (entries.erase key).Sublist entries := by
  induction entries with
  | nil => exact List.Sublist.slnil
  | cons first rest ih =>
      rw [erase]
      split
      · exact List.sublist_cons_self first rest
      · exact ih.cons_cons first

theorem erase_eq_filter (hnodup : entries.keys.Nodup) :
    entries.erase key = entries.filter fun entry => entry.1 ≠ key := by
  induction entries with
  | nil => rfl
  | cons first rest ih =>
      obtain ⟨hfirst, hrest⟩ := List.nodup_cons.mp hnodup
      by_cases heq : first.1 = key
      · rw [heq] at hfirst
        have hall : rest.filter (fun entry => entry.1 ≠ key) = rest := by
          refine List.filter_eq_self.mpr ?_
          intro entry hentry
          exact decide_eq_true (fst_ne_of_not_mem hfirst hentry)
        rw [erase, if_pos heq, List.filter_cons_of_neg (by simp [heq]), hall]
      · simp [erase, heq, ih hrest]

/-! ## Entries from pairs -/

theorem nodup_keys_foldl_put (pairs : List (α × β)) (hnodup : entries.keys.Nodup) :
    (pairs.foldl (fun entries pair => entries.put pair.1 pair.2) entries).keys.Nodup := by
  induction pairs generalizing entries with
  | nil => exact hnodup
  | cons pair rest ih => exact ih (nodup_keys_put hnodup)

theorem nodup_keys_ofPairs (pairs : List (α × β)) : (ofPairs pairs).keys.Nodup :=
  nodup_keys_foldl_put pairs List.nodup_nil

theorem mem_foldl_put (pairs : List (α × β)) {entry : α × β}
    (hentry : entry ∈ pairs.foldl (fun entries pair => entries.put pair.1 pair.2) entries) :
    entry ∈ entries ∨ entry ∈ pairs := by
  induction pairs generalizing entries with
  | nil => exact Or.inl hentry
  | cons pair rest ih =>
      rcases ih hentry with hput | hrest
      · rcases mem_put hput with hold | rfl
        · exact Or.inl hold
        · exact Or.inr List.mem_cons_self
      · exact Or.inr (List.mem_cons_of_mem _ hrest)

theorem mem_of_mem_ofPairs {pairs : List (α × β)} {entry : α × β}
    (hentry : entry ∈ ofPairs pairs) : entry ∈ pairs := by
  simpa using mem_foldl_put pairs hentry

/-- Pairs with new keys are put at the end, one after another. -/
theorem foldl_put_of_nodup {done pairs : Entries α β} (hnodup : (done.keys ++ pairs.keys).Nodup) :
    pairs.foldl (fun entries pair => entries.put pair.1 pair.2) done = done ++ pairs := by
  induction pairs generalizing done with
  | nil => simp
  | cons pair rest ih =>
      have hkey : pair.1 ∉ done.keys := fun hmem =>
        List.disjoint_of_nodup_append hnodup hmem List.mem_cons_self
      have hnext : (Entries.keys (done ++ [pair]) ++ Entries.keys rest).Nodup := by
        simpa [keys] using hnodup
      rw [List.foldl_cons, put_of_not_mem hkey, ih hnext, List.append_assoc, List.singleton_append]

theorem ofPairs_eq_self {pairs : List (α × β)} (hnodup : (pairs.map Prod.fst).Nodup) :
    ofPairs pairs = pairs := by
  have hdistinct : (keys ([] : Entries α β) ++ keys pairs).Nodup := hnodup
  exact foldl_put_of_nodup hdistinct

/-! ## The first entry of a key -/

section First

variable {before after : Entries α β} (hkey : key ∉ before.keys)

include hkey

theorem put_append_cons (old value : β) :
    Entries.put key value (before ++ (key, old) :: after) = before ++ (key, value) :: after := by
  induction before with
  | nil => simp [put]
  | cons first rest ih =>
      obtain ⟨hfirst, hrest⟩ := List.ne_and_not_mem_of_not_mem_cons hkey
      rw [List.cons_append, put, if_neg (Ne.symm hfirst), ih hrest, List.cons_append]

theorem erase_append_cons (old : β) :
    Entries.erase key (before ++ (key, old) :: after) = before ++ after := by
  induction before with
  | nil => simp [erase]
  | cons first rest ih =>
      obtain ⟨hfirst, hrest⟩ := List.ne_and_not_mem_of_not_mem_cons hkey
      rw [List.cons_append, erase, if_neg (Ne.symm hfirst), ih hrest, List.cons_append]

end First

/-- Of two pairs with one key the first gives the place and the second the value. -/
theorem ofPairs_of_repeated {before middle after : Entries α β} (first last : β)
    (hnodup : (key :: keys (before ++ (middle ++ after))).Nodup) :
    ofPairs (before ++ (key, first) :: (middle ++ (key, last) :: after)) =
      before ++ (key, last) :: (middle ++ after) := by
  have hbefore : key ∉ before.keys := by
    intro hmem
    exact (List.nodup_cons.mp hnodup).1 (by simp [hmem])
  have hstart : (keys (before ++ (key, first) :: middle)).Nodup := by
    rw [keys_append, keys_cons, List.nodup_middle, ← keys_append]
    refine hnodup.sublist (List.Sublist.cons_cons key (List.Sublist.map Prod.fst ?_))
    exact (List.Sublist.refl before).append (List.sublist_append_left middle after)
  have hrest : (keys (before ++ (key, last) :: middle) ++ keys after).Nodup := by
    simpa [List.nodup_middle] using hnodup
  calc ofPairs (before ++ (key, first) :: (middle ++ (key, last) :: after))
      = after.foldl (fun entries pair => entries.put pair.1 pair.2)
          ((ofPairs (before ++ (key, first) :: middle)).put key last) := by
        simp [ofPairs]
    _ = after.foldl (fun entries pair => entries.put pair.1 pair.2)
          (before ++ (key, last) :: middle) := by
        rw [ofPairs_eq_self hstart, put_append_cons hbefore]
    _ = before ++ (key, last) :: (middle ++ after) := by
        rw [foldl_put_of_nodup hrest, List.append_assoc, List.cons_append]

theorem erase_of_not_mem (hkey : key ∉ entries.keys) : entries.erase key = entries := by
  induction entries with
  | nil => rfl
  | cons first rest ih =>
      obtain ⟨hfirst, hrest⟩ := List.ne_and_not_mem_of_not_mem_cons hkey
      rw [erase, if_neg (Ne.symm hfirst), ih hrest]

end Values

/-! ## Looking up -/

section Lookup

variable {α β : Type} [DecidableEq α] {entries : Entries α β}

theorem lookup_cons (key : α) (value : β) (rest : Entries α β) (name : α) :
    List.lookup name ((key, value) :: rest) =
      if name = key then some value else rest.lookup name := by
  rw [List.lookup_cons]
  by_cases hname : name = key
  · simp [hname]
  · rw [beq_false_of_ne hname, if_neg hname]

theorem lookup_put (key : α) (value : β) (entries : Entries α β) (name : α) :
    (entries.put key value).lookup name =
      if name = key then some value else entries.lookup name := by
  induction entries with
  | nil => rw [put, lookup_cons]
  | cons first rest ih =>
      obtain ⟨k, v⟩ := first
      by_cases hk : k = key
      · subst hk
        rw [put, if_pos rfl, lookup_cons, lookup_cons]
        by_cases hname : name = k <;> simp [hname]
      · rw [put, if_neg hk, lookup_cons, lookup_cons, ih]
        by_cases hname : name = k
        · simp [hname, hk]
        · simp [hname]

/-- What is added under a key comes after what it holds. -/
theorem lookup_extend {γ : Type} (key : α) (values : List γ) (entries : Entries α (List γ)) (name : α) :
    ((entries.extend key values).lookup name).getD [] =
      (entries.lookup name).getD [] ++ if name = key then values else [] := by
  induction entries with
  | nil =>
      rw [extend, lookup_cons]
      split <;> simp
  | cons first rest ih =>
      obtain ⟨k, old⟩ := first
      by_cases hk : k = key
      · subst hk
        rw [extend, if_pos rfl, lookup_cons, lookup_cons]
        split <;> simp
      · rw [extend, if_neg hk, lookup_cons, lookup_cons]
        by_cases hname : name = k
        · simp [hname, hk]
        · simpa [hname] using ih

theorem lookup_foldl_put (pairs : List (α × β)) (entries : Entries α β) (name : α) :
    (pairs.foldl (fun entries pair => entries.put pair.1 pair.2) entries).lookup name =
      (pairs.reverse.lookup name).or (entries.lookup name) := by
  induction pairs generalizing entries with
  | nil => simp
  | cons pair rest ih =>
      obtain ⟨key, value⟩ := pair
      rw [List.foldl_cons, ih, lookup_put, List.reverse_cons, List.lookup_append, Option.or_assoc,
        lookup_cons]
      split <;> simp

/-- Under a key there is what was put last. -/
theorem lookup_ofPairs (pairs : List (α × β)) (name : α) :
    (ofPairs pairs).lookup name = pairs.reverse.lookup name := by
  rw [ofPairs, lookup_foldl_put, List.lookup_nil, Option.or_none]

theorem mem_of_lookup {key : α} {value : β} (hfound : entries.lookup key = some value) :
    (key, value) ∈ entries := by
  obtain ⟨before, after, rfl, -⟩ := List.lookup_eq_some_iff.mp hfound
  exact List.mem_append_right _ List.mem_cons_self

theorem lookup_eq_some_iff (hnodup : entries.keys.Nodup) {key : α} {value : β} :
    entries.lookup key = some value ↔ (key, value) ∈ entries := by
  constructor
  · exact mem_of_lookup
  · intro hmem
    cases hfound : entries.lookup key with
    | none =>
        have hnone := List.lookup_eq_none_iff.mp hfound (key, value) hmem
        simp at hnone
    | some found =>
        have hsame := List.inj_on_of_nodup_map hnodup (mem_of_lookup hfound) hmem rfl
        rw [(Prod.mk.inj hsame).2]

theorem isSome_lookup_reverse (entries : Entries α β) (name : α) :
    (entries.reverse.lookup name).isSome = (entries.lookup name).isSome := by
  rw [Bool.eq_iff_iff, List.lookup_isSome_iff, List.lookup_isSome_iff]
  simp

theorem lookup_eq_none_iff {name : α} : entries.lookup name = none ↔ name ∉ entries.keys := by
  rw [List.lookup_eq_none_iff]
  constructor
  · intro hdiffers hname
    obtain ⟨entry, hentry, rfl⟩ := List.mem_map.mp hname
    simpa using hdiffers entry hentry
  · intro habsent entry hentry
    rw [bne_iff_ne]
    rintro rfl
    exact habsent (List.mem_map_of_mem hentry)

theorem lookup_erase_of_ne {key name : α} (hname : name ≠ key) :
    (entries.erase key).lookup name = entries.lookup name := by
  induction entries with
  | nil => rfl
  | cons first rest ih =>
      obtain ⟨k, v⟩ := first
      rw [erase]
      split
      next hkey => rw [lookup_cons, if_neg (hkey ▸ hname)]
      next => rw [lookup_cons, lookup_cons, ih]

end Lookup

/-! ## Pairs that come together -/

section Gathering

variable {α γ : Type} [DecidableEq α]

/-- Where keys are distinct, entries are told by their keys and what is found under them. -/
theorem eq_map_keys {entries : Entries α (List γ)} (hnodup : entries.keys.Nodup) :
    entries = entries.keys.map fun key => (key, (entries.lookup key).getD []) := by
  unfold keys
  rw [List.map_map]
  refine ((List.map_congr_left ?_).trans (List.map_id entries)).symm
  intro entry hentry
  change (entry.1, (entries.lookup entry.1).getD []) = entry
  rw [(lookup_eq_some_iff hnodup).mpr hentry]
  rfl

/-- Pairs that come together under their keys. -/
def gathered (pairs : List (α × γ)) : Entries α (List γ) :=
  pairs.foldl (fun entries pair => entries.extend pair.1 [pair.2]) []

theorem gathered_append_singleton (pairs : List (α × γ)) (pair : α × γ) :
    gathered (pairs ++ [pair]) = (gathered pairs).extend pair.1 [pair.2] := by
  unfold gathered
  rw [List.foldl_append, List.foldl_cons, List.foldl_nil]

theorem keys_gathered (pairs : List (α × γ)) :
    (gathered pairs).keys = (pairs.map Prod.fst).eraseDups := by
  -- From the end, since a pair is added to what the pairs before it have made.
  induction pairs using List.reverseRecOn with
  | nil => rfl
  | append_singleton pairs pair ih =>
      rw [gathered_append_singleton, keys_extend, ih, List.map_append, List.eraseDups_append]
      by_cases hmem : pair.1 ∈ pairs.map Prod.fst
      · simp [hmem, List.removeAll]
      · simp [hmem, List.removeAll, List.eraseDups_cons]

theorem nodup_keys_gathered (pairs : List (α × γ)) : (gathered pairs).keys.Nodup := by
  induction pairs using List.reverseRecOn with
  | nil => exact List.nodup_nil
  | append_singleton pairs pair ih =>
      rw [gathered_append_singleton]
      exact nodup_keys_extend ih

theorem lookup_gathered (pairs : List (α × γ)) (key : α) :
    ((gathered pairs).lookup key).getD [] = (pairs.filter (·.1 = key)).map Prod.snd := by
  induction pairs using List.reverseRecOn with
  | nil => rfl
  | append_singleton pairs pair ih =>
      rw [gathered_append_singleton, lookup_extend, ih]
      by_cases hkey : key = pair.1
      · simp [hkey]
      · simp [hkey, Ne.symm hkey]

/-- Pairs whose keys are of some kind come together in the same way among others. -/
theorem filter_gathered (holds : α → Bool) (pairs : List (α × γ)) :
    (gathered pairs).filter (fun entry => holds entry.1) =
      gathered (pairs.filter fun pair => holds pair.1) := by
  induction pairs using List.reverseRecOn with
  | nil => rfl
  | append_singleton pairs pair ih =>
      rw [gathered_append_singleton, filter_extend holds, ih, List.filter_append,
        List.filter_singleton]
      cases holds pair.1 with
      | true => exact (gathered_append_singleton _ pair).symm
      | false => simp

/-- The first key of some kind is that of the first pair whose key is of this kind. -/
theorem find?_keys_gathered (holds : α → Bool) (pairs : List (α × γ)) :
    (gathered pairs).keys.find? holds = (pairs.map Prod.fst).find? holds := by
  induction pairs using List.reverseRecOn with
  | nil => rfl
  | append_singleton pairs pair ih =>
      rw [gathered_append_singleton, keys_extend, List.map_append, List.find?_append, ← ih]
      split
      next hmem =>
        cases hfound : (gathered pairs).keys.find? holds with
        | some key => rfl
        | none =>
            have hother := List.find?_eq_none.mp hfound pair.1 hmem
            simp [hother]
      next => rw [List.find?_append, List.map_singleton]

/-- Under the first key of some kind stands what the pairs with exactly this key hold. -/
theorem find?_gathered (holds : α → Bool) (pairs : List (α × γ)) :
    (gathered pairs).find? (fun entry => holds entry.1) =
      (pairs.find? fun pair => holds pair.1).map fun first =>
        (first.1, (pairs.filter (·.1 = first.1)).map Prod.snd) := by
  have hkeys : ((gathered pairs).find? fun entry => holds entry.1).map Prod.fst =
      (pairs.find? fun pair => holds pair.1).map Prod.fst := by
    have hfirst := find?_keys_gathered holds pairs
    rw [keys, List.find?_map, List.find?_map] at hfirst
    exact hfirst
  cases hfound : (gathered pairs).find? fun entry => holds entry.1 with
  | none =>
      rw [hfound, Option.map_none, eq_comm, Option.map_eq_none_iff] at hkeys
      rw [hkeys]
      rfl
  | some entry =>
      rw [hfound, Option.map_some, eq_comm, Option.map_eq_some_iff] at hkeys
      obtain ⟨first, hfirst, hkey⟩ := hkeys
      have hentry : (gathered pairs).lookup entry.1 = some entry.2 :=
        (lookup_eq_some_iff (nodup_keys_gathered pairs)).mpr (List.mem_of_find?_eq_some hfound)
      have hvalues := lookup_gathered pairs entry.1
      rw [hentry, Option.getD_some] at hvalues
      rw [hfirst, Option.map_some, hkey, ← hvalues]

end Gathering

/-! ## Keys with the same meaning -/

section Meanings

variable {α β γ : Type} [DecidableEq α] [DecidableEq γ] {entries : Entries α β} {meaning : α → γ}
  {name : α} {found : α × β}

omit [DecidableEq α] [DecidableEq γ] in
theorem nodup_keys_of_meanings (hnodup : (entries.map fun entry => meaning entry.1).Nodup) :
    entries.keys.Nodup := by
  refine List.Nodup.of_map meaning ?_
  simpa [keys, Function.comp_def] using hnodup

omit [DecidableEq α] in
/-- Of the keys with the meaning of a name there is one, which is the one that is found. -/
theorem fst_eq_iff_of_find? (hnodup : (entries.map fun entry => meaning entry.1).Nodup)
    (hfound : entries.find? (fun entry => decide (meaning entry.1 = meaning name)) = some found)
    {entry : α × β} (hentry : entry ∈ entries) :
    entry.1 = found.1 ↔ meaning entry.1 = meaning name := by
  have hmeaning : meaning found.1 = meaning name := by simpa using List.find?_some hfound
  constructor
  · intro heq
    rw [heq, hmeaning]
  · intro heq
    have hsame : meaning entry.1 = meaning found.1 := heq.trans hmeaning.symm
    have hmem : found ∈ entries := List.mem_of_find?_eq_some hfound
    rw [List.inj_on_of_nodup_map hnodup hentry hmem hsame]

theorem erase_of_find? (hnodup : (entries.map fun entry => meaning entry.1).Nodup)
    (hfound : entries.find? (fun entry => decide (meaning entry.1 = meaning name)) = some found) :
    entries.erase found.1 = entries.filter fun entry => meaning entry.1 ≠ meaning name := by
  rw [erase_eq_filter (nodup_keys_of_meanings hnodup)]
  apply List.filter_congr
  intro entry hentry
  simp [fst_eq_iff_of_find? hnodup hfound hentry]

omit [DecidableEq α] in
/-- No other entry has a key with the meaning of this one. -/
theorem filter_of_mem (hnodup : (entries.map fun entry => meaning entry.1).Nodup)
    {entry : α × β} (hentry : entry ∈ entries) :
    entries.filter (fun e => meaning e.1 = meaning entry.1) = [entry] := by
  induction entries with
  | nil => simp at hentry
  | cons first rest ih =>
      obtain ⟨hfirst, hrest⟩ := List.nodup_cons.mp hnodup
      have hne : ∀ e ∈ rest, meaning e.1 ≠ meaning first.1 := by
        intro e he heq
        exact hfirst (List.mem_map.mpr ⟨e, he, heq⟩)
      rcases List.mem_cons.mp hentry with rfl | hmem
      · rw [List.filter_cons_of_pos (by simp), List.filter_eq_nil_iff.mpr (by simpa using hne)]
      · rw [List.filter_cons_of_neg (by simpa using (hne entry hmem).symm), ih hrest hmem]

end Meanings

end HttpBinding.Entries
