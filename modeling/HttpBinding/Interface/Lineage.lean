/-!
# Lineages

A declared name may have parents, which are declared before it. Its lineage is
the name itself followed by its ancestors, ordered so that every name stands
before its own parents and the parents of a name keep the order in which they
were listed. What a descendant declares takes precedence over what stands
later in its lineage.
-/

namespace HttpBinding.Lineage

/-- The first name that heads a list and stands behind the head of none. -/
def candidate? (lists : List (List String)) : Option String :=
  (lists.filterMap List.head?).find? fun name => lists.all fun names => !names.tail.contains name

/-- A list without a name at its head. -/
def dropHead (name : String) (names : List String) : List String :=
  if names.head? = some name then names.tail else names

theorem length_dropHead_le (name : String) (names : List String) :
    (dropHead name names).length ≤ names.length := by
  unfold dropHead
  split <;> simp

theorem length_dropHead_lt {name : String} {names : List String} (h : names.head? = some name) :
    (dropHead name names).length < names.length := by
  cases names with
  | nil => simp at h
  | cons first rest => simp [dropHead, h]

/-- Lists without a name at their heads. -/
def dropHeads (name : String) (lists : List (List String)) : List (List String) :=
  lists.map (dropHead name)

/-- The number of names in several lists. -/
def size : List (List String) → Nat
  | [] => 0
  | names :: rest => names.length + size rest

theorem size_dropHeads_le (name : String) (lists : List (List String)) :
    size (dropHeads name lists) ≤ size lists := by
  induction lists with
  | nil => simp [size, dropHeads]
  | cons names rest ih =>
    have := length_dropHead_le name names
    simp only [size, dropHeads, List.map_cons] at ih ⊢
    omega

theorem size_dropHeads_lt {name : String} {lists : List (List String)}
    (h : ∃ names ∈ lists, names.head? = some name) :
    size (dropHeads name lists) < size lists := by
  induction lists with
  | nil => simp at h
  | cons names rest ih =>
    obtain ⟨headed, hmem, hhead⟩ := h
    have hrest := size_dropHeads_le name rest
    have hnames := length_dropHead_le name names
    simp only [size, dropHeads, List.map_cons] at ih hrest ⊢
    rcases List.mem_cons.1 hmem with rfl | hmem
    · have := length_dropHead_lt hhead
      omega
    · have := ih ⟨headed, hmem, hhead⟩
      omega

theorem exists_head_of_candidate? {lists : List (List String)} {name : String}
    (h : candidate? lists = some name) : ∃ names ∈ lists, names.head? = some name := by
  have hmem := List.mem_of_find?_eq_some h
  simpa using hmem

/-- Merges lists into one that keeps the order of each, as far as there is such an order. -/
def merge (lists : List (List String)) : List String :=
  match _h : candidate? lists with
  | none => []
  | some name => name :: merge (dropHeads name lists)
termination_by size lists
decreasing_by exact size_dropHeads_lt (exists_head_of_candidate? _h)

/-- Whether there is one order that keeps the orders of all lists: their merge lacks no name. -/
def agree (lists : List (List String)) : Bool :=
  lists.flatten.all (merge lists).contains

/-- The orders that a lineage keeps: the lineages of the parents, and the parents themselves. -/
def ofParents (known : List (String × List String)) (parents : List String) :
    List (List String) :=
  parents.map (fun parent => (known.lookup parent).getD [parent]) ++ [parents]

/-- The lineage of a name with parents, given the lineages of what was declared before. -/
def extend (known : List (String × List String)) (name : String) (parents : List String) :
    List String :=
  name :: merge (ofParents known parents)

/-- The lineages of names that are declared one after another, each with its parents. -/
def ofDeclared (declared : List (String × List String)) : List (String × List String) :=
  declared.foldl (fun known entry => (entry.1, extend known entry.1 entry.2) :: known) []

/-- The lineage of one of the names that are declared with their parents. -/
def of (declared : List (String × List String)) (name : String) : List String :=
  ((ofDeclared declared).lookup name).getD [name]

end HttpBinding.Lineage
