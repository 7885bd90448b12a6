import HttpBinding.Client.Arguments
import HttpBinding.Proofs.Entries

/-!
# What a call binds

The rules of calling say of each parameter by itself what its value is: the argument at
its position, the keyword argument with its name, its default, or everything that no
other parameter claims. They say of a call as a whole that nothing may be left over or
given twice. Binding goes through the parameters once and finds exactly these values.
-/

namespace HttpBinding

namespace ParameterKind

/-- Whether an argument by position may fill a parameter alone. -/
def isPositional : ParameterKind → Bool
  | positionalOnly | normal => true
  | _ => false

/-- Whether an argument by keyword may fill a parameter alone. -/
def isNamed : ParameterKind → Bool
  | normal | keywordOnly => true
  | _ => false

/-- The place of a kind among the parameters of a function. -/
def rank : ParameterKind → Nat
  | positionalOnly => 0
  | normal => 1
  | variadic => 2
  | keywordOnly => 3
  | variadicKeyword => 4

/-- Whether a parameter of a kind may stand before one of another. -/
def precedes (kind later : ParameterKind) : Bool :=
  kind.rank < later.rank || (kind == later && (kind.isPositional || kind.isNamed))

/-- After all that is given by position only names are left. -/
theorem keyword_of_precedes {kind later : ParameterKind} (hkind : kind.isPositional = false)
    (hprecedes : kind.precedes later = true) : later.isPositional = false ∧ later ≠ .variadic := by
  cases kind <;> cases later <;> simp_all [precedes, rank, isPositional, isNamed]

theorem not_precedes_variadicKeyword (later : ParameterKind) :
    variadicKeyword.precedes later = false := by
  cases later <;> rfl

end ParameterKind

namespace ParameterDecl

variable {p : ParameterDecl} {ps rest : List ParameterDecl} {arguments arguments' : List Value}
  {keywords keywords' : Keywords} {value : Value} {values : List Value} {i : Nat}

/-- The parameters of a function: their kinds are in order, and no two have the same name. -/
structure IsSignature (ps : List ParameterDecl) : Prop where
  ordered : ps.Pairwise fun p later => p.kind.precedes later.kind = true
  names : (ps.map ParameterDecl.name).Nodup

/-- The keyword arguments that no parameter claims by its name. -/
def unclaimed (ps : List ParameterDecl) (keywords : Keywords) : Keywords :=
  keywords.filter fun entry => !ps.any fun p => p.kind.isNamed && p.name == entry.1

/-- The value of the parameter at a position. -/
inductive Fills (ps : List ParameterDecl) (arguments : List Value) (keywords : Keywords)
    (i : Nat) (p : ParameterDecl) : Value → Prop
  | position {value : Value} (hkind : p.kind.isPositional = true)
      (hvalue : arguments[i]? = some value) : Fills ps arguments keywords i p value
  | keyword {value : Value} (hkind : p.kind.isNamed = true)
      (hleft : p.kind.isPositional = true → arguments.length ≤ i)
      (hvalue : keywords.lookup p.name = some value) : Fills ps arguments keywords i p value
  | default {value : Value} (hkind : p.kind.isPositional = true ∨ p.kind.isNamed = true)
      (hleft : p.kind.isPositional = true → arguments.length ≤ i)
      (habsent : p.kind.isNamed = true → keywords.lookup p.name = none)
      (hvalue : p.default = some value) : Fills ps arguments keywords i p value
  | rest (hkind : p.kind = .variadic) : Fills ps arguments keywords i p (.tuple (arguments.drop i))
  | others (hkind : p.kind = .variadicKeyword) :
      Fills ps arguments keywords i p (mappingOf (unclaimed ps keywords))

/-- No argument by position is left over. -/
def Seats (ps : List ParameterDecl) (arguments : List Value) : Prop :=
  (∃ p ∈ ps, p.kind = .variadic) ∨ arguments.length ≤ ps.countP fun p => p.kind.isPositional

/-- No argument by keyword is left over. -/
def Claims (ps : List ParameterDecl) (keywords : Keywords) : Prop :=
  (∃ p ∈ ps, p.kind = .variadicKeyword) ∨
    ∀ name ∈ keywords.keys, ∃ p ∈ ps, p.kind.isNamed = true ∧ p.name = name

/-- A call gives the parameters their values, with nothing left over and nothing given twice. -/
structure Binds (ps : List ParameterDecl) (arguments : List Value) (keywords : Keywords)
    (values : List Value) : Prop where
  length : values.length = ps.length
  filled : ∀ i p value, ps[i]? = some p → values[i]? = some value →
    Fills ps arguments keywords i p value
  seats : Seats ps arguments
  claims : Claims ps keywords
  once : ∀ i p, ps[i]? = some p → p.kind = .normal → i < arguments.length →
    keywords.lookup p.name = none

/-! ## One parameter more -/

section Cons

/-- What is left of a call for the parameters behind the first one. -/
structure Leaves (p : ParameterDecl) (rest : List ParameterDecl) (arguments : List Value)
    (keywords : Keywords) (arguments' : List Value) (keywords' : Keywords) : Prop where
  positions : ∀ q ∈ rest, q.kind.isPositional = true ∨ q.kind = .variadic →
    arguments' = arguments.tail
  names : ∀ q ∈ rest, q.kind.isNamed = true → keywords.lookup q.name = keywords'.lookup q.name
  others : (∃ q ∈ rest, q.kind = .variadicKeyword) →
    unclaimed (p :: rest) keywords = unclaimed rest keywords'
  seats : Seats (p :: rest) arguments ↔ Seats rest arguments'
  claims : Claims (p :: rest) keywords ↔ Claims rest keywords'

variable {q : ParameterDecl}

theorem Leaves.fills_iff (hleaves : Leaves p rest arguments keywords arguments' keywords')
    (hq : q ∈ rest) : Fills (p :: rest) arguments keywords (i + 1) q value ↔
      Fills rest arguments' keywords' i q value := by
  have hleft : q.kind.isPositional = true →
      (arguments.length ≤ i + 1 ↔ arguments'.length ≤ i) := by
    intro hkind
    rw [hleaves.positions q hq (Or.inl hkind), List.length_tail]
    omega
  constructor
  · intro hfills
    cases hfills with
    | position hkind hvalue =>
        refine .position hkind ?_
        rwa [hleaves.positions q hq (Or.inl hkind), List.getElem?_tail]
    | keyword hkind hover hvalue =>
        refine .keyword hkind (fun hposition => (hleft hposition).mp (hover hposition)) ?_
        rwa [← hleaves.names q hq hkind]
    | default hkind hover habsent hvalue =>
        refine .default hkind (fun hposition => (hleft hposition).mp (hover hposition)) ?_ hvalue
        intro hnamed
        rw [← hleaves.names q hq hnamed]
        exact habsent hnamed
    | rest hkind =>
        rw [← List.drop_tail, ← hleaves.positions q hq (Or.inr hkind)]
        exact .rest hkind
    | others hkind =>
        rw [hleaves.others ⟨q, hq, hkind⟩]
        exact .others hkind
  · intro hfills
    cases hfills with
    | position hkind hvalue =>
        refine .position hkind ?_
        rwa [← List.getElem?_tail, ← hleaves.positions q hq (Or.inl hkind)]
    | keyword hkind hover hvalue =>
        refine .keyword hkind (fun hposition => (hleft hposition).mpr (hover hposition)) ?_
        rwa [hleaves.names q hq hkind]
    | default hkind hover habsent hvalue =>
        refine .default hkind (fun hposition => (hleft hposition).mpr (hover hposition)) ?_ hvalue
        intro hnamed
        rw [hleaves.names q hq hnamed]
        exact habsent hnamed
    | rest hkind =>
        rw [hleaves.positions q hq (Or.inr hkind), List.drop_tail]
        exact .rest hkind
    | others hkind =>
        rw [← hleaves.others ⟨q, hq, hkind⟩]
        exact .others hkind

/-- The first parameter has its value, and what is left binds to the others. -/
theorem Leaves.binds_iff (hleaves : Leaves p rest arguments keywords arguments' keywords') :
    Binds (p :: rest) arguments keywords (value :: values) ↔
      Fills (p :: rest) arguments keywords 0 p value ∧
        (p.kind = .normal → arguments ≠ [] → keywords.lookup p.name = none) ∧
        Binds rest arguments' keywords' values := by
  have hlonger : ∀ i, ∀ q ∈ rest, q.kind = .normal →
      (i + 1 < arguments.length ↔ i < arguments'.length) := by
    intro i q hq hkind
    have hpositional : q.kind.isPositional = true := by
      rw [hkind]
      rfl
    rw [hleaves.positions q hq (Or.inl hpositional), List.length_tail]
    omega
  have hnamed : ∀ q ∈ rest, q.kind = .normal →
      keywords.lookup q.name = keywords'.lookup q.name := by
    intro q hq hkind
    refine hleaves.names q hq ?_
    rw [hkind]
    rfl
  constructor
  · intro hbinds
    refine ⟨hbinds.filled 0 p value rfl rfl, ?_, ?_⟩
    · intro hkind hne
      exact hbinds.once 0 p rfl hkind (List.length_pos_of_ne_nil hne)
    · refine ⟨Nat.succ.inj hbinds.length, ?_, hleaves.seats.mp hbinds.seats,
        hleaves.claims.mp hbinds.claims, ?_⟩
      · intro i q v hq hv
        exact (hleaves.fills_iff (List.mem_of_getElem? hq)).mp (hbinds.filled (i + 1) q v hq hv)
      · intro i q hq hkind hlt
        have hmem := List.mem_of_getElem? hq
        rw [← hnamed q hmem hkind]
        exact hbinds.once (i + 1) q hq hkind ((hlonger i q hmem hkind).mpr hlt)
  · rintro ⟨hfirst, honce, hrest⟩
    refine ⟨congrArg Nat.succ hrest.length, ?_, hleaves.seats.mpr hrest.seats,
      hleaves.claims.mpr hrest.claims, ?_⟩
    · rintro (_ | i) q v hq hv
      · obtain rfl := Option.some.inj hq
        obtain rfl := Option.some.inj hv
        exact hfirst
      · exact (hleaves.fills_iff (List.mem_of_getElem? hq)).mpr (hrest.filled i q v hq hv)
    · rintro (_ | i) q hq hkind hlt
      · obtain rfl := Option.some.inj hq
        exact honce hkind (List.ne_nil_of_length_pos hlt)
      · have hmem : q ∈ rest := List.mem_of_getElem? hq
        rw [hnamed q hmem hkind]
        exact hrest.once i q hq hkind ((hlonger i q hmem hkind).mp hlt)

/-- A name that is no key is claimed by nobody. -/
theorem unclaimed_of_absent (habsent : p.kind.isNamed = true → keywords.lookup p.name = none) :
    unclaimed (p :: rest) keywords = unclaimed rest keywords := by
  unfold unclaimed
  refine List.filter_congr fun entry hentry => ?_
  have hfree : (p.kind.isNamed && p.name == entry.1) = false := by
    rw [← Bool.not_eq_true, Bool.and_eq_true, beq_iff_eq]
    rintro ⟨hnamed, hname⟩
    refine Entries.lookup_eq_none_iff.mp (habsent hnamed) ?_
    rw [hname]
    exact List.mem_map_of_mem hentry
  rw [List.any_cons, hfree, Bool.false_or]

theorem claims_of_absent (hkind : p.kind ≠ .variadicKeyword)
    (habsent : p.kind.isNamed = true → keywords.lookup p.name = none) :
    Claims (p :: rest) keywords ↔ Claims rest keywords := by
  have hmissing : ∀ name ∈ keywords.keys, ¬ (p.kind.isNamed = true ∧ p.name = name) := by
    rintro name hname ⟨hnamed, rfl⟩
    exact Entries.lookup_eq_none_iff.mp (habsent hnamed) hname
  unfold Claims
  rw [List.exists_mem_cons_iff, or_iff_right hkind]
  refine or_congr Iff.rfl (forall₂_congr fun name hname => ?_)
  rw [List.exists_mem_cons_iff, or_iff_right (hmissing name hname)]

theorem seats_nil (ps : List ParameterDecl) : Seats ps [] :=
  Or.inr (Nat.zero_le _)

/-- A parameter that takes one argument by position, or none where none is left. -/
theorem leaves_of_absent
    (hkind : p.kind.isPositional = true ∨ p.kind.isNamed = true ∧ arguments = [])
    (habsent : p.kind.isNamed = true → keywords.lookup p.name = none) :
    Leaves p rest arguments keywords arguments.tail keywords := by
  have hother : p.kind ≠ .variadic ∧ p.kind ≠ .variadicKeyword := by
    constructor <;>
    · intro heq
      simp [heq, ParameterKind.isPositional, ParameterKind.isNamed] at hkind
  refine ⟨fun _ _ _ => rfl, fun _ _ _ => rfl, fun _ => unclaimed_of_absent habsent, ?_,
    claims_of_absent hother.2 habsent⟩
  unfold Seats
  rw [List.exists_mem_cons_iff, or_iff_right hother.1]
  rcases hkind with hpositional | ⟨-, rfl⟩
  · rw [List.countP_cons, if_pos hpositional, List.length_tail]
    exact or_congr Iff.rfl (by omega)
  · simp

/-- A parameter that takes all arguments by position that are left. -/
theorem leaves_of_variadic (hkind : p.kind = .variadic)
    (hrest : ∀ q ∈ rest, q.kind.isPositional = false ∧ q.kind ≠ .variadic) :
    Leaves p rest arguments keywords [] keywords := by
  have hnamed : p.kind.isNamed = true → keywords.lookup p.name = none := by
    rw [hkind]
    exact Bool.noConfusion
  have hother : p.kind ≠ .variadicKeyword := by
    rw [hkind]
    exact ParameterKind.noConfusion
  refine ⟨?_, fun _ _ _ => rfl, fun _ => unclaimed_of_absent hnamed, ?_,
    claims_of_absent hother hnamed⟩
  · rintro q hq (hpositional | hvariadic)
    · rw [(hrest q hq).1] at hpositional
      cases hpositional
    · exact absurd hvariadic (hrest q hq).2
  · exact iff_of_true (Or.inl ⟨p, List.mem_cons_self, hkind⟩) (seats_nil rest)

/-- A parameter that claims a keyword argument. -/
theorem leaves_of_named (hkeys : keywords.keys.Nodup) (hnamed : p.kind.isNamed = true)
    (hnames : ∀ q ∈ rest, q.name ≠ p.name) :
    Leaves p rest [] keywords [] (keywords.erase p.name) := by
  have hmem : ∀ name, name ∈ Entries.keys (keywords.erase p.name) ↔
      name ∈ keywords.keys ∧ name ≠ p.name := by
    intro name
    rw [Entries.erase_eq_filter hkeys]
    constructor
    · intro hname
      obtain ⟨entry, hentry, rfl⟩ := List.mem_map.mp hname
      obtain ⟨hold, hne⟩ := List.mem_filter.mp hentry
      exact ⟨List.mem_map_of_mem hold, of_decide_eq_true hne⟩
    · rintro ⟨hname, hne⟩
      obtain ⟨entry, hentry, rfl⟩ := List.mem_map.mp hname
      exact List.mem_map_of_mem (List.mem_filter.mpr ⟨hentry, decide_eq_true hne⟩)
  have hother : p.kind ≠ .variadicKeyword := by
    intro hkind
    rw [hkind] at hnamed
    cases hnamed
  refine ⟨fun _ _ _ => rfl, ?_, ?_, iff_of_true (seats_nil _) (seats_nil rest), ?_⟩
  · intro q hq _
    exact (Entries.lookup_erase_of_ne (hnames q hq)).symm
  · intro _
    unfold unclaimed
    rw [Entries.erase_eq_filter hkeys, List.filter_filter]
    refine List.filter_congr fun entry _ => ?_
    rw [List.any_cons, hnamed, Bool.true_and]
    by_cases hname : entry.1 = p.name
    · simp [hname]
    · simp [hname, beq_false_of_ne (Ne.symm hname)]
  · unfold Claims
    rw [List.exists_mem_cons_iff, or_iff_right hother]
    refine or_congr Iff.rfl ⟨?_, ?_⟩
    · intro hclaims name hname
      obtain ⟨hold, hne⟩ := (hmem name).mp hname
      rcases (List.exists_mem_cons_iff _ _ _).mp (hclaims name hold) with ⟨-, rfl⟩ | hrest
      · exact absurd rfl hne
      · exact hrest
    · intro hclaims name hname
      by_cases heq : name = p.name
      · exact ⟨p, List.mem_cons_self, hnamed, heq.symm⟩
      · obtain ⟨q, hq, hclaimed⟩ := hclaims name ((hmem name).mpr ⟨hname, heq⟩)
        exact ⟨q, List.mem_cons_of_mem _ hq, hclaimed⟩

/-- A parameter that takes all keyword arguments that are left stands last. -/
theorem leaves_of_variadicKeyword (hkind : p.kind = .variadicKeyword) :
    Leaves p [] [] keywords [] [] := by
  refine ⟨nofun, nofun, ?_, iff_of_true (seats_nil _) (seats_nil []), ?_⟩
  · rintro ⟨q, hq, -⟩
    cases hq
  · exact iff_of_true (Or.inl ⟨p, List.mem_cons_self, hkind⟩) (Or.inr nofun)

end Cons

/-! ## The first parameter -/

section First

/-- A parameter that is filled alone has an argument, a keyword argument or its default. -/
theorem Fills.single (hfills : Fills ps arguments keywords i p value)
    (hkind : p.kind.isPositional = true ∨ p.kind.isNamed = true) :
    (p.kind.isPositional = true ∧ arguments[i]? = some value) ∨
      ((p.kind.isPositional = true → arguments.length ≤ i) ∧
        ((p.kind.isNamed = true ∧ keywords.lookup p.name = some value) ∨
          ((p.kind.isNamed = true → keywords.lookup p.name = none) ∧ p.default = some value))) := by
  cases hfills with
  | position hpositional hvalue => exact Or.inl ⟨hpositional, hvalue⟩
  | keyword hnamed hleft hvalue => exact Or.inr ⟨hleft, Or.inl ⟨hnamed, hvalue⟩⟩
  | default _ hleft habsent hvalue => exact Or.inr ⟨hleft, Or.inr ⟨habsent, hvalue⟩⟩
  | rest hother =>
      rw [hother] at hkind
      rcases hkind with hkind | hkind <;> cases hkind
  | others hother =>
      rw [hother] at hkind
      rcases hkind with hkind | hkind <;> cases hkind

theorem Fills.tuple (hfills : Fills ps arguments keywords i p value)
    (hkind : p.kind = .variadic) : value = .tuple (arguments.drop i) := by
  cases hfills with
  | position hother => rw [hkind] at hother; cases hother
  | keyword hother => rw [hkind] at hother; cases hother
  | default hother => rw [hkind] at hother; rcases hother with hother | hother <;> cases hother
  | rest => rfl
  | others hother => rw [hkind] at hother; cases hother

theorem Fills.mapping (hfills : Fills ps arguments keywords i p value)
    (hkind : p.kind = .variadicKeyword) : value = mappingOf (unclaimed ps keywords) := by
  cases hfills with
  | position hother => rw [hkind] at hother; cases hother
  | keyword hother => rw [hkind] at hother; cases hother
  | default hother => rw [hkind] at hother; rcases hother with hother | hother <;> cases hother
  | rest hother => rw [hkind] at hother; cases hother
  | others => rfl

theorem fills_of_argument (hkind : p.kind.isPositional = true) {others : List Value}
    {first : Value} :
    Fills (p :: rest) (first :: others) keywords 0 p value ↔ value = first := by
  constructor
  · intro hfills
    rcases hfills.single (Or.inl hkind) with ⟨-, hvalue⟩ | ⟨hleft, -⟩
    · exact (Option.some.inj hvalue).symm
    · exact absurd (hleft hkind) (Nat.not_succ_le_zero _)
  · rintro rfl
    exact .position hkind rfl

theorem fills_of_keyword (hkind : p.kind.isNamed = true) {given : Value}
    (hgiven : keywords.lookup p.name = some given) :
    Fills (p :: rest) [] keywords 0 p value ↔ value = given := by
  constructor
  · intro hfills
    rcases hfills.single (Or.inr hkind) with ⟨-, hvalue⟩ | ⟨-, ⟨-, hvalue⟩ | ⟨habsent, -⟩⟩
    · cases hvalue
    · exact Option.some.inj (hvalue.symm.trans hgiven)
    · rw [habsent hkind] at hgiven
      cases hgiven
  · rintro rfl
    exact .keyword hkind (fun _ => Nat.zero_le _) hgiven

theorem fills_of_default (hkind : p.kind.isPositional = true ∨ p.kind.isNamed = true)
    (habsent : p.kind.isNamed = true → keywords.lookup p.name = none) :
    Fills (p :: rest) [] keywords 0 p value ↔ p.default = some value := by
  constructor
  · intro hfills
    rcases hfills.single hkind with ⟨-, hvalue⟩ | ⟨-, ⟨hnamed, hvalue⟩ | ⟨-, hvalue⟩⟩
    · cases hvalue
    · rw [habsent hnamed] at hvalue
      cases hvalue
    · exact hvalue
  · intro hdefault
    exact .default hkind (fun _ => Nat.zero_le _) habsent hdefault

theorem fills_of_variadic (hkind : p.kind = .variadic) :
    Fills (p :: rest) arguments keywords 0 p value ↔ value = .tuple arguments := by
  constructor
  · intro hfills
    exact hfills.tuple hkind
  · rintro rfl
    exact .rest hkind

theorem fills_of_variadicKeyword (hkind : p.kind = .variadicKeyword) :
    Fills [p] arguments keywords 0 p value ↔ value = mappingOf keywords := by
  have hall : unclaimed [p] keywords = keywords := by
    have hnamed : p.kind.isNamed = false := by
      rw [hkind]
      rfl
    simp [unclaimed, hnamed]
  constructor
  · intro hfills
    rw [hfills.mapping hkind, hall]
  · rintro rfl
    have hfills : Fills [p] arguments keywords 0 p (mappingOf (unclaimed [p] keywords)) :=
      .others hkind
    rwa [hall] at hfills

theorem binds_of_argument {first : Value} {others : List Value} (hkind : p.kind.isPositional = true)
    (habsent : p.kind.isNamed = true → keywords.lookup p.name = none) :
    Binds (p :: rest) (first :: others) keywords (value :: values) ↔
      value = first ∧ Binds rest others keywords values := by
  have honce : p.kind = .normal → first :: others ≠ [] → keywords.lookup p.name = none := by
    intro hnormal _
    exact habsent (by rw [hnormal]; rfl)
  rw [(leaves_of_absent (Or.inl hkind) habsent).binds_iff, fills_of_argument hkind,
    and_iff_right honce, List.tail_cons]

theorem binds_of_keyword (hkeys : keywords.keys.Nodup) (hkind : p.kind.isNamed = true)
    (hnames : ∀ q ∈ rest, q.name ≠ p.name) {given : Value}
    (hgiven : keywords.lookup p.name = some given) :
    Binds (p :: rest) [] keywords (value :: values) ↔
      value = given ∧ Binds rest [] (keywords.erase p.name) values := by
  have honce : p.kind = .normal → ([] : List Value) ≠ [] → keywords.lookup p.name = none :=
    fun _ hnil => absurd rfl hnil
  rw [(leaves_of_named hkeys hkind hnames).binds_iff, fills_of_keyword hkind hgiven,
    and_iff_right honce]

theorem binds_of_default (hkind : p.kind.isPositional = true ∨ p.kind.isNamed = true)
    (habsent : p.kind.isNamed = true → keywords.lookup p.name = none) :
    Binds (p :: rest) [] keywords (value :: values) ↔
      p.default = some value ∧ Binds rest [] keywords values := by
  have hkinds : p.kind.isPositional = true ∨ p.kind.isNamed = true ∧ ([] : List Value) = [] :=
    hkind.imp_right fun hnamed => ⟨hnamed, rfl⟩
  have honce : p.kind = .normal → ([] : List Value) ≠ [] → keywords.lookup p.name = none :=
    fun _ hnil => absurd rfl hnil
  rw [(leaves_of_absent hkinds habsent).binds_iff, fills_of_default hkind habsent,
    and_iff_right honce, List.tail_nil]

theorem binds_of_variadic (hkind : p.kind = .variadic)
    (hrest : ∀ q ∈ rest, q.kind.isPositional = false ∧ q.kind ≠ .variadic) :
    Binds (p :: rest) arguments keywords (value :: values) ↔
      value = .tuple arguments ∧ Binds rest [] keywords values := by
  have honce : p.kind = .normal → arguments ≠ [] → keywords.lookup p.name = none := by
    rw [hkind]
    exact ParameterKind.noConfusion
  rw [(leaves_of_variadic hkind hrest).binds_iff, fills_of_variadic hkind, and_iff_right honce]

theorem binds_of_variadicKeyword (hkind : p.kind = .variadicKeyword) :
    Binds [p] [] keywords (value :: values) ↔
      value = mappingOf keywords ∧ Binds [] [] [] values := by
  have honce : p.kind = .normal → ([] : List Value) ≠ [] → keywords.lookup p.name = none :=
    fun _ hnil => absurd rfl hnil
  rw [(leaves_of_variadicKeyword hkind).binds_iff, fills_of_variadicKeyword hkind,
    and_iff_right honce]

/-- A parameter that is given by name or collects names leaves no place for an argument. -/
theorem not_binds_of_argument {first : Value} {others : List Value}
    (hkind : p.kind.isPositional = false) (hvariadic : p.kind ≠ .variadic)
    (hrest : ∀ q ∈ rest, q.kind.isPositional = false ∧ q.kind ≠ .variadic) :
    ¬ Binds (p :: rest) (first :: others) keywords values := by
  intro hbinds
  rcases hbinds.seats with ⟨q, hq, hkind'⟩ | hcount
  · rcases List.mem_cons.mp hq with rfl | hmem
    · exact hvariadic hkind'
    · exact (hrest q hmem).2 hkind'
  · have hnone : (p :: rest).countP (fun q => q.kind.isPositional) = 0 := by
      rw [List.countP_eq_zero]
      intro q hq
      rcases List.mem_cons.mp hq with rfl | hmem
      · rw [hkind]
        exact Bool.false_ne_true
      · rw [(hrest q hmem).1]
        exact Bool.false_ne_true
    rw [hnone] at hcount
    exact Nat.not_succ_le_zero _ hcount

end First

/-! ## Binding -/

section Bind

variable {first : Value} {others : List Value}

theorem bind?_of_argument (hkind : p.kind.isPositional = true)
    (habsent : p.kind.isNamed = true → keywords.lookup p.name = none) :
    bind? (p :: rest) (first :: others) keywords =
      (bind? rest others keywords).map (first :: ·) := by
  cases h : p.kind with
  | positionalOnly => simp only [bind?, h]
  | normal =>
      have hnone := habsent (by rw [h]; rfl)
      simp only [bind?, h, hnone, Option.isSome_none, Bool.false_eq_true, if_false]
  | _ => rw [h] at hkind; cases hkind

theorem bind?_of_twice (hkind : p.kind = .normal) (hgiven : keywords.lookup p.name ≠ none) :
    bind? (p :: rest) (first :: others) keywords = none := by
  simp only [bind?, hkind, Option.isSome_iff_ne_none.mpr hgiven, if_true]

theorem bind?_of_keyword (hkind : p.kind.isNamed = true) {given : Value}
    (hgiven : keywords.lookup p.name = some given) :
    bind? (p :: rest) [] keywords =
      (bind? rest [] (keywords.erase p.name)).map (given :: ·) := by
  cases h : p.kind with
  | normal => simp only [bind?, h, hgiven]
  | keywordOnly => simp only [bind?, h, hgiven]
  | _ => rw [h] at hkind; cases hkind

theorem bind?_of_default (hkind : p.kind.isPositional = true ∨ p.kind.isNamed = true)
    (habsent : p.kind.isNamed = true → keywords.lookup p.name = none) :
    bind? (p :: rest) [] keywords =
      p.default.bind fun value => (bind? rest [] keywords).map (value :: ·) := by
  have hmap : (p.default.bind fun value => (bind? rest [] keywords).bind fun values =>
      some (value :: values)) =
        p.default.bind fun value => (bind? rest [] keywords).map (value :: ·) := by
    cases p.default <;> cases bind? rest [] keywords <;> rfl
  rw [← hmap]
  cases h : p.kind with
  | positionalOnly =>
      simp only [bind?, h]
      rfl
  | normal =>
      simp only [bind?, h, habsent (by rw [h]; rfl)]
      rfl
  | keywordOnly =>
      simp only [bind?, h, habsent (by rw [h]; rfl)]
      rfl
  | _ => rw [h] at hkind; rcases hkind with hkind | hkind <;> cases hkind

theorem bind?_of_variadic (hkind : p.kind = .variadic) :
    bind? (p :: rest) arguments keywords =
      (bind? rest [] keywords).map (.tuple arguments :: ·) := by
  cases arguments <;> simp only [bind?, hkind]

theorem bind?_of_variadicKeyword (hkind : p.kind = .variadicKeyword) :
    bind? (p :: rest) [] keywords = (bind? rest [] []).map (mappingOf keywords :: ·) := by
  simp only [bind?, hkind]

theorem bind?_of_unseated (hkind : p.kind.isPositional = false) (hvariadic : p.kind ≠ .variadic) :
    bind? (p :: rest) (first :: others) keywords = none := by
  cases h : p.kind with
  | keywordOnly => simp only [bind?, h]
  | variadicKeyword => simp only [bind?, h]
  | variadic => exact absurd h hvariadic
  | _ => rw [h] at hkind; cases hkind

theorem binds_nil_iff :
    Binds [] arguments keywords values ↔ arguments = [] ∧ keywords = [] ∧ values = [] := by
  constructor
  · intro hbinds
    refine ⟨?_, ?_, List.eq_nil_of_length_eq_zero hbinds.length⟩
    · rcases hbinds.seats with ⟨q, hq, -⟩ | hcount
      · cases hq
      · exact List.eq_nil_of_length_eq_zero (Nat.le_zero.mp hcount)
    · rcases hbinds.claims with ⟨q, hq, -⟩ | hclaims
      · cases hq
      · refine List.eq_nil_iff_forall_not_mem.mpr fun entry hentry => ?_
        obtain ⟨q, hq, -⟩ := hclaims entry.1 (List.mem_map_of_mem hentry)
        cases hq
  · rintro ⟨rfl, rfl, rfl⟩
    exact ⟨rfl, nofun, Or.inr (Nat.zero_le _), Or.inr nofun, nofun⟩

/-- A value for the first parameter and what is left bind if they do by the rules. -/
theorem map_cons_eq_some_iff (hrest : ∀ values, bind? rest arguments' keywords' = some values ↔
      Binds rest arguments' keywords' values)
    (hbinds : ∀ value values, Binds (p :: rest) arguments keywords (value :: values) ↔
      value = first ∧ Binds rest arguments' keywords' values) :
    (bind? rest arguments' keywords').map (first :: ·) = some values ↔
      Binds (p :: rest) arguments keywords values := by
  rw [Option.map_eq_some_iff]
  constructor
  · rintro ⟨values, hbound, rfl⟩
    exact (hbinds _ _).mpr ⟨rfl, (hrest values).mp hbound⟩
  · intro hwhole
    cases values with
    | nil => cases hwhole.length
    | cons value values =>
        obtain ⟨rfl, hbound⟩ := (hbinds value values).mp hwhole
        exact ⟨values, (hrest values).mpr hbound, rfl⟩

theorem IsSignature.tail (hsignature : IsSignature (p :: rest)) : IsSignature rest :=
  ⟨(List.pairwise_cons.mp hsignature.ordered).2, (List.nodup_cons.mp hsignature.names).2⟩

theorem IsSignature.name_ne (hsignature : IsSignature (p :: rest)) :
    ∀ q ∈ rest, q.name ≠ p.name := by
  intro q hq heq
  exact (List.nodup_cons.mp hsignature.names).1 (heq ▸ List.mem_map_of_mem hq)

theorem IsSignature.keywords_follow (hsignature : IsSignature (p :: rest))
    (hkind : p.kind.isPositional = false) :
    ∀ q ∈ rest, q.kind.isPositional = false ∧ q.kind ≠ .variadic := fun q hq =>
  ParameterKind.keyword_of_precedes hkind ((List.pairwise_cons.mp hsignature.ordered).1 q hq)

theorem IsSignature.eq_nil (hsignature : IsSignature (p :: rest))
    (hkind : p.kind = .variadicKeyword) : rest = [] := by
  refine List.eq_nil_iff_forall_not_mem.mpr fun q hq => ?_
  have hprecedes := (List.pairwise_cons.mp hsignature.ordered).1 q hq
  rw [hkind, ParameterKind.not_precedes_variadicKeyword] at hprecedes
  cases hprecedes

/-- What is left of a call is bound by the rules to the parameters behind the first one. -/
def BindsRest (rest : List ParameterDecl) : Prop :=
  ∀ arguments (keywords : Keywords) values, keywords.keys.Nodup →
    (bind? rest arguments keywords = some values ↔ Binds rest arguments keywords values)

/-- Without an argument by position a parameter has the keyword argument or its default. -/
theorem bind?_eq_some_iff_of_left (hsignature : IsSignature (p :: rest))
    (hkeys : keywords.keys.Nodup)
    (hkind : p.kind.isPositional = true ∨ p.kind.isNamed = true) (hrest : BindsRest rest) :
    bind? (p :: rest) [] keywords = some values ↔ Binds (p :: rest) [] keywords values := by
  by_cases hgiven : p.kind.isNamed = true ∧ keywords.lookup p.name ≠ none
  · obtain ⟨given, hgiven'⟩ := Option.ne_none_iff_exists'.mp hgiven.2
    have hkeys' : (Entries.keys (keywords.erase p.name)).Nodup :=
      hkeys.sublist ((Entries.erase_sublist _ _).map _)
    rw [bind?_of_keyword hgiven.1 hgiven']
    exact map_cons_eq_some_iff (fun values => hrest _ _ values hkeys') fun value values =>
      binds_of_keyword hkeys hgiven.1 hsignature.name_ne hgiven'
  · have habsent : p.kind.isNamed = true → keywords.lookup p.name = none := by
      intro hnamed
      by_contra hne
      exact hgiven ⟨hnamed, hne⟩
    rw [bind?_of_default hkind habsent]
    cases hdefault : p.default with
    | none =>
        refine ⟨nofun, fun hbinds => ?_⟩
        cases values with
        | nil => cases hbinds.length
        | cons value values =>
            have hsome := ((binds_of_default hkind habsent).mp hbinds).1
            rw [hdefault] at hsome
            cases hsome
    | some value =>
        refine map_cons_eq_some_iff (fun values => hrest _ _ values hkeys) fun value' values => ?_
        rw [binds_of_default hkind habsent, hdefault, Option.some_inj, eq_comm]

/-- A parameter that may be given by position takes the first argument, unless it is named too. -/
theorem bind?_eq_some_iff_of_positional (hsignature : IsSignature (p :: rest))
    (hkeys : keywords.keys.Nodup) (hkind : p.kind.isPositional = true) (hrest : BindsRest rest) :
    bind? (p :: rest) arguments keywords = some values ↔
      Binds (p :: rest) arguments keywords values := by
  cases arguments with
  | nil => exact bind?_eq_some_iff_of_left hsignature hkeys (Or.inl hkind) hrest
  | cons first others =>
      by_cases hgiven : p.kind.isNamed = true ∧ keywords.lookup p.name ≠ none
      · have hnormal : p.kind = .normal := by
          cases hp : p.kind <;> simp_all [ParameterKind.isPositional, ParameterKind.isNamed]
        rw [bind?_of_twice hnormal hgiven.2]
        refine ⟨nofun, fun hbinds => ?_⟩
        exact absurd (hbinds.once 0 p rfl hnormal (Nat.succ_pos _)) hgiven.2
      · have habsent : p.kind.isNamed = true → keywords.lookup p.name = none := by
          intro hnamed
          by_contra hne
          exact hgiven ⟨hnamed, hne⟩
        rw [bind?_of_argument hkind habsent]
        exact map_cons_eq_some_iff (fun values => hrest _ _ values hkeys) fun value values =>
          binds_of_argument hkind habsent

/-- Every other parameter collects what is left or is given by name. -/
theorem bind?_eq_some_iff_of_following (hsignature : IsSignature (p :: rest))
    (hkeys : keywords.keys.Nodup) (hkind : p.kind.isPositional = false) (hrest : BindsRest rest) :
    bind? (p :: rest) arguments keywords = some values ↔
      Binds (p :: rest) arguments keywords values := by
  have hfollow := hsignature.keywords_follow hkind
  by_cases hvariadic : p.kind = .variadic
  · rw [bind?_of_variadic hvariadic]
    exact map_cons_eq_some_iff (fun values => hrest _ _ values hkeys) fun value values =>
      binds_of_variadic hvariadic hfollow
  cases arguments with
  | cons first others =>
      rw [bind?_of_unseated hkind hvariadic]
      refine ⟨nofun, fun hbinds => ?_⟩
      exact absurd hbinds (not_binds_of_argument hkind hvariadic hfollow)
  | nil =>
      by_cases hcollects : p.kind = .variadicKeyword
      · obtain rfl := hsignature.eq_nil hcollects
        rw [bind?_of_variadicKeyword hcollects]
        exact map_cons_eq_some_iff (fun values => hrest _ _ values List.nodup_nil)
          fun value values => binds_of_variadicKeyword hcollects
      · have hnamed : p.kind.isNamed = true := by
          cases hp : p.kind <;> simp_all [ParameterKind.isPositional, ParameterKind.isNamed]
        exact bind?_eq_some_iff_of_left hsignature hkeys (Or.inr hnamed) hrest

/-- Binding finds the values that the rules of calling give to the parameters, and no others. -/
theorem bind?_eq_some_iff (hsignature : IsSignature ps) (hkeys : keywords.keys.Nodup) :
    bind? ps arguments keywords = some values ↔ Binds ps arguments keywords values := by
  induction ps generalizing arguments keywords values with
  | nil =>
      rw [binds_nil_iff, bind?_nil]
      split
      next hnone => simp [hnone, eq_comm]
      next hsome =>
        have hgiven : ¬ (arguments = [] ∧ keywords = [] ∧ values = []) :=
          fun hnone => hsome ⟨hnone.1, hnone.2.1⟩
        simp [hgiven]
  | cons p rest ih =>
      have hrest : BindsRest rest := fun _ _ _ hkeys => ih hsignature.tail hkeys
      cases hkind : p.kind.isPositional with
      | true => exact bind?_eq_some_iff_of_positional hsignature hkeys hkind hrest
      | false => exact bind?_eq_some_iff_of_following hsignature hkeys hkind hrest

end Bind

end ParameterDecl

end HttpBinding
