import HttpBinding.Proofs.Plan.Skeleton
import HttpBinding.Proofs.Plan.Tallies

/-!
# The variables of a method

The markers of a parameter bind variables to its position. A plan lists them in the order of
the parameters, and the form gets those that are no placeholder of the template: a variable is
a placeholder or belongs to the form, and never both.
-/

namespace HttpBinding

namespace Entries

/-- Values that are added to the last entry of a table. -/
theorem extend_concat {α γ : Type} [DecidableEq α] {key : α} {entries : Entries α (List γ)}
    (hkey : key ∉ entries.keys) (old values : List γ) :
    extend key values (entries ++ [(key, old)]) = entries ++ [(key, old ++ values)] := by
  induction entries with
  | nil => simp [extend]
  | cons entry rest ih =>
      obtain ⟨hfirst, hrest⟩ := List.ne_and_not_mem_of_not_mem_cons hkey
      rw [List.cons_append, extend, if_neg (Ne.symm hfirst), ih hrest]
      rfl

/-- Values that are added one after another to a key that is new make one entry. -/
theorem foldl_extend {α γ : Type} [DecidableEq α] {key : α} {entries : Entries α (List γ)}
    (hkey : key ∉ entries.keys) {values : List γ} (hvalues : values ≠ []) :
    values.foldl (fun entries value => entries.extend key [value]) entries =
      entries ++ [(key, values)] := by
  have hlater : ∀ later old : List γ,
      later.foldl (fun entries value => extend key [value] entries) (entries ++ [(key, old)]) =
        entries ++ [(key, old ++ later)] := by
    intro later
    induction later with
    | nil => simp
    | cons value rest ih =>
        intro old
        rw [List.foldl_cons, extend_concat hkey, ih, List.append_assoc, List.singleton_append]
  obtain ⟨value, rest, rfl⟩ := List.exists_cons_of_ne_nil hvalues
  rw [List.foldl_cons, extend_of_not_mem hkey, hlater, List.singleton_append]

end Entries

/-- The variables that the markers of a parameter bind, in order. -/
def ParameterDecl.variables (p : ParameterDecl) : List String :=
  p.markers.filterMap (Marker.bound? p.name)

namespace Plan

/-- The variables of parameters by position, the first parameter standing at the given one. -/
def variableTable (index : Nat) : List ParameterDecl → Entries Nat (List String)
  | [] => []
  | p :: rest =>
    (if p.variables = [] then [] else [(index, p.variables)]) ++ variableTable (index + 1) rest

theorem exists_mem_variableTable {parameters : List ParameterDecl} {p : ParameterDecl}
    (hp : p ∈ parameters) (hsome : p.variables ≠ []) (index : Nat) :
    ∃ position, (position, p.variables) ∈ variableTable index parameters := by
  induction parameters generalizing index with
  | nil => cases hp
  | cons first rest ih =>
      rcases List.mem_cons.mp hp with rfl | hrest
      · exact ⟨index, by simp [variableTable, hsome]⟩
      · obtain ⟨position, hposition⟩ := ih hrest (index + 1)
        exact ⟨position, List.mem_append_right _ hposition⟩

/-- What a plan has of the variables of its method. -/
structure HoldsVariables (plan : Plan) : Prop where
  names : plan.names = variableTable 0 plan.method.parameters
  /-- The form has no variable that is a placeholder. -/
  apart : ∀ name, plan.isFormName name = true → plan.template.hasVariable name = false

/-- A variable of a method belongs to the form exactly if it is no placeholder. -/
theorem HoldsVariables.isFormName_eq {plan : Plan} (hvariables : plan.HoldsVariables)
    (hready : plan.IsReady) {p : ParameterDecl} (hp : p ∈ plan.method.parameters) {name : String}
    (hname : name ∈ p.variables) : plan.isFormName name = !plan.template.hasVariable name := by
  obtain ⟨position, hposition⟩ := exists_mem_variableTable hp (List.ne_nil_of_mem hname) 0
  rw [← hvariables.names] at hposition
  cases hform : plan.isFormName name with
  | true => rw [hvariables.apart name hform, Bool.not_false]
  | false =>
      rw [(hready.placed _ hposition name hname).resolve_right (by simp [hform]), Bool.not_true]

theorem isFormName_concat {plan : Plan} {name other : String} :
    ({ plan with formNames := plan.formNames ++ [.text name] } : Plan).isFormName other = true ↔
      plan.isFormName other = true ∨ other = name := by
  simp [isFormName, Value.sameKey]

end Plan

namespace Contract

variable {t : Template} {plan plan' : Plan} {index : Nat} {name : String} {marker : Marker}
  {revise : Nat → String → Revision}

/-- A marker binds a variable, or else it says at most that a parameter is a map. -/
theorem onParameter_cases [Charsets] (hknown : usual.onParameter marker = some revise)
    (hread : revise index name plan = .ok plan') :
    (∃ given expander, marker = .param given expander ∧
        param given expander index name plan = .ok plan') ∨
      marker.bound? name = none ∧ plan' = { plan with
        queryMapIndex := plan'.queryMapIndex, queryMapEncoded := plan'.queryMapEncoded
        headerMapIndex := plan'.headerMapIndex } := by
  cases marker with
  | param given expander =>
      obtain rfl := Option.some.inj hknown
      exact .inl ⟨given, expander, rfl, hread⟩
  | queryMap encoded =>
      obtain rfl := Option.some.inj hknown
      simp only [queryMap] at hread
      split at hread
      · cases hread
      · obtain rfl := Except.ok.inj hread
        exact .inr ⟨rfl, rfl⟩
  | headerMap =>
      obtain rfl := Option.some.inj hknown
      simp only [headerMap] at hread
      split at hread
      · cases hread
      · obtain rfl := Except.ok.inj hread
        exact .inr ⟨rfl, rfl⟩
  | custom => cases hknown
  | remark => cases hknown

/-! ## Variables of the form -/

/-- The form has no variable that is a placeholder of the template. -/
structure IsApart (t : Template) (plan : Plan) : Prop where
  template : plan.template = t
  apart : ∀ name, plan.isFormName name = true → t.hasVariable name = false

theorem isApart_param {given : String} {expander : Option Expander} (hplan : IsApart t plan)
    (hread : param given expander index name plan = .ok plan') : IsApart t plan' := by
  have hforms := formNames_param hread
  have htemplate : plan'.template = t := by
    obtain ⟨-, -, -, rfl, -⟩ := param_eq hread
    exact hplan.template
  refine ⟨htemplate, fun other hother => ?_⟩
  generalize (if given.isEmpty then name else given) = bound at hforms
  rw [Plan.isFormName, hforms] at hother
  split at hother
  · exact hplan.apart other hother
  next hfree =>
    rw [hplan.template, Bool.or_eq_true, not_or, Bool.not_eq_true] at hfree
    rcases Plan.isFormName_concat.mp hother with hold | rfl
    · exact hplan.apart other hold
    · exact hfree.1

theorem keepsAtMarkers_isApart [Charsets] (t : Template) : usual.KeepsAtMarkers (IsApart t) := by
  intro marker revise index name plan plan' hknown hplan hread
  rcases onParameter_cases hknown hread with ⟨given, expander, -, hparam⟩ | ⟨-, hkept⟩
  · exact isApart_param hplan hparam
  · rw [hkept]
    exact ⟨hplan.template, hplan.apart⟩

theorem isAside_isApart (t : Template) : IsAside (IsApart t) :=
  ⟨fun _ h => ⟨h.template, h.apart⟩, fun _ h => ⟨h.template, h.apart⟩,
    fun _ h => ⟨h.template, h.apart⟩, fun _ h => ⟨h.template, h.apart⟩,
    fun _ _ h => ⟨h.template, h.apart⟩⟩

/-! ## The table of variables -/

theorem names_param {given : String} {expander : Option Expander}
    (hread : param given expander index name plan = .ok plan') :
    plan'.names = plan.names.extend index [if given.isEmpty then name else given] := by
  simp only [param] at hread
  generalize (if given.isEmpty = true then name else given) = bound at hread ⊢
  split at hread
  · cases hread
  · cases expander <;> (dsimp only at hread; split at hread) <;>
      (obtain rfl := Except.ok.inj hread; rfl)

theorem names_readMarkers [Charsets] {markers : List Marker}
    (hread : readMarkers usual index name markers plan = .ok plan') :
    plan'.names = (markers.filterMap (Marker.bound? name)).foldl
      (fun names bound => names.extend index [bound]) plan.names := by
  induction markers generalizing plan with
  | nil =>
      obtain rfl := Except.ok.inj hread
      rfl
  | cons marker rest ih =>
      rw [readMarkers] at hread
      cases hknown : usual.onParameter marker with
      | none =>
          have hbound : marker.bound? name = none := by
            cases marker with
            | param => cases hknown
            | _ => rfl
          rw [hknown] at hread
          rw [List.filterMap_cons_none hbound]
          exact ih hread
      | some revise =>
          rw [hknown] at hread
          obtain ⟨between, hfirst, hrest⟩ := bind_eq_ok.mp hread
          rcases onParameter_cases hknown hfirst with
            ⟨given, expander, rfl, hparam⟩ | ⟨hbound, hkept⟩
          · rw [ih hrest, names_param hparam]
            rfl
          · rw [List.filterMap_cons_none hbound, ih hrest, hkept]

theorem names_readParameter [Charsets] {p : ParameterDecl} {hint : Ty}
    (hnew : index ∉ plan.names.keys) (hread : readParameter usual index p hint plan = .ok plan') :
    plan'.names = plan.names ++ if p.variables = [] then [] else [(index, p.variables)] := by
  have haside : ∀ names, IsAside fun other : Plan => other.names = names :=
    fun names => ⟨fun _ h => h, fun _ h => h, fun _ h => h, fun _ h => h, fun _ _ h => h⟩
  simp only [readParameter] at hread
  split at hread
  · cases hread
  · obtain ⟨marked, hmarkers, htype⟩ := bind_eq_ok.mp hread
    have hmarked : (markedPlan index (knowsMarker usual p) marked).names = marked.names := by
      simp only [markedPlan]
      split <;> rfl
    rw [keeps_assignRole (haside _) hmarked htype, names_readMarkers hmarkers]
    change p.variables.foldl _ _ = _
    split
    next hnone => rw [hnone, List.foldl_nil, List.append_nil]
    next hsome => exact Entries.foldl_extend hnew hsome

/-- The positions in a table of variables are those of the parameters. -/
theorem names_readParameters [Charsets] {parameters : List (ParameterDecl × Ty)}
    (hbefore : ∀ position ∈ plan.names.keys, position < index)
    (hread : readParameters usual index parameters plan = .ok plan') :
    plan'.names = plan.names ++ Plan.variableTable index (parameters.map Prod.fst) := by
  induction parameters generalizing plan index with
  | nil =>
      obtain rfl := Except.ok.inj hread
      exact (List.append_nil _).symm
  | cons parameter rest ih =>
      rw [readParameters] at hread
      obtain ⟨between, hfirst, hrest⟩ := bind_eq_ok.mp hread
      have hnames := names_readParameter (fun hmem => Nat.lt_irrefl _ (hbefore _ hmem)) hfirst
      have hnext : ∀ position ∈ between.names.keys, position < index + 1 := by
        intro position hposition
        rw [hnames, Entries.keys_append, List.mem_append] at hposition
        rcases hposition with hold | hadded
        · exact Nat.lt_succ_of_lt (hbefore position hold)
        · split at hadded
          · cases hadded
          · rw [List.mem_singleton.mp hadded]
            exact Nat.lt_succ_self index
      rw [ih hnext hrest, hnames, List.append_assoc]
      rfl

/-! ## Interfaces -/

variable {ds : Declarations} {interfaces : Interfaces} {api : InterfaceDecl} {method : MethodDecl}
  {plans : List Plan}

theorem holdsVariables_planOf [Charsets] (hread : planOf usual ds interfaces api method = .ok plan)
    (hhandled : plan.ignored = false) : plan.HoldsVariables := by
  obtain ⟨hints, returns, directed, hhints, hdirected, -, hparameters⟩ := planOf_eq_ok hread hhandled
  obtain ⟨-, -, -, hmethod, -⟩ := records_planOf hread hhandled
  have hdirects := onlyDirects_directed hdirected
  have hforms : directed.formNames = [] := by
    rw [hdirects]
    rfl
  have hnames : directed.names = [] := by
    rw [hdirects]
    rfl
  have hsame : directed.method = method := by
    rw [hdirects]
    rfl
  constructor
  · have hstart : ∀ position ∈ directed.names.keys, position < 0 := by
      rw [hnames]
      exact fun position hposition => by cases hposition
    rw [names_readParameters hstart hparameters, hnames, hsame, hmethod, List.nil_append,
      List.map_fst_zip]
    rw [← length_hints? hhints]
    exact (List.length_zip.trans_le (Nat.min_le_right _ _))
  · have hstart : IsApart directed.template directed := by
      refine ⟨rfl, fun name hname => ?_⟩
      simp [Plan.isFormName, hforms] at hname
    have hdone := keeps_readParameters (keepsAtMarkers_isApart _) (isAside_isApart _) hstart hparameters
    rw [hdone.template]
    exact hdone.apart

/-- Every plan that the usual contract reads lists the variables of its method, unless it is ignored. -/
theorem holdsVariables_of_mem_read [Charsets] (hread : usual.read ds interfaces api = .ok plans)
    (hplan : plan ∈ plans) (hhandled : plan.ignored = false) : plan.HoldsVariables := by
  obtain ⟨method, hplanOf⟩ := planOf_of_mem_read hread hplan
  exact holdsVariables_planOf hplanOf hhandled

end Contract

end HttpBinding
