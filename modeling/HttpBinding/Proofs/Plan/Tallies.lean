import HttpBinding.Proofs.Plan.Conflicts
import HttpBinding.Proofs.Plan.Roles

/-!
# What a plan knows of markers

Markers are read one after another, and a plan keeps of them which kinds of maps there were
and which variables belong to the form. That is enough to refuse a second map of a kind, and
nothing else about markers is refused as long as parameters have names.
-/

namespace HttpBinding.Contract

variable {t : Template} {plan plan' : Plan} {why : BuildFault} {index : Nat} {name : String}
  {marker : Marker} {marks : List (String × Marker)}

/-- What a plan knows of the markers read so far. -/
structure Tallies (t : Template) (plan : Plan) (marks : List (String × Marker)) : Prop where
  template : plan.template = t
  queryMap : plan.queryMapIndex.isSome = true ↔ .queryMap ∈ rolesOf marks
  headerMap : plan.headerMapIndex.isSome = true ↔ .headerMap ∈ rolesOf marks
  form : plan.formNames ≠ [] ↔ HasFormVariable t marks
  queryMaps : (rolesOf marks).count .queryMap ≤ 1
  headerMaps : (rolesOf marks).count .headerMap ≤ 1

/-- A kind of map that markers ask for twice. -/
def AskTwice (marks : List (String × Marker)) : Prop :=
  2 ≤ (rolesOf marks).count .queryMap ∨ 2 ≤ (rolesOf marks).count .headerMap

theorem rolesOf_concat (marks : List (String × Marker)) (name : String) (marker : Marker) :
    rolesOf (marks ++ [(name, marker)]) = rolesOf marks ++ marker.role?.toList := by
  rw [rolesOf_append]
  unfold rolesOf
  cases hrole : marker.role? <;> simp [hrole]

theorem AskTwice.append (htwice : AskTwice marks) (more : List (String × Marker)) :
    AskTwice (marks ++ more) := by
  unfold AskTwice
  rw [rolesOf_append, List.count_append, List.count_append]
  unfold AskTwice at htwice
  omega

theorem hasFormVariable_concat :
    HasFormVariable t (marks ++ [(name, marker)]) ↔ HasFormVariable t marks ∨
      ∃ bound, marker.bound? name = some bound ∧ t.hasVariable bound = false := by
  unfold HasFormVariable
  simp only [List.mem_append, List.mem_singleton, or_and_right, exists_or, exists_eq_left]

/-- A marker that names no variable of the form changes nothing about the form. -/
theorem hasFormVariable_concat_of_none (hvariable : marker.bound? name = none) :
    HasFormVariable t (marks ++ [(name, marker)]) ↔ HasFormVariable t marks := by
  rw [hasFormVariable_concat, hvariable]
  simp

/-- The variables of the form after one more: a variable that no placeholder uses is added once. -/
theorem formNames_param {given : String} {expander : Option Expander}
    (hread : param given expander index name plan = .ok plan') :
    plan'.formNames =
      if plan.template.hasVariable (if given.isEmpty then name else given) ||
          plan.isFormName (if given.isEmpty then name else given) then plan.formNames
      else plan.formNames ++ [.text (if given.isEmpty then name else given)] := by
  unfold param at hread
  dsimp only at hread
  generalize (if given.isEmpty = true then name else given) = bound at hread ⊢
  split at hread
  · cases hread
  · cases expander <;> (dsimp only at hread; split at hread) <;>
      (obtain rfl := Except.ok.inj hread; simp_all [Plan.bindName, Plan.isFormName])

theorem tallies_param {given : String} {expander : Option Expander} (htallies : Tallies t plan marks)
    (hread : param given expander index name plan = .ok plan') :
    Tallies t plan' (marks ++ [(name, .param given expander)]) := by
  have hforms := formNames_param hread
  obtain ⟨bound, expanders, formNames, hplan, -⟩ := param_eq hread
  have hroles : rolesOf (marks ++ [(name, .param given expander)]) = rolesOf marks ++ [.named] :=
    rolesOf_concat _ _ _
  refine ⟨?_, ?_, ?_, ?_, ?_, ?_⟩
  · rw [hplan]
    exact htallies.template
  · rw [hplan, hroles]
    simpa [Plan.bindName] using htallies.queryMap
  · rw [hplan, hroles]
    simpa [Plan.bindName] using htallies.headerMap
  · have hvariable : (Marker.param given expander).bound? name =
        some (if given.isEmpty then name else given) := rfl
    rw [hforms, hasFormVariable_concat, hvariable, ← htallies.form, htallies.template]
    generalize (if given.isEmpty then name else given) = bound
    cases hplaced : t.hasVariable bound with
    | true => simp [hplaced]
    | false =>
        cases hknown : plan.isFormName bound with
        | false => simp [hplaced]
        | true =>
            -- A name that the form has already is no new one, but then the form is not empty.
            have hnonempty : plan.formNames ≠ [] := by
              rintro hnil
              simp [Plan.isFormName, hnil] at hknown
            simp [hplaced, hnonempty]
  · rw [hroles]
    simpa using htallies.queryMaps
  · rw [hroles]
    simpa using htallies.headerMaps

/-- One more map of a kind that was not there before. -/
theorem tallies_queryMap {encoded : Bool} (htallies : Tallies t plan marks)
    (hread : queryMap encoded index plan = .ok plan') :
    Tallies t plan' (marks ++ [(name, .queryMap encoded)]) := by
  unfold queryMap at hread
  split at hread
  · cases hread
  next hnone =>
    have habsent : .queryMap ∉ rolesOf marks := fun hmem => hnone (htallies.queryMap.mpr hmem)
    have hroles : rolesOf (marks ++ [(name, .queryMap encoded)]) = rolesOf marks ++ [.queryMap] :=
      rolesOf_concat _ _ _
    obtain rfl := Except.ok.inj hread
    refine ⟨htallies.template, ?_, ?_, ?_, ?_, ?_⟩
    · simp [hroles]
    · simpa [hroles] using htallies.headerMap
    · exact htallies.form.trans (hasFormVariable_concat_of_none rfl).symm
    · simp [hroles, List.count_eq_zero_of_not_mem habsent]
    · simpa [hroles] using htallies.headerMaps

theorem tallies_headerMap (htallies : Tallies t plan marks)
    (hread : headerMap index plan = .ok plan') :
    Tallies t plan' (marks ++ [(name, .headerMap)]) := by
  unfold headerMap at hread
  split at hread
  · cases hread
  next hnone =>
    have habsent : .headerMap ∉ rolesOf marks := fun hmem => hnone (htallies.headerMap.mpr hmem)
    have hroles : rolesOf (marks ++ [(name, .headerMap)]) = rolesOf marks ++ [.headerMap] :=
      rolesOf_concat _ _ _
    obtain rfl := Except.ok.inj hread
    refine ⟨htallies.template, ?_, ?_, ?_, ?_, ?_⟩
    · simpa [hroles] using htallies.queryMap
    · simp [hroles]
    · exact htallies.form.trans (hasFormVariable_concat_of_none rfl).symm
    · simpa [hroles] using htallies.queryMaps
    · simp [hroles, List.count_eq_zero_of_not_mem habsent]

theorem tallies_onParameter [Charsets] {revise : Nat → String → Revision}
    (htallies : Tallies t plan marks)
    (hknown : usual.onParameter marker = some revise) (hread : revise index name plan = .ok plan') :
    Tallies t plan' (marks ++ [(name, marker)]) := by
  cases marker with
  | param given expander =>
      obtain rfl := Option.some.inj hknown
      exact tallies_param htallies hread
  | queryMap encoded =>
      obtain rfl := Option.some.inj hknown
      exact tallies_queryMap htallies hread
  | headerMap =>
      obtain rfl := Option.some.inj hknown
      exact tallies_headerMap htallies hread
  | custom => cases hknown
  | remark => cases hknown

theorem tallies_of_unknown [Charsets] (htallies : Tallies t plan marks)
    (hunknown : usual.onParameter marker = none) : Tallies t plan (marks ++ [(name, marker)]) := by
  have hrole : marker.role? = none := by
    rw [← Option.not_isSome_iff_eq_none, ← isSome_onParameter, hunknown]
    exact Bool.false_ne_true
  have hroles : rolesOf (marks ++ [(name, marker)]) = rolesOf marks := by
    rw [rolesOf_concat, hrole]
    exact List.append_nil _
  have hvariable : marker.bound? name = none := by
    cases marker with
    | param => cases hunknown
    | _ => rfl
  refine ⟨htallies.template, ?_, ?_, ?_, ?_, ?_⟩
  · rw [hroles]
    exact htallies.queryMap
  · rw [hroles]
    exact htallies.headerMap
  · exact htallies.form.trans (hasFormVariable_concat_of_none hvariable).symm
  · rw [hroles]
    exact htallies.queryMaps
  · rw [hroles]
    exact htallies.headerMaps

/-- A marker of a parameter with a name is refused only if it is a second map of its kind. -/
theorem askTwice_of_onParameter [Charsets] {revise : Nat → String → Revision}
    (htallies : Tallies t plan marks)
    (hname : name ≠ "") (hknown : usual.onParameter marker = some revise)
    (hread : revise index name plan = .error why) : AskTwice (marks ++ [(name, marker)]) := by
  unfold AskTwice
  rw [rolesOf_concat]
  cases marker with
  | param given expander =>
      obtain rfl := Option.some.inj hknown
      change param given expander index name plan = .error why at hread
      have hbound : (if given.isEmpty = true then name else given).isEmpty = false := by
        split
        · simpa using hname
        next hgiven => simpa using hgiven
      unfold param at hread
      dsimp only at hread
      generalize (if given.isEmpty = true then name else given) = bound at hread hbound
      rw [hbound, if_neg Bool.false_ne_true] at hread
      cases expander <;> (dsimp only at hread; split at hread) <;> cases hread
  | queryMap encoded =>
      obtain rfl := Option.some.inj hknown
      change queryMap encoded index plan = .error why at hread
      unfold queryMap at hread
      split at hread
      next hsome =>
        have hpresent := List.one_le_count_iff.mpr (htallies.queryMap.mp hsome)
        left
        simp only [Marker.role?, Option.toList_some, List.count_append, List.count_singleton_self]
        omega
      next => cases hread
  | headerMap =>
      obtain rfl := Option.some.inj hknown
      change headerMap index plan = .error why at hread
      unfold headerMap at hread
      split at hread
      next hsome =>
        have hpresent := List.one_le_count_iff.mpr (htallies.headerMap.mp hsome)
        right
        simp only [Marker.role?, Option.toList_some, List.count_append, List.count_singleton_self]
        omega
      next => cases hread
  | custom => cases hknown
  | remark => cases hknown

/-- The markers of a parameter are tallied, unless a kind of map is asked for twice. -/
theorem tallies_readMarkers [Charsets] (index : Nat) (htallies : Tallies t plan marks)
    (hname : name ≠ "") (markers : List Marker) :
    (∀ plan', readMarkers usual index name markers plan = .ok plan' →
      Tallies t plan' (marks ++ markers.map fun marker => (name, marker))) ∧
    (∀ why, readMarkers usual index name markers plan = .error why →
      AskTwice (marks ++ markers.map fun marker => (name, marker))) := by
  induction markers generalizing plan marks with
  | nil =>
      refine ⟨?_, ?_⟩
      · intro plan' hread
        obtain rfl := Except.ok.inj hread
        simpa using htallies
      · intro why hread
        cases hread
  | cons marker rest ih =>
      rw [List.map_cons, List.append_cons, readMarkers]
      cases hknown : usual.onParameter marker with
      | none => exact ih (tallies_of_unknown htallies hknown)
      | some revise =>
          refine ⟨?_, ?_⟩
          · intro plan' hread
            obtain ⟨between, hfirst, hrest⟩ := bind_eq_ok.mp hread
            exact (ih (tallies_onParameter htallies hknown hfirst)).1 plan' hrest
          · intro why hread
            rcases bind_eq_error.mp hread with hfirst | ⟨between, hfirst, hrest⟩
            · exact (askTwice_of_onParameter htallies hname hknown hfirst).append _
            · exact (ih (tallies_onParameter htallies hknown hfirst)).2 why hrest

theorem tallies_markedPlan {isMarked : Bool} (htallies : Tallies t plan marks) :
    Tallies t (markedPlan index isMarked plan) marks := by
  unfold markedPlan
  split
  · exact ⟨htallies.template, htallies.queryMap, htallies.headerMap, htallies.form,
      htallies.queryMaps, htallies.headerMaps⟩
  · exact htallies

theorem marksOf_concat (done : List (ParameterDecl × Ty)) (parameter : ParameterDecl × Ty) :
    marksOf (done ++ [parameter]) =
      marksOf done ++ parameter.1.markers.map fun marker => (parameter.1.name, marker) := by
  rw [marksOf_append]
  simp [marksOf]

/-- Roles by type leave alone what is tallied of the markers. -/
theorem tallies_assignRole {ty : Ty} {isMarked : Bool} (htallies : Tallies t plan marks)
    (hread : assignRole index ty isMarked plan = .ok plan') : Tallies t plan' marks := by
  have haside : IsAside fun other : Plan => other.template = plan.template ∧
      other.queryMapIndex = plan.queryMapIndex ∧ other.headerMapIndex = plan.headerMapIndex ∧
        other.formNames = plan.formNames :=
    ⟨fun _ h => h, fun _ h => h, fun _ h => h, fun _ h => h, fun _ _ h => h⟩
  obtain ⟨htemplate, hqueryMap, hheaderMap, hforms⟩ :=
    keeps_assignRole haside ⟨rfl, rfl, rfl, rfl⟩ hread
  refine ⟨htemplate.trans htallies.template, ?_, ?_, ?_, htallies.queryMaps, htallies.headerMaps⟩
  · rw [hqueryMap]
    exact htallies.queryMap
  · rw [hheaderMap]
    exact htallies.headerMap
  · rw [hforms]
    exact htallies.form

end HttpBinding.Contract
