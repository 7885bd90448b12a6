import HttpBinding.Octets.Charset
import HttpBinding.Proofs.Entries
import HttpBinding.Proofs.Plan.Asked
import HttpBinding.Proofs.Plan.Directives
import HttpBinding.Proofs.Plan.Upkeep

/-!
# The roles of parameters

A plan records the roles of parameters one by one, each under the position that it is
given to. This module says which positions have which roles once an interface is read by
the usual contract: those that their parameters ask for, without those that a later one
takes away. So a position has exactly one role if each parameter asks for one and no two
ask for the same one of these; otherwise it may have two, or none.
-/

namespace HttpBinding

namespace Value

theorem mem_of_mem_distinct {values : List Value} {value : Value} (hvalue : value ∈ distinct values) :
    value ∈ values := by
  -- The induction needs the values that were kept so far to be any.
  have hfold : ∀ kept, value ∈ values.foldl (fun kept value =>
      if kept.any (sameKey value) then kept else kept ++ [value]) kept →
        value ∈ kept ∨ value ∈ values := by
    clear hvalue
    induction values with
    | nil => exact fun kept hmem => Or.inl hmem
    | cons first rest ih =>
        intro kept hmem
        rcases ih _ hmem with hkept | hrest
        · dsimp only at hkept
          split at hkept
          · exact Or.inl hkept
          · rcases List.mem_append.mp hkept with hold | hnew
            · exact Or.inl hold
            · exact Or.inr (List.mem_singleton.mp hnew ▸ List.mem_cons_self)
        · exact Or.inr (List.mem_cons_of_mem _ hrest)
  simpa using hfold [] hvalue

end Value

namespace Contract

/-! ## Markers -/

section Markers

variable {plan plan' plan'' : Plan} {index position : Nat} {name : String} {role : Role}
  {roles roles' : List Role}

/-- What markers do to a plan: they add roles for a position, and leave what else decides on them. -/
structure AddsRoles (index : Nat) (roles : List Role) (plan plan' : Plan) : Prop where
  roles : ∀ position role, plan'.HasRole position role ↔
    plan.HasRole position role ∨ (position = index ∧ role ∈ roles)
  method : plan'.method = plan.method
  body : plan'.bodyIndex = plan.bodyIndex
  skipped : plan'.skipped = plan.skipped

theorem AddsRoles.refl (index : Nat) (plan : Plan) : AddsRoles index [] plan plan :=
  ⟨by simp, rfl, rfl, rfl⟩

theorem AddsRoles.trans (hfirst : AddsRoles index roles plan plan')
    (hsecond : AddsRoles index roles' plan' plan'') : AddsRoles index (roles ++ roles') plan plan'' := by
  refine ⟨?_, hsecond.method.trans hfirst.method, hsecond.body.trans hfirst.body,
    hsecond.skipped.trans hfirst.skipped⟩
  intro position role
  rw [hsecond.roles, hfirst.roles, List.mem_append, and_or_left, or_assoc]

theorem addsRoles_param {given parameter : String} {expander : Option Expander}
    (hread : param given expander index parameter plan = .ok plan') :
    AddsRoles index [.named] plan plan' := by
  obtain ⟨name, expanders, formNames, rfl, -⟩ := param_eq hread
  refine ⟨?_, rfl, rfl, rfl⟩
  intro position role
  cases role with
  | named =>
      change position ∈ (plan.names.extend index [name]).keys ↔ _
      rw [Entries.keys_extend]
      split
      next hold =>
        simp only [Plan.HasRole, List.mem_singleton, and_true]
        constructor
        · exact Or.inl
        · rintro (hmem | rfl)
          · exact hmem
          · exact hold
      next => simp [Plan.HasRole]
  | _ => simp [Plan.HasRole, Plan.bindName]

theorem addsRoles_queryMap {encoded : Bool} (hread : queryMap encoded index plan = .ok plan') :
    AddsRoles index [.queryMap] plan plan' := by
  unfold queryMap at hread
  split at hread
  · cases hread
  next hnone =>
    obtain rfl := Except.ok.inj hread
    refine ⟨?_, rfl, rfl, rfl⟩
    intro position role
    cases role <;> simp [Plan.HasRole, Option.not_isSome_iff_eq_none.mp hnone, eq_comm]

theorem addsRoles_headerMap (hread : headerMap index plan = .ok plan') :
    AddsRoles index [.headerMap] plan plan' := by
  unfold headerMap at hread
  split at hread
  · cases hread
  next hnone =>
    obtain rfl := Except.ok.inj hread
    refine ⟨?_, rfl, rfl, rfl⟩
    intro position role
    cases role <;> simp [Plan.HasRole, Option.not_isSome_iff_eq_none.mp hnone, eq_comm]

/-- The usual contract knows the markers that ask for a role. -/
theorem isSome_onParameter [Charsets] (marker : Marker) :
    (usual.onParameter marker).isSome = marker.role?.isSome := by
  cases marker <;> rfl

theorem addsRoles_marker [Charsets] {marker : Marker} {revise : Nat → String → Revision}
    (hknown : usual.onParameter marker = some revise)
    (hread : revise index name plan = .ok plan') :
    AddsRoles index marker.role?.toList plan plan' := by
  cases marker with
  | param given expander =>
      obtain rfl := Option.some.inj hknown
      exact addsRoles_param hread
  | queryMap encoded =>
      obtain rfl := Option.some.inj hknown
      exact addsRoles_queryMap hread
  | headerMap =>
      obtain rfl := Option.some.inj hknown
      exact addsRoles_headerMap hread
  | custom => cases hknown
  | remark => cases hknown

theorem addsRoles_readMarkers [Charsets] {markers : List Marker}
    (hread : readMarkers usual index name markers plan = .ok plan') :
    AddsRoles index (markers.filterMap Marker.role?) plan plan' := by
  induction markers generalizing plan with
  | nil =>
      obtain rfl := Except.ok.inj hread
      exact .refl index plan
  | cons marker rest ih =>
      rw [readMarkers] at hread
      cases hknown : usual.onParameter marker with
      | none =>
          rw [hknown] at hread
          have hrole : marker.role? = none := by
            rw [← Option.not_isSome_iff_eq_none, ← isSome_onParameter, hknown]
            simp
          rw [List.filterMap_cons_none hrole]
          exact ih hread
      | some revise =>
          rw [hknown] at hread
          obtain ⟨between, hfirst, hrest⟩ := bind_eq_ok.mp hread
          have hroles : (marker :: rest).filterMap Marker.role? =
              marker.role?.toList ++ rest.filterMap Marker.role? := by
            rw [List.filterMap_cons]
            cases marker.role? <;> rfl
          rw [hroles]
          exact (addsRoles_marker hknown hfirst).trans (ih hrest)

theorem knowsMarker_iff [Charsets] (p : ParameterDecl) :
    knowsMarker usual p = true ↔ p.markedRoles ≠ [] := by
  unfold knowsMarker ParameterDecl.markedRoles
  simp only [isSome_onParameter, List.any_eq_true, Option.isSome_iff_exists, ne_eq,
    List.filterMap_eq_nil_iff, not_forall, ← Option.ne_none_iff_exists']
  simp

end Markers

/-! ## Types -/

section Types

variable {plan plan' : Plan} {index : Nat} {ty : Ty} {isMarked : Bool}

/-- What reading a type does to a plan, given the roles that it gives and takes away. -/
structure MovesRoles (index : Nat) (given taken : Role → Prop) (plan plan' : Plan) : Prop where
  roles : ∀ position role, plan'.HasRole position role ↔
    (plan.HasRole position role ∧ ¬ taken role) ∨ (position = index ∧ given role)
  method : plan'.method = plan.method
  body : plan'.bodyIndex = plan.bodyIndex ∨ plan'.bodyIndex = .int index
  skipped : plan'.skipped = plan.skipped

theorem takeBody_eq (hfree : plan.isTaken index = false) (hread : takeBody index ty plan = .ok plan') :
    plan.bodyIndex.isNull = true ∧ plan' = { plan with bodyIndex := .int index, bodyType := some ty } := by
  unfold takeBody at hread
  rw [hfree, if_neg Bool.false_ne_true] at hread
  split at hread
  · cases hread
  · split at hread
    · cases hread
    next hbody =>
      refine ⟨?_, (Except.ok.inj hread).symm⟩
      simpa [Plan.hasBody] using hbody

/-- A type that is no address and no options makes a parameter without a marker the body. -/
theorem movesRoles_assignRole (hfree : isMarked = false → plan.isTaken index = false)
    (hread : assignRole index ty isMarked plan = .ok plan') :
    MovesRoles index
      (fun role => ty.role? = some role ∨ (role = .body ∧ isMarked = false ∧ ty.role? = none))
      (fun role => role.isMovable = true ∧ ty.role? = some role) plan plan' := by
  unfold assignRole at hread
  unfold Ty.role?
  split at hread
  next haddress =>
    obtain rfl := Except.ok.inj hread
    refine ⟨?_, rfl, Or.inl rfl, rfl⟩
    intro position role
    cases role <;> simp [Plan.HasRole, haddress, Role.isMovable, eq_comm]
  next haddress =>
    split at hread
    next hoptions =>
      obtain rfl := Except.ok.inj hread
      refine ⟨?_, rfl, Or.inl rfl, rfl⟩
      intro position role
      cases role <;> simp [Plan.HasRole, haddress, hoptions, Role.isMovable, eq_comm]
    next hoptions =>
      split at hread
      next hmarked =>
        obtain rfl := Except.ok.inj hread
        refine ⟨?_, rfl, Or.inl rfl, rfl⟩
        simp [haddress, hoptions, hmarked]
      next hmarked =>
        have hunmarked : isMarked = false := by simpa using hmarked
        obtain ⟨hnull, rfl⟩ := takeBody_eq (hfree hunmarked) hread
        refine ⟨?_, rfl, Or.inr rfl, rfl⟩
        intro position role
        cases role with
        | body =>
            have hnone : plan.bodyIndex ≠ .int position := by
              intro heq
              rw [heq] at hnull
              cases hnull
            simp only [Plan.HasRole, haddress, hoptions, hunmarked, hnone]
            simp
            omega
        | _ => simp [Plan.HasRole, haddress, hoptions]

end Types

/-! ## Parameters -/

section Parameters

variable {plan plan' : Plan} {parameters done : List (ParameterDecl × Ty)}
  {parameter : ParameterDecl × Ty}

/-- A plan records for every position the roles that it is given among the parameters read so far. -/
structure Records (plan : Plan) (done : List (ParameterDecl × Ty)) : Prop where
  roles : ∀ position role, plan.HasRole position role ↔ IsGiven done position role
  body : plan.bodyIndex = .null ∨ ∃ position < done.length, plan.bodyIndex = .int position
  skipped : ∀ value ∈ plan.skipped, ∃ position < done.length, value = .int position

theorem Records.of_addsRoles_nil {index : Nat} (hrecords : Records plan done)
    (hadds : AddsRoles index [] plan plan') : Records plan' done := by
  refine ⟨?_, ?_, ?_⟩
  · intro position role
    rw [hadds.roles, hrecords.roles]
    simp
  · rw [hadds.body]
    exact hrecords.body
  · rw [hadds.skipped]
    exact hrecords.skipped

theorem Records.isTaken_eq_false (hrecords : Records plan done) : plan.isTaken done.length = false := by
  -- Only positions of parameters read so far have roles, and this one is not among them.
  have hfree : ∀ role, ¬ plan.HasRole done.length role := by
    intro role hrole
    exact Nat.lt_irrefl _ ((hrecords.roles _ _).mp hrole).lt_length
  have hother : ∀ position < done.length,
      Value.sameKey (.int done.length) (.int position) = false := by
    intro position hlt
    simp [Value.sameKey]
    omega
  have hbody : Value.sameKey (.int done.length) plan.bodyIndex = false := by
    rcases hrecords.body with hnull | ⟨position, hlt, hint⟩
    · rw [hnull]
      simp [Value.sameKey]
    · rw [hint]
      exact hother position hlt
  have hskipped : plan.skipped.any (Value.sameKey (.int done.length)) = false := by
    rw [List.any_eq_false]
    intro value hvalue
    obtain ⟨position, hlt, rfl⟩ := hrecords.skipped value hvalue
    rw [hother position hlt]
    exact Bool.false_ne_true
  have haddress : plan.urlIndex ≠ some done.length := hfree .address
  have hoptions : plan.optionsIndex ≠ some done.length := hfree .options
  have hheaderMap : plan.headerMapIndex ≠ some done.length := hfree .headerMap
  have hqueryMap : plan.queryMapIndex ≠ some done.length := hfree .queryMap
  have hnamed : done.length ∉ plan.names.keys := hfree .named
  unfold Plan.isTaken
  rw [List.any_cons, hbody, hskipped]
  simp [haddress.symm, hoptions.symm, hheaderMap.symm, hqueryMap.symm, hnamed]

/-- A plan that leaves a position out from here on if its parameter is marked. -/
def markedPlan (index : Nat) (isMarked : Bool) (plan : Plan) : Plan :=
  if isMarked then plan.skip (.int index) else plan

@[simp]
theorem method_markedPlan (index : Nat) (isMarked : Bool) (plan : Plan) :
    (markedPlan index isMarked plan).method = plan.method := by
  unfold markedPlan
  split <;> rfl

@[simp]
theorem bodyIndex_markedPlan (index : Nat) (isMarked : Bool) (plan : Plan) :
    (markedPlan index isMarked plan).bodyIndex = plan.bodyIndex := by
  unfold markedPlan
  split <;> rfl

theorem hasRole_markedPlan {index position : Nat} {isMarked : Bool} {role : Role} :
    (markedPlan index isMarked plan).HasRole position role ↔ plan.HasRole position role := by
  unfold markedPlan
  split
  · cases role <;> rfl
  · rfl

theorem mem_skipped_markedPlan {index : Nat} {isMarked : Bool} {value : Value}
    (hvalue : value ∈ (markedPlan index isMarked plan).skipped) :
    value ∈ plan.skipped ∨ value = .int index := by
  unfold markedPlan at hvalue
  split at hvalue
  · simpa using Value.mem_of_mem_distinct hvalue
  · exact Or.inl hvalue

/-- Reading one parameter records the roles of one more. -/
theorem records_readParameter [Charsets] (hrecords : Records plan done)
    (hread : readParameter usual done.length parameter.1 parameter.2 plan = .ok plan') :
    Records plan' (done ++ [parameter]) ∧ plan'.method = plan.method := by
  unfold readParameter at hread
  split at hread
  · cases hread
  obtain ⟨marked, hmarkers, htype⟩ := bind_eq_ok.mp hread
  change assignRole done.length (ParameterDecl.splitRemarks parameter.2)
    (knowsMarker usual parameter.1)
    (markedPlan done.length (knowsMarker usual parameter.1) marked) = .ok plan' at htype
  have hadds : AddsRoles done.length parameter.1.markedRoles plan marked :=
    addsRoles_readMarkers hmarkers
  have hknown := knowsMarker_iff parameter.1
  generalize knowsMarker usual parameter.1 = isMarked at htype hknown
  have hunmarked : isMarked = false ↔ parameter.1.markedRoles = [] := by
    cases isMarked <;> simpa using hknown
  -- Without a marker the plan is as before, and nothing has the position of the parameter.
  have hfree : isMarked = false → (markedPlan done.length isMarked marked).isTaken done.length = false := by
    rintro rfl
    rw [hunmarked.mp rfl] at hadds
    exact (hrecords.of_addsRoles_nil hadds).isTaken_eq_false
  have hmoves := movesRoles_assignRole hfree htype
  have hlength : (done ++ [parameter]).length = done.length + 1 := List.length_append
  refine ⟨⟨?_, ?_, ?_⟩, ?_⟩
  · intro position role
    rw [hmoves.roles, hasRole_markedPlan, hadds.roles, hrecords.roles, isGiven_concat,
      mem_askedRoles, hunmarked]
    by_cases hmovable : role.isMovable = true
    · -- Only types ask for movable roles, so what is given is what is taken from the others.
      simp [hmovable, not_mem_markedRoles hmovable, Role.ne_body hmovable]
    · simp only [hmovable, Bool.false_eq_true, false_and, not_false_eq_true, and_true]
      rw [or_assoc, ← and_or_left]
  · rw [hlength]
    rcases hmoves.body with hsame | hnew
    · rw [hsame, bodyIndex_markedPlan, hadds.body]
      refine hrecords.body.imp_right ?_
      rintro ⟨position, hlt, hint⟩
      exact ⟨position, Nat.lt_succ_of_lt hlt, hint⟩
    · exact Or.inr ⟨done.length, Nat.lt_succ_self _, hnew⟩
  · intro value hvalue
    rw [hmoves.skipped] at hvalue
    rw [hlength]
    rcases mem_skipped_markedPlan hvalue with hold | rfl
    · rw [hadds.skipped] at hold
      obtain ⟨position, hlt, rfl⟩ := hrecords.skipped value hold
      exact ⟨position, Nat.lt_succ_of_lt hlt, rfl⟩
    · exact ⟨done.length, Nat.lt_succ_self _, rfl⟩
  · rw [hmoves.method, method_markedPlan, hadds.method]

theorem records_readParameters [Charsets] (hrecords : Records plan done)
    (hread : readParameters usual done.length parameters plan = .ok plan') :
    Records plan' (done ++ parameters) ∧ plan'.method = plan.method := by
  induction parameters generalizing plan done with
  | nil =>
      obtain rfl := Except.ok.inj hread
      rw [List.append_nil]
      exact ⟨hrecords, rfl⟩
  | cons parameter rest ih =>
      rw [readParameters] at hread
      obtain ⟨between, hfirst, hrest⟩ := bind_eq_ok.mp hread
      obtain ⟨hbetween, hmethod⟩ := records_readParameter hrecords hfirst
      -- A position is the number of the parameters before it.
      have hlength : done.length + 1 = (done ++ [parameter]).length := by simp
      rw [hlength] at hrest
      obtain ⟨hall, hmethod'⟩ := ih hbetween hrest
      rw [List.append_assoc, List.singleton_append] at hall
      exact ⟨hall, hmethod'.trans hmethod⟩

end Parameters

/-! ## Interfaces -/

section Interfaces

variable {ds : Declarations} {interfaces : Interfaces} {api : InterfaceDecl} {method : MethodDecl}
  {plan plan' : Plan} {plans : List Plan} {hints : List Ty}

theorem records_planOf [Charsets] (hread : planOf usual ds interfaces api method = .ok plan)
    (hhandled : plan.ignored = false) :
    ∃ hints returns, method.hints? ds = some (hints, returns) ∧ plan.method = method ∧
      Records plan (method.parameters.zip hints) := by
  obtain ⟨hints, returns, directed, hhints, hdirected, -, hparameters⟩ := planOf_eq_ok hread hhandled
  have hdirects := onlyDirects_directed hdirected
  have hmethod : directed.method = method := by
    rw [hdirects]
    rfl
  have hstart : Records directed [] := by
    rw [hdirects]
    refine ⟨?_, Or.inl rfl, by simp [blankPlan]⟩
    intro position role
    cases role <;> simp [Plan.HasRole, IsGiven, Entries.keys, blankPlan]
  rw [hmethod] at hparameters
  obtain ⟨hrecords, hsame⟩ := records_readParameters hstart hparameters
  exact ⟨hints, returns, hhints, hsame.trans hmethod, hrecords⟩

theorem mem_plansOf [Charsets] {methods : List MethodDecl} {done : List Plan}
    (hread : plansOf usual ds interfaces api done methods = .ok plans) (hplan : plan ∈ plans) :
    plan ∈ done ∨ ∃ method ∈ methods, planOf usual ds interfaces api method = .ok plan := by
  induction methods generalizing done with
  | nil =>
      obtain rfl := Except.ok.inj hread
      exact Or.inl hplan
  | cons method rest ih =>
      rw [plansOf] at hread
      obtain ⟨first, hfirst, hread⟩ := bind_eq_ok.mp hread
      split at hread
      · cases hread
      · rcases ih hread with hdone | ⟨other, hother, hplanOf⟩
        · rcases List.mem_append.mp hdone with hold | hnew
          · exact Or.inl hold
          · rw [List.mem_singleton.mp hnew]
            exact Or.inr ⟨method, List.mem_cons_self, hfirst⟩
        · exact Or.inr ⟨other, List.mem_cons_of_mem _ hother, hplanOf⟩

theorem planOf_of_mem_read [Charsets] (hread : usual.read ds interfaces api = .ok plans)
    (hplan : plan ∈ plans) :
    ∃ method, planOf usual ds interfaces api method = .ok plan := by
  obtain ⟨-, -, hplans⟩ := bind_eq_ok.mp hread
  rcases mem_plansOf hplans hplan with hnone | ⟨method, -, hplanOf⟩
  · cases hnone
  · exact ⟨method, hplanOf⟩

theorem length_resolveAll? {types resolved : List Ty} (hresolved : Ty.resolveAll? ds types = some resolved) :
    resolved.length = types.length := by
  induction types generalizing resolved with
  | nil =>
      rw [Ty.resolveAll?] at hresolved
      obtain rfl := Option.some.inj hresolved
      rfl
  | cons ty rest ih =>
      rw [Ty.resolveAll?] at hresolved
      obtain ⟨first, -, hresolved⟩ := Option.bind_eq_some_iff.mp hresolved
      obtain ⟨others, hothers, hresolved⟩ := Option.bind_eq_some_iff.mp hresolved
      obtain rfl := Option.some.inj hresolved
      rw [List.length_cons, List.length_cons, ih hothers]

theorem length_hints? {returns : Ty} (hhints : method.hints? ds = some (hints, returns)) :
    (method.parameters.zip hints).length = method.parameters.length := by
  obtain ⟨types, htypes, hrest⟩ := Option.bind_eq_some_iff.mp hhints
  obtain ⟨result, -, hpair⟩ := Option.bind_eq_some_iff.mp hrest
  obtain ⟨rfl, -⟩ := Prod.mk.inj (Option.some.inj hpair)
  rw [List.length_zip, length_resolveAll? htypes, List.length_map, Nat.min_self]

/--
In every plan that the usual contract reads, a position has the roles that its parameter asks
for, without those that a later one takes away. It has exactly one role if each parameter asks
for one and the address and the options are asked for once.
-/
theorem read_hasRole_iff [Charsets] (hread : usual.read ds interfaces api = .ok plans)
    (hplan : plan ∈ plans) (hhandled : plan.ignored = false) :
    ∃ hints returns, plan.method.hints? ds = some (hints, returns) ∧
      (∀ position role, plan.HasRole position role ↔
        IsGiven (plan.method.parameters.zip hints) position role) ∧
      (AskApart (plan.method.parameters.zip hints) →
        ∀ position < plan.method.parameters.length, ∃! role, plan.HasRole position role) := by
  obtain ⟨method, hplanOf⟩ := planOf_of_mem_read hread hplan
  obtain ⟨hints, returns, hhints, rfl, hrecords⟩ := records_planOf hplanOf hhandled
  refine ⟨hints, returns, hhints, hrecords.roles, ?_⟩
  intro hasked position hposition
  rw [← length_hints? hhints] at hposition
  simp only [hrecords.roles]
  exact hasked.existsUnique hposition

/-! ## A method without placeholders -/

/-- A method that has no placeholders. -/
def ping (parameters : List ParameterDecl) : MethodDecl where
  name := "ping"
  directives := [.requestLine "GET /ping" true .exploded]
  parameters := parameters

/-- An interface with such a method only. -/
def pinging (parameters : List ParameterDecl) : InterfaceDecl where
  name := "Api"
  members := [("ping", .method (ping parameters))]

theorem methods_pinging (parameters : List ParameterDecl) :
    Interfaces.methods [pinging parameters] "Api" = [("ping", ping parameters)] := by
  have hmerge : Lineage.merge [[]] = [] := by
    rw [Lineage.merge]
    rfl
  have hlineage : Lineage.of [("Api", [])] "Api" = ["Api"] := by
    change "Api" :: Lineage.merge [[]] = _
    rw [hmerge]
  have hfound : Interfaces.lineage [pinging parameters] "Api" = [pinging parameters] := by
    change (Lineage.of [("Api", [])] "Api").filterMap (Interfaces.find? [pinging parameters]) = _
    rw [hlineage]
    simp [Interfaces.find?, pinging]
  unfold Interfaces.methods Interfaces.members
  rw [hfound]
  simp [pinging, Entries.ofPairs, Entries.put, Interfaces.isPrivate, Interfaces.methodOf?]

theorem read_pinging [Charsets] {parameters : List ParameterDecl}
    (hread : planOf usual [] [pinging parameters] (pinging parameters) (ping parameters) = .ok plan) :
    usual.read [] [pinging parameters] (pinging parameters) = .ok [plan] := by
  unfold read
  refine bind_eq_ok.mpr ⟨(), rfl, ?_⟩
  change plansOf usual [] [pinging parameters] (pinging parameters) []
    (((Interfaces.methods [pinging parameters] "Api").map Prod.snd).filter fun m => !m.isDefault) = _
  rw [methods_pinging]
  exact bind_eq_ok.mpr ⟨plan, hread, rfl⟩

open scoped CommonCharsets

theorem read_hasRole_iff_addressAndOptions : ∃ plan,
    usual.read [] [pinging [{ name := "a", ty := some .url }, { name := "b", ty := some .options }]]
      (pinging [{ name := "a", ty := some .url }, { name := "b", ty := some .options }]) =
        .ok [plan] ∧
    plan.ignored = false ∧ (∃! role, plan.HasRole 0 role) ∧ ∃! role, plan.HasRole 1 role := by
  have hplan : (planOf usual []
      [pinging [{ name := "a", ty := some .url }, { name := "b", ty := some .options }]]
      (pinging [{ name := "a", ty := some .url }, { name := "b", ty := some .options }])
      (ping [{ name := "a", ty := some .url }, { name := "b", ty := some .options }])).map
        Plan.ignored = .ok false := rfl
  obtain ⟨plan, hplanOf, hhandled⟩ := map_eq_ok.mp hplan
  have hread := read_pinging hplanOf
  obtain ⟨-, -, -, hmethod, -⟩ := records_planOf hplanOf hhandled
  obtain ⟨hints, returns, hhints, -, hunique⟩ :=
    read_hasRole_iff hread List.mem_cons_self hhandled
  rw [hmethod] at hhints hunique
  obtain ⟨rfl, -⟩ := Prod.mk.inj (Option.some.inj hhints)
  have hasked : AskApart [({ name := "a", ty := some .url }, .url),
      ({ name := "b", ty := some .options }, .options)] := by
    have haddress : askedRoles ({ name := "a", ty := some .url }, .url) = [.address] := rfl
    have hoptions : askedRoles ({ name := "b", ty := some .options }, .options) = [.options] := rfl
    refine ⟨?_, ?_⟩
    · simp [haddress, hoptions]
    · simp [haddress, hoptions]
  exact ⟨plan, hread, hhandled, hunique hasked 0 (by decide), hunique hasked 1 (by decide)⟩

/-- Of two parameters that ask to be the address the first has no role at all. -/
theorem read_leaves_no_role : ∃ plan,
    usual.read [] [pinging [{ name := "a", ty := some .url }, { name := "b", ty := some .url }]]
      (pinging [{ name := "a", ty := some .url }, { name := "b", ty := some .url }]) = .ok [plan] ∧
    plan.ignored = false ∧ plan.method.parameters.length = 2 ∧ ∀ role, ¬ plan.HasRole 0 role := by
  have hplan : (planOf usual []
      [pinging [{ name := "a", ty := some .url }, { name := "b", ty := some .url }]]
      (pinging [{ name := "a", ty := some .url }, { name := "b", ty := some .url }])
      (ping [{ name := "a", ty := some .url }, { name := "b", ty := some .url }])).map
        (fun plan => (plan.ignored, plan.method.parameters.length, plan.urlIndex,
          plan.optionsIndex, plan.bodyIndex, plan.headerMapIndex, plan.queryMapIndex, plan.names)) =
      .ok (false, 2, some 1, none, .null, none, none, []) := rfl
  obtain ⟨plan, hplanOf, hfields⟩ := map_eq_ok.mp hplan
  simp only [Prod.mk.injEq] at hfields
  obtain ⟨hhandled, hlength, haddress, hoptions, hbody, hheaderMap, hqueryMap, hnames⟩ := hfields
  refine ⟨plan, read_pinging hplanOf, hhandled, hlength, ?_⟩
  intro role
  cases role <;>
    simp [Plan.HasRole, haddress, hoptions, hbody, hheaderMap, hqueryMap, hnames, Entries.keys]

end Interfaces

end Contract

end HttpBinding
