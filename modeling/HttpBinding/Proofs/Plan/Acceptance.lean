import HttpBinding.Proofs.Plan.Refusals
import HttpBinding.Proofs.Plan.Tallies

/-!
# Which parameters are accepted

Parameters are read from the first to the last, and the reading ends at the first one that
does not fit those before it; what is declared of maps is looked at afterwards. This module
says what is true after any number of parameters, from which it follows that the reading
ends with a fault exactly when the parameters are in conflict.
-/

namespace HttpBinding.Contract

variable {ds : Declarations} {t : Template} {plan plan' : Plan} {why : BuildFault} {index : Nat}
  {parameters done : List (ParameterDecl × Ty)} {parameter : ParameterDecl × Ty}

/-- There is a body once a parameter was read that can only be the body. -/
theorem Records.hasBody_iff (hrecords : Records plan done) :
    plan.hasBody = true ↔ 0 < done.countP (isCandidate Ty.unwrapOptional) := by
  rw [List.countP_pos_iff]
  constructor
  · intro hbody
    rcases hrecords.body with hnull | ⟨position, -, hint⟩
    · rw [Plan.hasBody, hnull] at hbody
      cases hbody
    · obtain ⟨⟨parameter, hparameter, hasked⟩, -⟩ := (hrecords.roles position .body).mp hint
      exact ⟨parameter, List.mem_of_getElem? hparameter, body_mem_askedRoles_iff.mp hasked⟩
  · rintro ⟨parameter, hparameter, hcandidate⟩
    obtain ⟨position, hposition⟩ := List.getElem?_of_mem hparameter
    have hbody : plan.bodyIndex = .int position := by
      refine (hrecords.roles position .body).mpr ⟨⟨parameter, hposition, ?_⟩, ?_⟩
      · exact body_mem_askedRoles_iff.mpr hcandidate
      · intro hmovable
        cases hmovable
    rw [Plan.hasBody, hbody]
    rfl

/-- What can only be the body takes the body, everything else gets on without a fault. -/
theorem assignRole_of_isCandidate [Charsets]
    (hcandidate : isCandidate Ty.unwrapOptional parameter = true) :
    assignRole index (ParameterDecl.splitRemarks parameter.2) (knowsMarker usual parameter.1) plan =
      takeBody index (ParameterDecl.splitRemarks parameter.2) plan := by
  have hknown := knowsMarker_iff parameter.1
  unfold isCandidate at hcandidate
  simp only [Bool.and_eq_true, List.isEmpty_iff, Bool.not_eq_true'] at hcandidate
  obtain ⟨⟨hmarked, haddress⟩, hoptions⟩ := hcandidate
  have hunknown : knowsMarker usual parameter.1 = false := by
    rw [← Bool.not_eq_true, hknown]
    exact fun hne => hne hmarked
  unfold assignRole
  rw [haddress, hoptions, hunknown]
  rfl

/-- Only what can only be the body is refused for its type. -/
theorem isCandidate_of_assignRole [Charsets]
    (hread : assignRole index (ParameterDecl.splitRemarks parameter.2)
    (knowsMarker usual parameter.1) plan = .error why) :
    isCandidate Ty.unwrapOptional parameter = true := by
  have hknown := knowsMarker_iff parameter.1
  unfold assignRole at hread
  split at hread
  · cases hread
  next haddress =>
    split at hread
    · cases hread
    next hoptions =>
      split at hread
      · cases hread
      next hunknown =>
        have hmarked : parameter.1.markedRoles = [] := by
          rw [Bool.not_eq_true] at hunknown
          simpa [hunknown] using hknown
        simp [isCandidate, haddress, hoptions, hmarked]

/-- A plan of parameters that have been read, none of which is in conflict with another. -/
structure Admits (t : Template) (plan : Plan) (done : List (ParameterDecl × Ty)) : Prop where
  records : Records plan done
  tallies : Tallies t plan (marksOf done)
  fixed : ∀ parameter ∈ done, isVariadic parameter.1 = false
  bodies : done.countP (isCandidate Ty.unwrapOptional) ≤ 1

theorem AskTwice.conflict (htwice : AskTwice (marksOf done)) : Conflict ds Ty.unwrapOptional t done :=
  htwice.elim .queryMaps .headerMaps

/-- A position is free for a parameter that can only be the body. -/
theorem Records.isTaken_markedPlan [Charsets] {marked : Plan} (hrecords : Records plan done)
    (hmarkers : readMarkers usual done.length parameter.1.name parameter.1.markers plan = .ok marked)
    (hcandidate : isCandidate Ty.unwrapOptional parameter = true) :
    (markedPlan done.length (knowsMarker usual parameter.1) marked).isTaken done.length = false ∧
      (markedPlan done.length (knowsMarker usual parameter.1) marked).hasBody = plan.hasBody := by
  have hadds : AddsRoles done.length parameter.1.markedRoles plan marked :=
    addsRoles_readMarkers hmarkers
  have hmarked := (isCandidate_iff.mp hcandidate).1
  have hunknown : knowsMarker usual parameter.1 = false := by
    rw [← Bool.not_eq_true, knowsMarker_iff]
    exact fun hne => hne hmarked
  rw [hunknown]
  rw [hmarked] at hadds
  refine ⟨(hrecords.of_addsRoles_nil hadds).isTaken_eq_false, ?_⟩
  change marked.hasBody = plan.hasBody
  rw [Plan.hasBody, Plan.hasBody, hadds.body]

/-- What can only be the body is refused beside variables of the form and beside another body. -/
theorem conflict_of_takeBody {ty : Ty} (hfree : plan.isTaken index = false)
    (htallies : Tallies t plan (marksOf (done ++ [parameter])))
    (hbody : plan.hasBody = true ↔ 0 < done.countP (isCandidate Ty.unwrapOptional))
    (hcandidate : isCandidate Ty.unwrapOptional parameter = true)
    (hread : takeBody index ty plan = .error why) :
    Conflict ds Ty.unwrapOptional t (done ++ [parameter]) := by
  unfold takeBody at hread
  rw [hfree, if_neg Bool.false_ne_true] at hread
  split at hread
  next hforms =>
    refine .bodyBesideForm (List.mem_append_right _ List.mem_cons_self) hcandidate ?_
    exact htallies.form.mp (by simpa using hforms)
  next =>
    split at hread
    next htwo =>
      have hone := hbody.mp htwo
      refine .bodies ?_
      rw [List.countP_append, List.countP_singleton, if_pos hcandidate]
      omega
    next => cases hread

/-- One more parameter that is not refused is admitted. -/
theorem admits_readParameter [Charsets] (hadmits : Admits t plan done)
    (hname : parameter.1.name ≠ "")
    (hread : readParameter usual done.length parameter.1 parameter.2 plan = .ok plan') :
    Admits t plan' (done ++ [parameter]) := by
  have hrecords := (records_readParameter hadmits.records hread).1
  have hmarks := tallies_readMarkers done.length hadmits.tallies hname parameter.1.markers
  rw [← marksOf_concat] at hmarks
  unfold readParameter at hread
  split at hread
  · cases hread
  next hfixed =>
    obtain ⟨marked, hmarkers, htype⟩ := bind_eq_ok.mp hread
    change assignRole done.length (ParameterDecl.splitRemarks parameter.2)
      (knowsMarker usual parameter.1)
      (markedPlan done.length (knowsMarker usual parameter.1) marked) = .ok plan' at htype
    refine ⟨hrecords, tallies_assignRole (tallies_markedPlan (hmarks.1 _ hmarkers)) htype, ?_, ?_⟩
    · intro other hother
      rcases List.mem_append.mp hother with hold | hnew
      · exact hadmits.fixed other hold
      · rw [List.mem_singleton.mp hnew]
        exact Bool.not_eq_true _ ▸ hfixed
    · rw [List.countP_append, List.countP_singleton]
      cases hcandidate : isCandidate Ty.unwrapOptional parameter with
      | false => simpa using hadmits.bodies
      | true =>
          obtain ⟨hfree, hsame⟩ := hadmits.records.isTaken_markedPlan hmarkers hcandidate
          rw [assignRole_of_isCandidate hcandidate] at htype
          have hnobody := (takeBody_eq hfree htype).1
          -- Nothing took the body before, so this is the first that can only be the body.
          have hnone : ¬ 0 < done.countP (isCandidate Ty.unwrapOptional) := by
            rw [← hadmits.records.hasBody_iff, ← hsame, Plan.hasBody, hnobody]
            exact Bool.false_ne_true
          simp only [if_true]
          omega

/-- One more parameter that is refused is in conflict with those before it. -/
theorem conflict_of_readParameter [Charsets] (hadmits : Admits t plan done)
    (hname : parameter.1.name ≠ "")
    (hread : readParameter usual done.length parameter.1 parameter.2 plan = .error why) :
    Conflict ds Ty.unwrapOptional t (done ++ [parameter]) := by
  have hmarks := tallies_readMarkers done.length hadmits.tallies hname parameter.1.markers
  rw [← marksOf_concat] at hmarks
  unfold readParameter at hread
  split at hread
  next hvariadic => exact .variadic (List.mem_append_right _ List.mem_cons_self) hvariadic
  next =>
    rcases bind_eq_error.mp hread with hmarkers | ⟨marked, hmarkers, htype⟩
    · exact (hmarks.2 why hmarkers).conflict
    · have hcandidate := isCandidate_of_assignRole htype
      obtain ⟨hfree, hsame⟩ := hadmits.records.isTaken_markedPlan hmarkers hcandidate
      rw [assignRole_of_isCandidate hcandidate] at htype
      exact conflict_of_takeBody hfree (tallies_markedPlan (hmarks.1 _ hmarkers))
        (hsame ▸ hadmits.records.hasBody_iff) hcandidate htype

/-- Parameters are all admitted, or the reading ends at one that is in conflict. -/
theorem admits_readParameters [Charsets] (ds : Declarations) (hadmits : Admits t plan done)
    (hnames : ∀ parameter ∈ parameters, parameter.1.name ≠ "") :
    (∀ plan', readParameters usual done.length parameters plan = .ok plan' →
      Admits t plan' (done ++ parameters)) ∧
    (∀ why, readParameters usual done.length parameters plan = .error why →
      Conflict ds Ty.unwrapOptional t (done ++ parameters)) := by
  induction parameters generalizing plan done with
  | nil =>
      refine ⟨?_, ?_⟩
      · intro plan' hread
        obtain rfl := Except.ok.inj hread
        simpa using hadmits
      · intro why hread
        cases hread
  | cons parameter rest ih =>
      have hname := hnames parameter List.mem_cons_self
      have hrestnames : ∀ other ∈ rest, other.1.name ≠ "" :=
        fun other hother => hnames other (List.mem_cons_of_mem _ hother)
      -- A position is the number of the parameters before it.
      have hlength : done.length + 1 = (done ++ [parameter]).length := by simp
      rw [List.append_cons, readParameters, hlength]
      refine ⟨?_, ?_⟩
      · intro plan' hread
        obtain ⟨between, hfirst, hrest⟩ := bind_eq_ok.mp hread
        exact (ih (admits_readParameter hadmits hname hfirst) hrestnames).1 plan' hrest
      · intro why hread
        rcases bind_eq_error.mp hread with hfirst | ⟨between, hfirst, hrest⟩
        · exact (conflict_of_readParameter hadmits hname hfirst).append _
        · exact (ih (admits_readParameter hadmits hname hfirst) hrestnames).2 why hrest

/-! ## Maps -/

section Maps

variable {hints : List Ty} {decls : List ParameterDecl} {role : Role}

/-- No parameter asks for a map by its type, and none takes a map away. -/
theorem isGiven_map_iff (hrole : role = .headerMap ∨ role = .queryMap) {position : Nat} :
    IsGiven done position role ↔
      ∃ parameter, done[position]? = some parameter ∧ role ∈ parameter.1.markedRoles := by
  have hfixed : role.isMovable = false := by
    rcases hrole with rfl | rfl <;> rfl
  have hbody : role ≠ .body := by
    rcases hrole with rfl | rfl <;> exact Role.noConfusion
  have htype : ∀ ty : Ty, ty.role? ≠ some role := by
    intro ty
    unfold Ty.role?
    rcases hrole with rfl | rfl <;> (split <;> [skip; split]) <;> simp
  unfold IsGiven
  simp only [hfixed, mem_askedRoles, htype, hbody]
  simp

theorem checkKeys_refuses_iff {ty : Ty} {map : MapRole} :
    (∃ why, checkKeys ds map ty = .error why) ↔ HasForeignKey ds ty := by
  unfold checkKeys HasForeignKey
  cases hkey : ds.keyTy? ty with
  | none => simp
  | some key => cases htext : key.isText <;> simp [htext]

/-- The plain type at the position of a map is the one of the parameter that asks for the map. -/
theorem plainTy?_at_iff {position? : Option Nat} (hrole : role = .headerMap ∨ role = .queryMap)
    (hgiven : ∀ position, position? = some position ↔ IsGiven (decls.zip hints) position role)
    (ty : Ty) :
    position?.bind (plainTy? hints) = some ty ↔ ∃ parameter ∈ decls.zip hints,
      role ∈ parameter.1.markedRoles ∧ ty = (ParameterDecl.splitRemarks parameter.2).unwrapOptional := by
  have hplain : ∀ {position parameter}, (decls.zip hints)[position]? = some parameter →
      plainTy? hints position = some (ParameterDecl.splitRemarks parameter.2).unwrapOptional := by
    intro position parameter hparameter
    unfold plainTy?
    rw [(List.getElem?_zip_eq_some.mp hparameter).2]
    rfl
  constructor
  · intro hty
    obtain ⟨position, hposition, hty⟩ := Option.bind_eq_some_iff.mp hty
    obtain ⟨parameter, hparameter, hasked⟩ :=
      (isGiven_map_iff hrole).mp ((hgiven position).mp hposition)
    rw [hplain hparameter] at hty
    exact ⟨parameter, List.mem_of_getElem? hparameter, hasked, (Option.some.inj hty).symm⟩
  · rintro ⟨parameter, hparameter, hasked, rfl⟩
    obtain ⟨position, hposition⟩ := List.getElem?_of_mem hparameter
    have hindex := (hgiven position).mpr ((isGiven_map_iff hrole).mpr ⟨parameter, hposition, hasked⟩)
    rw [hindex]
    exact hplain hposition

/-- A header map is refused if it is no mapping, or one from something else than text. -/
theorem checkHeaderMap_refuses_iff (hrecords : Records plan (decls.zip hints)) :
    (∃ why, checkHeaderMap ds hints plan = .error why) ↔ ∃ parameter ∈ decls.zip hints,
      .headerMap ∈ parameter.1.markedRoles ∧
        (ds.isMapping (ParameterDecl.splitRemarks parameter.2).unwrapOptional = false ∨
          HasForeignKey ds (ParameterDecl.splitRemarks parameter.2).unwrapOptional) := by
  have hplain := plainTy?_at_iff (Or.inl rfl)
    (fun position => hrecords.roles position .headerMap)
  unfold checkHeaderMap
  constructor
  · rintro ⟨why, hread⟩
    split at hread
    · cases hread
    next ty hty =>
      obtain ⟨parameter, hparameter, hasked, rfl⟩ := (hplain ty).mp hty
      refine ⟨parameter, hparameter, hasked, ?_⟩
      split at hread
      · exact Or.inr (checkKeys_refuses_iff.mp ⟨why, hread⟩)
      next hother => exact Or.inl (Bool.not_eq_true _ ▸ hother)
  · rintro ⟨parameter, hparameter, hasked, hrefused⟩
    rw [(hplain _).mpr ⟨parameter, hparameter, hasked, rfl⟩]
    dsimp only
    split
    next hmapping =>
      refine checkKeys_refuses_iff.mpr (hrefused.resolve_left ?_)
      rw [hmapping]
      exact Bool.noConfusion
    next => exact ⟨_, rfl⟩

/-- A query map is refused if it is a mapping from something else than text. -/
theorem checkQueryMap_refuses_iff (hrecords : Records plan (decls.zip hints)) :
    (∃ why, checkQueryMap ds hints plan = .error why) ↔ ∃ parameter ∈ decls.zip hints,
      .queryMap ∈ parameter.1.markedRoles ∧
        ds.isMapping (ParameterDecl.splitRemarks parameter.2).unwrapOptional = true ∧
          HasForeignKey ds (ParameterDecl.splitRemarks parameter.2).unwrapOptional := by
  have hplain := plainTy?_at_iff (Or.inr rfl)
    (fun position => hrecords.roles position .queryMap)
  unfold checkQueryMap
  constructor
  · rintro ⟨why, hread⟩
    split at hread
    · cases hread
    next ty hty =>
      obtain ⟨parameter, hparameter, hasked, rfl⟩ := (hplain ty).mp hty
      split at hread
      next hmapping =>
        exact ⟨parameter, hparameter, hasked, hmapping, checkKeys_refuses_iff.mp ⟨why, hread⟩⟩
      next => cases hread
  · rintro ⟨parameter, hparameter, hasked, hmapping, hkey⟩
    rw [(hplain _).mpr ⟨parameter, hparameter, hasked, rfl⟩]
    dsimp only
    rw [if_pos hmapping]
    exact checkKeys_refuses_iff.mpr hkey

/-- Of parameters that were all admitted the body beside a form and the maps are left to look at. -/
theorem conflict_iff_of_admits (hadmits : Admits t plan (decls.zip hints)) :
    Conflict ds Ty.unwrapOptional t (decls.zip hints) ↔
      (plan.hasBody = true ∧ plan.formNames ≠ []) ∨
        (∃ why, checkHeaderMap ds hints plan = .error why) ∨
          ∃ why, checkQueryMap ds hints plan = .error why := by
  rw [checkHeaderMap_refuses_iff hadmits.records, checkQueryMap_refuses_iff hadmits.records,
    hadmits.records.hasBody_iff, List.countP_pos_iff, hadmits.tallies.form]
  constructor
  · intro hconflict
    cases hconflict with
    | variadic hparameter hvariadic =>
        rw [hadmits.fixed _ hparameter] at hvariadic
        cases hvariadic
    | queryMaps htwice => exact absurd hadmits.tallies.queryMaps (Nat.not_le.mpr htwice)
    | headerMaps htwice => exact absurd hadmits.tallies.headerMaps (Nat.not_le.mpr htwice)
    | bodies htwice => exact absurd hadmits.bodies (Nat.not_le.mpr htwice)
    | bodyBesideForm hparameter hbody hform => exact Or.inl ⟨⟨_, hparameter, hbody⟩, hform⟩
    | noMapping hparameter hmap hother =>
        exact Or.inr (Or.inl ⟨_, hparameter, hmap, Or.inl hother⟩)
    | foreignHeader hparameter hmap hkey =>
        exact Or.inr (Or.inl ⟨_, hparameter, hmap, Or.inr hkey⟩)
    | foreignQuery hparameter hmap hmapping hkey =>
        exact Or.inr (Or.inr ⟨_, hparameter, hmap, hmapping, hkey⟩)
  · rintro (⟨⟨parameter, hparameter, hbody⟩, hform⟩ | ⟨parameter, hparameter, hmap, hother | hkey⟩ |
      ⟨parameter, hparameter, hmap, hmapping, hkey⟩)
    · exact .bodyBesideForm hparameter hbody hform
    · exact .noMapping hparameter hmap hother
    · exact .foreignHeader hparameter hmap hkey
    · exact .foreignQuery hparameter hmap hmapping hkey

end Maps

/-! ## Arguments -/

section Arguments

variable {hints : List Ty} {interfaces : Interfaces} {api : InterfaceDecl} {method : MethodDecl}
  {returns : Ty} {directed : Plan}

/-- What is left to look at when all parameters were read. -/
theorem readArguments_of_readParameters [Charsets]
    (hread : readParameters usual 0 (plan.method.parameters.zip hints) plan = .ok plan') :
    (∃ why, readArguments usual ds hints plan = .error why) ↔
      (plan'.hasBody = true ∧ plan'.formNames ≠ []) ∨
        (∃ why, checkHeaderMap ds hints plan' = .error why) ∨
          ∃ why, checkQueryMap ds hints plan' = .error why := by
  have hforms : (plan'.hasBody && !plan'.formNames.isEmpty) = true ↔
      plan'.hasBody = true ∧ plan'.formNames ≠ [] := by
    simp
  unfold readArguments
  rw [hread]
  change (∃ why, (if plan'.hasBody && !plan'.formNames.isEmpty then _ else _) = Except.error why) ↔ _
  rw [← hforms]
  split
  next hboth => simp [hboth]
  next hboth =>
    rw [or_iff_right hboth]
    cases checkHeaderMap ds hints plan' with
    | error why => exact ⟨fun _ => Or.inl ⟨why, rfl⟩, fun _ => ⟨why, rfl⟩⟩
    | ok _ =>
        cases checkQueryMap ds hints plan' with
        | error why => exact ⟨fun _ => Or.inr ⟨why, rfl⟩, fun _ => ⟨why, rfl⟩⟩
        | ok _ =>
            refine ⟨?_, ?_⟩
            · rintro ⟨why, hdone⟩
              cases hdone
            · rintro (⟨why, hnone⟩ | ⟨why, hnone⟩) <;> cases hnone

/-- Directives admit no parameters yet, whatever they make of the template. -/
theorem admits_directed [Charsets]
    (hdirected : IsDirected usual interfaces api method (blankPlan api method hints returns) directed) :
    Admits directed.template directed [] ∧ directed.method = method := by
  have hdirects := onlyDirects_directed hdirected
  refine ⟨⟨?_, ?_, ?_, Nat.zero_le _⟩, ?_⟩
  · rw [hdirects]
    refine ⟨?_, Or.inl rfl, by simp [blankPlan]⟩
    intro position role
    cases role <;> simp [Plan.HasRole, IsGiven, Entries.keys, blankPlan]
  · rw [hdirects]
    refine ⟨rfl, ?_, ?_, ?_, Nat.zero_le _, Nat.zero_le _⟩ <;>
      simp [blankPlan, marksOf, rolesOf, HasFormVariable]
  · intro parameter hparameter
    cases hparameter
  · rw [hdirects]
    rfl

theorem readArguments_refuses_iff [Charsets] (hadmits : Admits t plan [])
    (hnames : ∀ p ∈ plan.method.parameters, p.name ≠ "") :
    (∃ why, readArguments usual ds hints plan = .error why) ↔
      Conflict ds Ty.unwrapOptional t (plan.method.parameters.zip hints) := by
  have hzip : ∀ parameter ∈ plan.method.parameters.zip hints, parameter.1.name ≠ "" :=
    fun parameter hparameter => hnames _ (List.of_mem_zip hparameter).1
  obtain ⟨hadmitted, hrefused⟩ := admits_readParameters ds hadmits hzip
  rw [List.nil_append, List.length_nil] at hadmitted hrefused
  cases hread : readParameters usual 0 (plan.method.parameters.zip hints) plan with
  | ok plan' =>
      rw [readArguments_of_readParameters hread, conflict_iff_of_admits (hadmitted plan' hread)]
  | error why =>
      have hconflict := hrefused why hread
      have hargs : readArguments usual ds hints plan = .error why :=
        bind_eq_error.mpr (Or.inl hread)
      exact ⟨fun _ => hconflict, fun _ => ⟨why, hargs⟩⟩

/-- After directives that give a verb and leave the method in, only the arguments are left. -/
theorem planOf_of_directed [Charsets] (hhints : method.hints? ds = some (hints, returns))
    (hdirected : IsDirected usual interfaces api method (blankPlan api method hints returns) directed)
    (hhandled : directed.ignored = false) (hverb : directed.template.method.isSome = true) :
    planOf usual ds interfaces api method = readArguments usual ds hints directed := by
  obtain ⟨inherited, declared, hread₁, hread₂, hread₃⟩ := hdirected
  unfold planOf
  rw [hhints]
  change (readInterface usual (parentDirectives interfaces api)
    (blankPlan api method hints returns) >>= _) = _
  rw [hread₁]
  change (readInterface usual api.directives inherited >>= _) = _
  rw [hread₂]
  change (readMethod usual method.directives declared >>= _) = _
  rw [hread₃]
  change (if directed.ignored then _ else _) = _
  rw [hhandled, if_neg Bool.false_ne_true, if_neg]
  rw [Bool.not_eq_true, Option.isNone_eq_false_iff]
  exact hverb

end Arguments

end HttpBinding.Contract
