import HttpBinding.Plan.Reading
import HttpBinding.Proofs.Success

/-!
# What reading an interface keeps

Reading an interface is one change of a plan after another: those that the contract knows
for directives and markers, and those that reading makes by itself, which warns, leaves
positions out and gives roles by type. A property of plans that every single change keeps
holds of the plan of a method.
-/

namespace HttpBinding.Contract

variable {contract : Contract} {holds : Plan → Prop} {plan plan' : Plan}
  {ds : Declarations} {interfaces : Interfaces} {api : InterfaceDecl} {method : MethodDecl}
  {hints : List Ty} {index : Nat}

/-- Every change that a contract knows keeps a property of plans. -/
structure Keeps (contract : Contract) (holds : Plan → Prop) : Prop where
  onInterface : ∀ {directive revise plan plan'}, contract.onInterface directive = some revise →
    holds plan → revise plan = .ok plan' → holds plan'
  onMethod : ∀ {directive revise plan plan'}, contract.onMethod directive = some revise →
    holds plan → revise plan = .ok plan' → holds plan'
  onParameter : ∀ {marker revise index name plan plan'}, contract.onParameter marker = some revise →
    holds plan → revise index name plan = .ok plan' → holds plan'

/-- A property of plans that no warning, no position that is left out and no role by type decides. -/
structure IsAside (holds : Plan → Prop) : Prop where
  warn : ∀ {plan} warning, holds plan → holds (plan.warn warning)
  skip : ∀ {plan} position, holds plan → holds (plan.skip position)
  address : ∀ {plan : Plan} index, holds plan → holds { plan with urlIndex := index }
  options : ∀ {plan : Plan} index, holds plan → holds { plan with optionsIndex := index }
  body : ∀ {plan : Plan} index ty, holds plan → holds { plan with bodyIndex := index, bodyType := ty }

theorem keeps_readInterface (hkeeps : contract.Keeps holds) {directives : List Directive}
    (hplan : holds plan) (hread : readInterface contract directives plan = .ok plan') :
    holds plan' := by
  induction directives generalizing plan with
  | nil =>
      obtain rfl := Except.ok.inj hread
      exact hplan
  | cons directive rest ih =>
      rw [readInterface] at hread
      split at hread
      · exact ih hplan hread
      next revise hknown =>
        obtain ⟨between, hfirst, hrest⟩ := bind_eq_ok.mp hread
        exact ih (hkeeps.onInterface hknown hplan hfirst) hrest

theorem keeps_readMethod (hkeeps : contract.Keeps holds) (haside : IsAside holds)
    {directives : List Directive} (hplan : holds plan)
    (hread : readMethod contract directives plan = .ok plan') : holds plan' := by
  induction directives generalizing plan with
  | nil =>
      obtain rfl := Except.ok.inj hread
      exact hplan
  | cons directive rest ih =>
      rw [readMethod] at hread
      split at hread
      · exact ih (haside.warn _ hplan) hread
      next revise hknown =>
        obtain ⟨between, hfirst, hrest⟩ := bind_eq_ok.mp hread
        exact ih (hkeeps.onMethod hknown hplan hfirst) hrest

/-- Every change that a contract knows for markers keeps a property of plans. -/
def KeepsAtMarkers (contract : Contract) (holds : Plan → Prop) : Prop :=
  ∀ marker revise index name plan plan', contract.onParameter marker = some revise →
    holds plan → revise index name plan = .ok plan' → holds plan'

theorem Keeps.atMarkers (hkeeps : contract.Keeps holds) : contract.KeepsAtMarkers holds :=
  fun _ _ _ _ _ _ hknown hplan hread => hkeeps.onParameter hknown hplan hread

theorem keeps_readMarkers (hkeeps : contract.KeepsAtMarkers holds) {name : String}
    {markers : List Marker} (hplan : holds plan)
    (hread : readMarkers contract index name markers plan = .ok plan') : holds plan' := by
  induction markers generalizing plan with
  | nil =>
      obtain rfl := Except.ok.inj hread
      exact hplan
  | cons marker rest ih =>
      rw [readMarkers] at hread
      split at hread
      · exact ih hplan hread
      next revise hknown =>
        obtain ⟨between, hfirst, hrest⟩ := bind_eq_ok.mp hread
        exact ih (hkeeps _ _ _ _ _ _ hknown hplan hfirst) hrest

theorem keeps_assignRole (haside : IsAside holds) {ty : Ty} {isMarked : Bool} (hplan : holds plan)
    (hread : assignRole index ty isMarked plan = .ok plan') : holds plan' := by
  unfold assignRole at hread
  split at hread
  · obtain rfl := Except.ok.inj hread
    exact haside.address _ hplan
  · split at hread
    · obtain rfl := Except.ok.inj hread
      exact haside.options _ hplan
    · split at hread
      · obtain rfl := Except.ok.inj hread
        exact hplan
      · unfold takeBody at hread
        split at hread
        · split at hread
          · cases hread
          · obtain rfl := Except.ok.inj hread
            exact hplan
        · split at hread
          · cases hread
          · split at hread
            · cases hread
            · obtain rfl := Except.ok.inj hread
              exact haside.body _ _ hplan

theorem keeps_readParameter (hkeeps : contract.KeepsAtMarkers holds) (haside : IsAside holds)
    {p : ParameterDecl} {hint : Ty} (hplan : holds plan)
    (hread : readParameter contract index p hint plan = .ok plan') : holds plan' := by
  unfold readParameter at hread
  split at hread
  · cases hread
  · obtain ⟨marked, hmarkers, htype⟩ := bind_eq_ok.mp hread
    have hmarked := keeps_readMarkers hkeeps hplan hmarkers
    refine keeps_assignRole haside ?_ htype
    split
    · exact haside.skip _ hmarked
    · exact hmarked

theorem keeps_readParameters (hkeeps : contract.KeepsAtMarkers holds) (haside : IsAside holds)
    {parameters : List (ParameterDecl × Ty)} (hplan : holds plan)
    (hread : readParameters contract index parameters plan = .ok plan') : holds plan' := by
  induction parameters generalizing plan index with
  | nil =>
      obtain rfl := Except.ok.inj hread
      exact hplan
  | cons parameter rest ih =>
      rw [readParameters] at hread
      obtain ⟨between, hfirst, hrest⟩ := bind_eq_ok.mp hread
      exact ih (keeps_readParameter hkeeps haside hplan hfirst) hrest

theorem readArguments_eq_ok (hread : readArguments contract ds hints plan = .ok plan') :
    readParameters contract 0 (plan.method.parameters.zip hints) plan = .ok plan' := by
  unfold readArguments at hread
  obtain ⟨between, hparameters, hchecks⟩ := bind_eq_ok.mp hread
  rw [hparameters]
  split at hchecks
  · cases hchecks
  · obtain ⟨-, -, hchecks⟩ := bind_eq_ok.mp hchecks
    obtain ⟨-, -, hchecks⟩ := bind_eq_ok.mp hchecks
    exact hchecks

/-- The plan that the reading of a method starts from. -/
def blankPlan (api : InterfaceDecl) (method : MethodDecl) (hints : List Ty) (returns : Ty) : Plan :=
  { key := method.keyOf api.name hints, api := api.name, method := method, returns := returns }

/-- What is kept holds of the plan of a method if it holds before anything was read. -/
theorem keeps_planOf (hkeeps : contract.Keeps holds) (haside : IsAside holds)
    (hread : planOf contract ds interfaces api method = .ok plan) :
    ∃ hints returns, method.hints? ds = some (hints, returns) ∧
      (holds (blankPlan api method hints returns) → holds plan) := by
  unfold planOf at hread
  split at hread
  · cases hread
  next hints returns hhints =>
    refine ⟨hints, returns, hhints, ?_⟩
    intro hblank
    obtain ⟨plan₁, hread₁, hread⟩ := bind_eq_ok.mp hread
    obtain ⟨plan₂, hread₂, hread⟩ := bind_eq_ok.mp hread
    obtain ⟨plan₃, hread₃, hread⟩ := bind_eq_ok.mp hread
    have hplan₁ := keeps_readInterface hkeeps hblank hread₁
    have hplan₂ := keeps_readInterface hkeeps hplan₁ hread₂
    have hplan₃ := keeps_readMethod hkeeps haside hplan₂ hread₃
    split at hread
    · obtain rfl := Except.ok.inj hread
      exact hplan₃
    · split at hread
      · cases hread
      · exact keeps_readParameters hkeeps.atMarkers haside hplan₃ (readArguments_eq_ok hread)

/-- What the directives of an interface and a method make of a plan. -/
def IsDirected (contract : Contract) (interfaces : Interfaces) (api : InterfaceDecl)
    (method : MethodDecl) (start directed : Plan) : Prop :=
  ∃ inherited declared,
    readInterface contract (parentDirectives interfaces api) start = .ok inherited ∧
    readInterface contract api.directives inherited = .ok declared ∧
    readMethod contract method.directives declared = .ok directed

theorem keeps_directed (hkeeps : contract.Keeps holds) (haside : IsAside holds) {start directed : Plan}
    (hstart : holds start) (hdirected : IsDirected contract interfaces api method start directed) :
    holds directed := by
  obtain ⟨inherited, declared, hread₁, hread₂, hread₃⟩ := hdirected
  have hinherited := keeps_readInterface hkeeps hstart hread₁
  have hdeclared := keeps_readInterface hkeeps hinherited hread₂
  exact keeps_readMethod hkeeps haside hdeclared hread₃

/-- A method that is handled has a verb from its directives, and then its arguments are read. -/
theorem readArguments_of_planOf (hread : planOf contract ds interfaces api method = .ok plan)
    (hhandled : plan.ignored = false) :
    ∃ hints returns directed, method.hints? ds = some (hints, returns) ∧
      IsDirected contract interfaces api method (blankPlan api method hints returns) directed ∧
      directed.template.method.isSome = true ∧
      readArguments contract ds hints directed = .ok plan := by
  unfold planOf at hread
  split at hread
  · cases hread
  next hints returns hhints =>
    obtain ⟨inherited, hread₁, hread⟩ := bind_eq_ok.mp hread
    obtain ⟨declared, hread₂, hread⟩ := bind_eq_ok.mp hread
    obtain ⟨directed, hread₃, hread⟩ := bind_eq_ok.mp hread
    refine ⟨hints, returns, directed, hhints, ⟨inherited, declared, hread₁, hread₂, hread₃⟩, ?_⟩
    split at hread
    next hignored =>
      obtain rfl := Except.ok.inj hread
      rw [hhandled] at hignored
      cases hignored
    next =>
      split at hread
      · cases hread
      next hmethod =>
        rw [Bool.not_eq_true, Option.isNone_eq_false_iff] at hmethod
        exact ⟨hmethod, hread⟩

theorem planOf_eq_ok (hread : planOf contract ds interfaces api method = .ok plan)
    (hhandled : plan.ignored = false) :
    ∃ hints returns directed, method.hints? ds = some (hints, returns) ∧
      IsDirected contract interfaces api method (blankPlan api method hints returns) directed ∧
      directed.template.method.isSome = true ∧
      readParameters contract 0 (directed.method.parameters.zip hints) directed = .ok plan := by
  obtain ⟨hints, returns, directed, hhints, hdirected, hmethod, harguments⟩ :=
    readArguments_of_planOf hread hhandled
  exact ⟨hints, returns, directed, hhints, hdirected, hmethod, readArguments_eq_ok harguments⟩

/-- A method with a body has no form. -/
theorem formNames_planOf (hread : planOf contract ds interfaces api method = .ok plan)
    (hhandled : plan.ignored = false) (hbody : plan.hasBody = true) :
    plan.formNames.isEmpty = true := by
  obtain ⟨hints, returns, directed, -, -, -, harguments⟩ := readArguments_of_planOf hread hhandled
  unfold readArguments at harguments
  obtain ⟨between, -, hchecks⟩ := bind_eq_ok.mp harguments
  split at hchecks
  · cases hchecks
  next hforms =>
    obtain ⟨-, -, hchecks⟩ := bind_eq_ok.mp hchecks
    obtain ⟨-, -, hchecks⟩ := bind_eq_ok.mp hchecks
    obtain rfl := Except.ok.inj hchecks
    simpa [hbody] using hforms

end HttpBinding.Contract
