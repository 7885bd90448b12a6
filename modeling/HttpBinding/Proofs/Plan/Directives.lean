import HttpBinding.Proofs.Plan.Upkeep

/-!
# Directives give no roles

The directives of an interface and of a method say how a request looks before there are
arguments. The usual contract lets them change the template, leave a method out and
warn, and nothing else of a plan. The markers of parameters are the other way round: they
leave the template as it is and record names, expanders and maps.
-/

namespace HttpBinding.Contract

variable {plan plan' plan'' : Plan}

/-- What directives may change of a plan, none of which is a role. -/
def OnlyDirects (plan plan' : Plan) : Prop :=
  plan' = { plan with
    template := plan'.template, ignored := plan'.ignored, warnings := plan'.warnings }

theorem OnlyDirects.trans (hfirst : OnlyDirects plan plan') (hsecond : OnlyDirects plan' plan'') :
    OnlyDirects plan plan'' := by
  unfold OnlyDirects at hfirst hsecond
  rw [hfirst] at hsecond
  exact hsecond

theorem onlyDirects_setHeaders {place : Place} {lines : List String}
    (hread : setHeaders place lines plan = .ok plan') : OnlyDirects plan plan' := by
  obtain ⟨headers, -, hset⟩ := bind_eq_ok.mp hread
  obtain rfl := Except.ok.inj hset
  rfl

theorem onlyDirects_requestLine {text : String} {decodeSlash : Bool} {format : CollectionFormat}
    (hread : requestLine text decodeSlash format plan = .ok plan') : OnlyDirects plan plan' := by
  unfold requestLine at hread
  dsimp only at hread
  split at hread
  · cases hread
  · split at hread
    · cases hread
    · split at hread
      · cases hread
      · obtain rfl := Except.ok.inj hread
        rfl

theorem onlyDirects_body [Charsets] {text : String} (hread : body text plan = .ok plan') :
    OnlyDirects plan plan' := by
  unfold body at hread
  split at hread
  · cases hread
  · split at hread <;> obtain rfl := Except.ok.inj hread <;> rfl

theorem onlyDirects_onInterface [Charsets] {directive : Directive} {revise : Revision}
    (hknown : usual.onInterface directive = some revise) (hread : revise plan = .ok plan') :
    OnlyDirects plan plan' := by
  cases directive with
  | headers lines =>
      obtain rfl := Option.some.inj hknown
      unfold interfaceHeaders at hread
      split at hread
      · cases hread
      · exact onlyDirects_setHeaders hread
  | _ => cases hknown

theorem onlyDirects_onMethod [Charsets] {directive : Directive} {revise : Revision}
    (hknown : usual.onMethod directive = some revise) (hread : revise plan = .ok plan') :
    OnlyDirects plan plan' := by
  cases directive with
  | requestLine text decodeSlash format =>
      obtain rfl := Option.some.inj hknown
      exact onlyDirects_requestLine hread
  | headers lines =>
      obtain rfl := Option.some.inj hknown
      unfold methodHeaders at hread
      split at hread
      · cases hread
      · exact onlyDirects_setHeaders hread
  | body text =>
      obtain rfl := Option.some.inj hknown
      exact onlyDirects_body hread
  | ignore =>
      obtain rfl := Option.some.inj hknown
      obtain rfl := Except.ok.inj hread
      rfl
  | custom => cases hknown

theorem onlyDirects_readInterface [Charsets] {directives : List Directive}
    (hread : readInterface usual directives plan = .ok plan') : OnlyDirects plan plan' := by
  induction directives generalizing plan with
  | nil =>
      obtain rfl := Except.ok.inj hread
      rfl
  | cons directive rest ih =>
      rw [readInterface] at hread
      cases hknown : usual.onInterface directive with
      | none =>
          rw [hknown] at hread
          exact ih hread
      | some revise =>
          rw [hknown] at hread
          obtain ⟨between, hfirst, hrest⟩ := bind_eq_ok.mp hread
          exact (onlyDirects_onInterface hknown hfirst).trans (ih hrest)

theorem onlyDirects_readMethod [Charsets] {directives : List Directive}
    (hread : readMethod usual directives plan = .ok plan') : OnlyDirects plan plan' := by
  induction directives generalizing plan with
  | nil =>
      obtain rfl := Except.ok.inj hread
      rfl
  | cons directive rest ih =>
      rw [readMethod] at hread
      cases hknown : usual.onMethod directive with
      | none =>
          rw [hknown] at hread
          have hwarned : OnlyDirects plan
              (plan.warn (unusedWarning usual plan.method.name directive)) := rfl
          exact hwarned.trans (ih hread)
      | some revise =>
          rw [hknown] at hread
          obtain ⟨between, hfirst, hrest⟩ := bind_eq_ok.mp hread
          exact (onlyDirects_onMethod hknown hfirst).trans (ih hrest)

theorem onlyDirects_directed [Charsets] {interfaces : Interfaces} {api : InterfaceDecl}
    {method : MethodDecl}
    (hdirected : IsDirected usual interfaces api method plan plan') : OnlyDirects plan plan' := by
  obtain ⟨inherited, declared, hread₁, hread₂, hread₃⟩ := hdirected
  exact ((onlyDirects_readInterface hread₁).trans (onlyDirects_readInterface hread₂)).trans
    (onlyDirects_readMethod hread₃)

/-! ## Markers -/

/-- What markers may change of a plan, none of which the directives decide on. -/
def OnlyMarks (plan plan' : Plan) : Prop :=
  plan' = { plan with
    names := plan'.names, expanders := plan'.expanders, formNames := plan'.formNames
    queryMapIndex := plan'.queryMapIndex, queryMapEncoded := plan'.queryMapEncoded
    headerMapIndex := plan'.headerMapIndex }

/-- A variable gets a name, and the form gets the name if no placeholder has it. -/
theorem param_eq {given parameter : String} {expander : Option Expander} {index : Nat}
    (hread : param given expander index parameter plan = .ok plan') :
    ∃ name expanders formNames,
      plan' = { plan.bindName name index with expanders := expanders, formNames := formNames } ∧
        (formNames = plan.formNames ∧
            (plan.template.hasVariable name = true ∨ plan.isFormName name = true) ∨
          formNames = plan.formNames ++ [.text name]) := by
  have hplaced : ∀ (name : String) (bound : Plan), bound.template = plan.template →
      bound.formNames = plan.formNames →
      (bound.template.hasVariable name || bound.isFormName name) = true →
      plan.template.hasVariable name = true ∨ plan.isFormName name = true := by
    intro name bound htemplate hforms hbound
    unfold Plan.isFormName at hbound ⊢
    rwa [htemplate, hforms, Bool.or_eq_true] at hbound
  unfold param at hread
  dsimp only at hread
  generalize (if given.isEmpty = true then parameter else given) = name at hread
  split at hread
  · cases hread
  · cases expander with
    | none =>
        dsimp only at hread
        split at hread
        next hbound =>
          exact ⟨name, _, _, (Except.ok.inj hread).symm, Or.inl ⟨rfl, hplaced name _ rfl rfl hbound⟩⟩
        next => exact ⟨name, _, _, (Except.ok.inj hread).symm, Or.inr rfl⟩
    | some expander =>
        dsimp only at hread
        split at hread
        next hbound =>
          exact ⟨name, _, _, (Except.ok.inj hread).symm, Or.inl ⟨rfl, hplaced name _ rfl rfl hbound⟩⟩
        next => exact ⟨name, _, _, (Except.ok.inj hread).symm, Or.inr rfl⟩

theorem onlyMarks_onParameter [Charsets] {marker : Marker} {revise : Nat → String → Revision}
    {index : Nat} {parameter : String} (hknown : usual.onParameter marker = some revise)
    (hread : revise index parameter plan = .ok plan') : OnlyMarks plan plan' := by
  cases marker with
  | param given expander =>
      obtain rfl := Option.some.inj hknown
      obtain ⟨name, expanders, formNames, rfl, -⟩ := param_eq hread
      rfl
  | queryMap encoded =>
      obtain rfl := Option.some.inj hknown
      change queryMap encoded index plan = .ok plan' at hread
      unfold queryMap at hread
      split at hread
      · cases hread
      · obtain rfl := Except.ok.inj hread
        rfl
  | headerMap =>
      obtain rfl := Option.some.inj hknown
      change headerMap index plan = .ok plan' at hread
      unfold headerMap at hread
      split at hread
      · cases hread
      · obtain rfl := Except.ok.inj hread
        rfl
  | custom => cases hknown
  | remark => cases hknown

end HttpBinding.Contract
