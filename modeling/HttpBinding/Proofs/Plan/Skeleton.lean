import HttpBinding.Proofs.Plan.Roles
import HttpBinding.Proofs.Target.Below

/-!
# What calls start from

A call fills a copy of the template of its plan. The usual contract leaves that template
well formed, in the usual charset and with a path that is rooted, and every variable that
an argument is bound to has a place: a placeholder of the template or the form.
-/

namespace HttpBinding

/-- What holds of the template of a plan before there are arguments. -/
structure Template.IsSkeleton (t : Template) : Prop where
  wellFormed : t.IsWellFormed
  charset : t.charset = "utf-8"
  path : startsWith "/" t.path = true ∨ t.path = "" ∨ startsWith "\x7b" t.path = true ∨
    startsWith "http" t.path = true

/-- What holds of a plan whose method can be called. -/
structure Plan.IsReady (plan : Plan) : Prop where
  template : plan.template.IsSkeleton
  method : plan.template.method.isSome = true
  names : plan.names.keys.Nodup
  /-- Each variable has a placeholder or belongs to the form. -/
  placed : ∀ entry ∈ plan.names, ∀ name ∈ entry.2,
    plan.template.hasVariable name = true ∨ plan.isFormName name = true

namespace Template

variable {t : Template}

theorem isSkeleton_fresh : IsSkeleton {} :=
  ⟨isWellFormed_fresh, rfl, Or.inr (Or.inl rfl)⟩

theorem isSkeleton_uri (ht : t.IsSkeleton) (text : String) : (t.uri text false).IsSkeleton where
  wellFormed := isWellFormed_uri ht.wellFormed text false
  charset := by
    rw [uri_eq]
    exact ht.charset
  path := by
    rw [path_uri]
    rcases rooted_cases (String.ofList (Text.cut '?' text.toList).1) with hslash | ⟨hkept, hpath⟩
    · exact Or.inl hslash
    · rw [hkept]
      exact Or.inr hpath

theorem isSkeleton_configure (ht : t.IsSkeleton) (decodeSlash : Bool) (format : CollectionFormat) :
    ({ t with decodeSlash := decodeSlash, format := format } : Template).IsSkeleton :=
  ⟨{ ht.wellFormed with }, ht.charset, ht.path⟩

theorem isSkeleton_headers [Charsets] (ht : t.IsSkeleton) (headers : Headers) :
    (headers.foldl (fun t entry => t.header entry.1 entry.2) t).IsSkeleton := by
  induction headers generalizing t with
  | nil => exact ht
  | cons entry rest ih =>
      exact ih ⟨isWellFormed_perform ht.wellFormed (.header entry.1 entry.2), ht.charset, ht.path⟩

theorem isSkeleton_setBodyText [Charsets] (ht : t.IsSkeleton) (text : String) :
    (t.setBodyText text).1.IsSkeleton := by
  have hwellFormed := isWellFormed_setBodyText ht.wellFormed text
  unfold setBodyText at hwellFormed ⊢
  split
  next octets hoctets =>
    rw [hoctets] at hwellFormed
    exact ⟨hwellFormed, ht.charset, ht.path⟩
  next => exact ht

end Template

namespace Contract

variable {plan plan' : Plan} {ds : Declarations} {interfaces : Interfaces} {api : InterfaceDecl}
  {method : MethodDecl} {plans : List Plan}

/-! ## Directives -/

theorem isSkeleton_setHeaders [Charsets] {place : Place} {lines : List String}
    (hplan : plan.template.IsSkeleton)
    (hread : setHeaders place lines plan = .ok plan') : plan'.template.IsSkeleton := by
  obtain ⟨headers, -, hset⟩ := bind_eq_ok.mp hread
  obtain rfl := Except.ok.inj hset
  exact Template.isSkeleton_headers hplan headers

theorem isSkeleton_requestLine {text : String} {decodeSlash : Bool} {format : CollectionFormat}
    (hplan : plan.template.IsSkeleton)
    (hread : requestLine text decodeSlash format plan = .ok plan') : plan'.template.IsSkeleton := by
  unfold requestLine at hread
  dsimp only at hread
  split at hread
  · cases hread
  · split at hread
    · cases hread
    next verb address _ =>
      split at hread
      · cases hread
      next verb _ =>
        obtain rfl := Except.ok.inj hread
        have hverb : ({ plan.template with method := some verb } : Template).IsSkeleton :=
          ⟨{ hplan.wellFormed with }, hplan.charset, hplan.path⟩
        exact Template.isSkeleton_configure (Template.isSkeleton_uri hverb (String.ofList address))
          decodeSlash format

theorem isSkeleton_body [Charsets] {text : String} (hplan : plan.template.IsSkeleton)
    (hread : body text plan = .ok plan') : plan'.template.IsSkeleton := by
  unfold body at hread
  split at hread
  · cases hread
  · split at hread
    · obtain rfl := Except.ok.inj hread
      exact ⟨{ hplan.wellFormed with body := Or.inl rfl }, hplan.charset, hplan.path⟩
    · obtain rfl := Except.ok.inj hread
      exact Template.isSkeleton_setBodyText hplan text

theorem keeps_isSkeleton [Charsets] : usual.Keeps fun plan => plan.template.IsSkeleton where
  onInterface := by
    intro directive revise plan plan' hknown hplan hread
    cases directive with
    | headers lines =>
        obtain rfl := Option.some.inj hknown
        unfold interfaceHeaders at hread
        split at hread
        · cases hread
        · exact isSkeleton_setHeaders hplan hread
    | _ => cases hknown
  onMethod := by
    intro directive revise plan plan' hknown hplan hread
    cases directive with
    | requestLine text decodeSlash format =>
        obtain rfl := Option.some.inj hknown
        exact isSkeleton_requestLine hplan hread
    | headers lines =>
        obtain rfl := Option.some.inj hknown
        unfold methodHeaders at hread
        split at hread
        · cases hread
        · exact isSkeleton_setHeaders hplan hread
    | body text =>
        obtain rfl := Option.some.inj hknown
        exact isSkeleton_body hplan hread
    | ignore =>
        obtain rfl := Option.some.inj hknown
        obtain rfl := Except.ok.inj hread
        exact hplan
    | custom => cases hknown
  onParameter := by
    intro marker revise index name plan plan' hknown hplan hread
    rw [onlyMarks_onParameter hknown hread]
    exact hplan

theorem isAside_isSkeleton : IsAside fun plan => plan.template.IsSkeleton :=
  ⟨fun _ h => h, fun _ h => h, fun _ h => h, fun _ h => h, fun _ _ h => h⟩

/-! ## Markers -/

theorem isFormName_append {plan : Plan} {name : String} (values : List Value)
    (hname : plan.isFormName name = true) :
    ({ plan with formNames := plan.formNames ++ values } : Plan).isFormName name = true := by
  unfold Plan.isFormName at hname ⊢
  rw [List.any_append, hname, Bool.true_or]

theorem isFormName_self (plan : Plan) (name : String) :
    ({ plan with formNames := plan.formNames ++ [.text name] } : Plan).isFormName name = true := by
  unfold Plan.isFormName
  simp [Value.sameKey]

/-- What a variable adds to a plan: its name, and the name to the form if no placeholder has it. -/
theorem param_places {given parameter : String} {expander : Option Expander} {index : Nat}
    (hread : param given expander index parameter plan = .ok plan') :
    ∃ name, plan'.names = plan.names.extend index [name] ∧ plan'.template = plan.template ∧
      (∀ other, plan.isFormName other = true → plan'.isFormName other = true) ∧
      (plan.template.hasVariable name = true ∨ plan'.isFormName name = true) := by
  obtain ⟨name, expanders, formNames, rfl, ⟨rfl, hplaced⟩ | rfl⟩ := param_eq hread
  · exact ⟨name, rfl, rfl, fun _ hother => hother, hplaced⟩
  · exact ⟨name, rfl, rfl, fun _ hother => isFormName_append _ hother, Or.inr (isFormName_self plan name)⟩

/-- What markers keep true of a plan with a template: its variables have a place in it. -/
structure IsPlaced (t : Template) (plan : Plan) : Prop where
  template : plan.template = t
  names : plan.names.keys.Nodup
  placed : ∀ entry ∈ plan.names, ∀ name ∈ entry.2,
    t.hasVariable name = true ∨ plan.isFormName name = true

theorem keepsAtMarkers_isPlaced [Charsets] (t : Template) : usual.KeepsAtMarkers (IsPlaced t) := by
  intro marker revise index parameter plan plan' hknown hplan hread
  cases marker with
  | param given expander =>
      obtain rfl := Option.some.inj hknown
      obtain ⟨name, hnames, htemplate, hkept, hplaced⟩ := param_places hread
      rw [hplan.template] at hplaced htemplate
      refine ⟨htemplate, ?_, ?_⟩
      · rw [hnames]
        exact Entries.nodup_keys_extend hplan.names
      · intro entry hentry other hother
        rw [hnames] at hentry
        have hold : ∀ entry ∈ plan.names, ∀ other ∈ entry.2,
            t.hasVariable other = true ∨ plan'.isFormName other = true :=
          fun entry hentry other hother =>
            (hplan.placed entry hentry other hother).imp_right (hkept other)
        rcases Entries.mem_extend hentry with hmem | rfl | ⟨names, hmem, rfl⟩
        · exact hold entry hmem other hother
        · rw [List.mem_singleton.mp hother]
          exact hplaced
        · rcases List.mem_append.mp hother with hbefore | hadded
          · exact hold _ hmem other hbefore
          · rw [List.mem_singleton.mp hadded]
            exact hplaced
  | queryMap encoded =>
      obtain rfl := Option.some.inj hknown
      change queryMap encoded index plan = .ok plan' at hread
      unfold queryMap at hread
      split at hread
      · cases hread
      · obtain rfl := Except.ok.inj hread
        exact ⟨hplan.template, hplan.names, hplan.placed⟩
  | headerMap =>
      obtain rfl := Option.some.inj hknown
      change headerMap index plan = .ok plan' at hread
      unfold headerMap at hread
      split at hread
      · cases hread
      · obtain rfl := Except.ok.inj hread
        exact ⟨hplan.template, hplan.names, hplan.placed⟩
  | custom => cases hknown
  | remark => cases hknown

theorem isAside_isPlaced (t : Template) : IsAside (IsPlaced t) :=
  ⟨fun _ h => ⟨h.template, h.names, h.placed⟩, fun _ h => ⟨h.template, h.names, h.placed⟩,
    fun _ h => ⟨h.template, h.names, h.placed⟩, fun _ h => ⟨h.template, h.names, h.placed⟩,
    fun _ _ h => ⟨h.template, h.names, h.placed⟩⟩

/-! ## Interfaces -/

theorem isReady_planOf [Charsets] (hread : planOf usual ds interfaces api method = .ok plan)
    (hhandled : plan.ignored = false) : plan.IsReady := by
  obtain ⟨hints, returns, directed, -, hdirected, hmethod, hparameters⟩ := planOf_eq_ok hread hhandled
  have hskeleton : directed.template.IsSkeleton :=
    keeps_directed keeps_isSkeleton isAside_isSkeleton Template.isSkeleton_fresh hdirected
  -- Directives bind nothing, so that markers start from no variables.
  have hnone : directed.names = [] := by
    rw [onlyDirects_directed hdirected]
    rfl
  have hstart : IsPlaced directed.template directed :=
    ⟨rfl, by rw [hnone]; exact List.nodup_nil, by rw [hnone]; simp⟩
  have hplaced := keeps_readParameters (keepsAtMarkers_isPlaced _) (isAside_isPlaced _) hstart hparameters
  refine ⟨?_, ?_, hplaced.names, ?_⟩
  · rw [hplaced.template]
    exact hskeleton
  · rw [hplaced.template]
    exact hmethod
  · rw [hplaced.template]
    exact hplaced.placed

/-- Every plan that the usual contract reads is one that calls can start from, unless it is ignored. -/
theorem isReady_of_mem_read [Charsets] (hread : usual.read ds interfaces api = .ok plans)
    (hplan : plan ∈ plans) (hhandled : plan.ignored = false) : plan.IsReady := by
  obtain ⟨method, hplanOf⟩ := planOf_of_mem_read hread hplan
  exact isReady_planOf hplanOf hhandled

/-- What is computed of the only plan of an interface holds of a plan that is read. -/
theorem exists_plan_of_read [Charsets] {holds : Plan → Prop} [DecidablePred holds]
    {api : InterfaceDecl}
    (hread : (Contract.usual.read [] [api] api).toOption.map (List.map fun plan => decide (holds plan)) =
      some [true]) :
    ∃ plan, Contract.usual.read [] [api] api = .ok [plan] ∧ holds plan := by
  cases hplans : Contract.usual.read [] [api] api with
  | error fault =>
      rw [hplans] at hread
      cases hread
  | ok plans =>
      rw [hplans] at hread
      obtain ⟨plan, rfl, hholds⟩ := List.map_eq_singleton_iff.mp (Option.some.inj hread)
      exact ⟨plan, rfl, of_decide_eq_true hholds⟩

end Contract

end HttpBinding
