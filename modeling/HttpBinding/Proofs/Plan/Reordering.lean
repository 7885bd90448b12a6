import HttpBinding.Octets.Charset
import HttpBinding.Proofs.Plan.Acceptance

/-!
# Parameters in another order

A method of the usual contract whose directives are in order is refused exactly when its
parameters are in conflict. Directives do not look at the parameters, so they make the same
of a method with its parameters in another order; and a conflict has no order. So neither
has the acceptance of a method.
-/

namespace HttpBinding.Contract

variable {plan plan' other : Plan} {ds : Declarations} {interfaces : Interfaces}
  {api : InterfaceDecl} {method : MethodDecl} {hints : List Ty} {returns : Ty} {directed : Plan}

/-! ## Directives -/

section Directives

/-- Two plans that were directed alike, whatever methods they are for. -/
structure Alike (plan other : Plan) : Prop where
  template : plan.template = other.template
  ignored : plan.ignored = other.ignored

/-- A revision makes the same of plans that were directed alike. -/
def Aligns (revise : Revision) : Prop :=
  ∀ {plan plan' other}, Alike plan other → revise plan = .ok plan' →
    ∃ other', revise other = .ok other' ∧ Alike plan' other'

theorem headerOfLine_eq_ok {place place' : Place} {line : String} {header : String × String}
    (hread : headerOfLine place line = .ok header) : headerOfLine place' line = .ok header := by
  unfold headerOfLine at hread ⊢
  split at hread
  · split at hread
    · cases hread
    next hname => simpa [hname] using hread
  · cases hread

/-- Where headers stand is said only of those that are refused. -/
theorem headersOfLines_eq_ok {place place' : Place} {lines : List String} {headers : Headers}
    (hread : headersOfLines place lines = .ok headers) :
    headersOfLines place' lines = .ok headers := by
  obtain ⟨pairs, hpairs, hheaders⟩ := bind_eq_ok.mp hread
  refine bind_eq_ok.mpr ⟨pairs, ?_, hheaders⟩
  exact mapM_eq_ok.mpr ((mapM_eq_ok.mp hpairs).imp fun _ _ => headerOfLine_eq_ok)

theorem alike_setHeaders {place place' : Place} {lines : List String} (halike : Alike plan other)
    (hread : setHeaders place lines plan = .ok plan') :
    ∃ other', setHeaders place' lines other = .ok other' ∧ Alike plan' other' := by
  obtain ⟨headers, hheaders, hset⟩ := bind_eq_ok.mp hread
  obtain rfl := Except.ok.inj hset
  refine ⟨_, bind_eq_ok.mpr ⟨headers, headersOfLines_eq_ok hheaders, rfl⟩, ?_, halike.ignored⟩
  dsimp only
  rw [halike.template]

theorem aligns_requestLine {text : String} {decodeSlash : Bool} {format : CollectionFormat} :
    Aligns (requestLine text decodeSlash format) := by
  intro plan plan' other halike hread
  unfold requestLine at hread ⊢
  dsimp only at hread ⊢
  rw [← halike.template]
  split at hread
  · cases hread
  next hline =>
    rw [if_neg hline]
    split at hread
    · cases hread
    next verb address hsplit =>
      split at hread
      · cases hread
      next =>
        obtain rfl := Except.ok.inj hread
        exact ⟨_, rfl, rfl, halike.ignored⟩

theorem aligns_body [Charsets] {text : String} : Aligns (body text) := by
  intro plan plan' other halike hread
  unfold body at hread ⊢
  rw [← halike.template]
  split at hread
  · cases hread
  next htext =>
    rw [if_neg htext]
    split at hread
    next hbrace =>
      rw [if_pos hbrace]
      obtain rfl := Except.ok.inj hread
      exact ⟨_, rfl, rfl, halike.ignored⟩
    next hbrace =>
      rw [if_neg hbrace]
      obtain rfl := Except.ok.inj hread
      exact ⟨_, rfl, rfl, halike.ignored⟩

theorem aligns_onInterface [Charsets] {directive : Directive} {revise : Revision}
    (hknown : usual.onInterface directive = some revise) : Aligns revise := by
  cases directive with
  | headers lines =>
      obtain rfl := Option.some.inj hknown
      intro plan plan' other halike hread
      unfold interfaceHeaders at hread ⊢
      split at hread
      · cases hread
      next hlines =>
        rw [if_neg hlines]
        exact alike_setHeaders halike hread
  | _ => cases hknown

theorem aligns_onMethod [Charsets] {directive : Directive} {revise : Revision}
    (hknown : usual.onMethod directive = some revise) : Aligns revise := by
  cases directive with
  | requestLine text decodeSlash format =>
      obtain rfl := Option.some.inj hknown
      exact aligns_requestLine
  | headers lines =>
      obtain rfl := Option.some.inj hknown
      intro plan plan' other halike hread
      unfold methodHeaders at hread ⊢
      split at hread
      · cases hread
      next hlines =>
        rw [if_neg hlines]
        exact alike_setHeaders halike hread
  | body text =>
      obtain rfl := Option.some.inj hknown
      exact aligns_body
  | ignore =>
      obtain rfl := Option.some.inj hknown
      intro plan plan' other halike hread
      obtain rfl := Except.ok.inj hread
      exact ⟨_, rfl, halike.template, rfl⟩
  | custom => cases hknown

theorem aligns_readInterface [Charsets] (directives : List Directive) :
    Aligns (readInterface usual directives) := by
  induction directives with
  | nil =>
      intro plan plan' other halike hread
      obtain rfl := Except.ok.inj hread
      exact ⟨other, rfl, halike⟩
  | cons directive rest ih =>
      intro plan plan' other halike hread
      rw [readInterface] at hread ⊢
      cases hknown : usual.onInterface directive with
      | none =>
          rw [hknown] at hread
          exact ih halike hread
      | some revise =>
          rw [hknown] at hread
          obtain ⟨between, hfirst, hrest⟩ := bind_eq_ok.mp hread
          obtain ⟨between', hfirst', halike'⟩ := aligns_onInterface hknown halike hfirst
          obtain ⟨other', hrest', hdone⟩ := ih halike' hrest
          exact ⟨other', bind_eq_ok.mpr ⟨between', hfirst', hrest'⟩, hdone⟩

theorem aligns_readMethod [Charsets] (directives : List Directive) :
    Aligns (readMethod usual directives) := by
  induction directives with
  | nil =>
      intro plan plan' other halike hread
      obtain rfl := Except.ok.inj hread
      exact ⟨other, rfl, halike⟩
  | cons directive rest ih =>
      intro plan plan' other halike hread
      rw [readMethod] at hread ⊢
      cases hknown : usual.onMethod directive with
      | none =>
          rw [hknown] at hread
          -- The warnings name different methods, but they do not direct anything.
          have hwarned : Alike (plan.warn (unusedWarning usual plan.method.name directive))
              (other.warn (unusedWarning usual other.method.name directive)) :=
            ⟨halike.template, halike.ignored⟩
          exact ih hwarned hread
      | some revise =>
          rw [hknown] at hread
          obtain ⟨between, hfirst, hrest⟩ := bind_eq_ok.mp hread
          obtain ⟨between', hfirst', halike'⟩ := aligns_onMethod hknown halike hfirst
          obtain ⟨other', hrest', hdone⟩ := ih halike' hrest
          exact ⟨other', bind_eq_ok.mpr ⟨between', hfirst', hrest'⟩, hdone⟩

/-- Directives make the same of a method with other parameters. -/
theorem isDirected_of_alike [Charsets] (method' : MethodDecl) {start start' : Plan}
    (hdirectives : method'.directives = method.directives) (halike : Alike start start')
    (hdirected : IsDirected usual interfaces api method start directed) :
    ∃ directed', IsDirected usual interfaces api method' start' directed' ∧
      Alike directed directed' := by
  obtain ⟨inherited, declared, hread₁, hread₂, hread₃⟩ := hdirected
  obtain ⟨inherited', hread₁', halike₁⟩ := aligns_readInterface _ halike hread₁
  obtain ⟨declared', hread₂', halike₂⟩ := aligns_readInterface _ halike₁ hread₂
  obtain ⟨directed', hread₃', halike₃⟩ := aligns_readMethod _ halike₂ hread₃
  rw [← hdirectives] at hread₃'
  exact ⟨directed', ⟨inherited', declared', hread₁', hread₂', hread₃'⟩, halike₃⟩

end Directives

/-! ## Types -/

section Types

variable {parameters parameters' : List ParameterDecl}

/-- The declared type of a parameter with all names looked up. -/
def resolvedHint (ds : Declarations) (p : ParameterDecl) : Ty :=
  (Ty.resolve? ds p.hint).getD .any

/-- The names in the types of parameters are looked up in each type by itself. -/
theorem resolveAll?_iff :
    Ty.resolveAll? ds (parameters.map ParameterDecl.hint) = some hints ↔
      (∀ p ∈ parameters, (Ty.resolve? ds p.hint).isSome = true) ∧
        hints = parameters.map (resolvedHint ds) := by
  induction parameters generalizing hints with
  | nil =>
      rw [List.map_nil, Ty.resolveAll?, Option.some_inj]
      exact ⟨fun hnil => ⟨List.forall_mem_nil _, hnil.symm⟩, fun hnil => hnil.2.symm⟩
  | cons p rest ih =>
      rw [List.map_cons, Ty.resolveAll?, List.forall_mem_cons, List.map_cons]
      unfold resolvedHint
      cases hresolved : Ty.resolve? ds p.hint with
      | none =>
          constructor
          · intro hnone
            cases hnone
          · rintro ⟨⟨hsome, -⟩, -⟩
            cases hsome
      | some ty =>
          change (Ty.resolveAll? ds (rest.map ParameterDecl.hint)).bind
            (fun others => some (ty :: others)) = some hints ↔ _
          constructor
          · intro hall
            obtain ⟨others, hothers, hdone⟩ := Option.bind_eq_some_iff.mp hall
            obtain ⟨hrest, rfl⟩ := ih.mp hothers
            exact ⟨⟨rfl, hrest⟩, (Option.some.inj hdone).symm⟩
          · rintro ⟨⟨-, hrest⟩, rfl⟩
            exact Option.bind_eq_some_iff.mpr ⟨_, ih.mpr ⟨hrest, rfl⟩, rfl⟩

/-- Parameters in another order keep their types. -/
theorem hints?_perm (hperm : parameters'.Perm method.parameters)
    (hhints : method.hints? ds = some (hints, returns)) :
    ∃ hints', MethodDecl.hints? ds { method with parameters := parameters' } = some (hints', returns) ∧
      (parameters'.zip hints').Perm (method.parameters.zip hints) := by
  obtain ⟨types, htypes, hrest⟩ := Option.bind_eq_some_iff.mp hhints
  obtain ⟨result, hresult, hpair⟩ := Option.bind_eq_some_iff.mp hrest
  obtain ⟨rfl, rfl⟩ := Prod.mk.inj (Option.some.inj hpair)
  obtain ⟨hall, rfl⟩ := resolveAll?_iff.mp htypes
  have htypes' : Ty.resolveAll? ds (parameters'.map ParameterDecl.hint) =
      some (parameters'.map (resolvedHint ds)) :=
    resolveAll?_iff.mpr ⟨fun p hp => hall p (hperm.mem_iff.mp hp), rfl⟩
  refine ⟨parameters'.map (resolvedHint ds), ?_, ?_⟩
  · refine Option.bind_eq_some_iff.mpr ⟨_, htypes', ?_⟩
    exact Option.bind_eq_some_iff.mpr ⟨result, hresult, rfl⟩
  · rw [← List.map_prod_left_eq_zip, ← List.map_prod_left_eq_zip]
    exact hperm.map _

end Types

/-! ## Acceptance -/

section Acceptance

/-- A method is refused or it has a plan. -/
theorem exists_plan_iff [Charsets] :
    (∃ plan, planOf usual ds interfaces api method = .ok plan) ↔
      ¬ ∃ why, planOf usual ds interfaces api method = .error why := by
  cases planOf usual ds interfaces api method <;> simp

theorem planOf_error_iff_conflict [Charsets] (hhints : method.hints? ds = some (hints, returns))
    (hdirected : IsDirected usual interfaces api method (blankPlan api method hints returns) directed)
    (hhandled : directed.ignored = false) (hverb : directed.template.method.isSome = true)
    (hnames : ∀ p ∈ method.parameters, p.name ≠ "") :
    (∃ why, planOf usual ds interfaces api method = .error why) ↔
      Conflict ds Ty.unwrapOptional directed.template (method.parameters.zip hints) := by
  obtain ⟨hadmits, hmethod⟩ := admits_directed hdirected
  rw [planOf_of_directed hhints hdirected hhandled hverb, readArguments_refuses_iff hadmits]
  · rw [hmethod]
  · rw [hmethod]
    exact hnames

/--
The usual contract refuses a method whose directives give a verb exactly when its parameters
are in conflict, and then says that no client can be made. The order of the parameters makes
no difference.
-/
theorem planOf_refuses_iff [Charsets] (hhints : method.hints? ds = some (hints, returns))
    (hdirected : IsDirected usual interfaces api method (blankPlan api method hints returns) directed)
    (hhandled : directed.ignored = false) (hverb : directed.template.method.isSome = true)
    (hnames : ∀ p ∈ method.parameters, p.name ≠ "") :
    ((∃ why, planOf usual ds interfaces api method = .error why ∧ why.IsRefusal) ↔
      Conflict ds Ty.unwrapOptional directed.template (method.parameters.zip hints)) ∧
    ((∃ plan, planOf usual ds interfaces api method = .ok plan) ↔
      ¬ Conflict ds Ty.unwrapOptional directed.template (method.parameters.zip hints)) ∧
    ∀ parameters', List.Perm parameters' method.parameters →
      ((∃ plan, planOf usual ds interfaces api { method with parameters := parameters' } = .ok plan) ↔
        ∃ plan, planOf usual ds interfaces api method = .ok plan) := by
  have herror := planOf_error_iff_conflict hhints hdirected hhandled hverb hnames
  refine ⟨?_, ?_, ?_⟩
  · rw [← herror]
    constructor
    · rintro ⟨why, hread, -⟩
      exact ⟨why, hread⟩
    · rintro ⟨why, hread⟩
      exact ⟨why, hread, isRefusal_planOf onlyRefuses_usual hread⟩
  · rw [exists_plan_iff, herror]
  · intro parameters' hperm
    obtain ⟨hints', hhints', hzip⟩ := hints?_perm hperm hhints
    have hblank : Alike (blankPlan api method hints returns)
        (blankPlan api { method with parameters := parameters' } hints' returns) := ⟨rfl, rfl⟩
    obtain ⟨directed', hdirected', halike⟩ := isDirected_of_alike
      { method with parameters := parameters' } rfl hblank hdirected
    have herror' := planOf_error_iff_conflict hhints' hdirected' (halike.ignored ▸ hhandled)
      (halike.template ▸ hverb) (fun p hp => hnames p (hperm.mem_iff.mp hp))
    rw [exists_plan_iff, exists_plan_iff, herror, herror', ← halike.template]
    exact not_congr ⟨fun hconflict => hconflict.perm hzip, fun hconflict => hconflict.perm hzip.symm⟩

/-- What the request line makes of a method without placeholders. -/
theorem isDirected_ping [Charsets] (parameters : List ParameterDecl) (hints : List Ty)
    (returns : Ty) :
    ∃ directed, IsDirected usual [pinging parameters] (pinging parameters) (ping parameters)
        (blankPlan (pinging parameters) (ping parameters) hints returns) directed ∧
      directed.ignored = false ∧ directed.template.method.isSome = true :=
  ⟨_, ⟨_, _, rfl, rfl, rfl⟩, rfl, rfl⟩

open scoped CommonCharsets

/-- Two parameters that can only be the body are refused in any order. -/
theorem planOf_refuses_iff_twoBodies :
    (∃ why, planOf usual [] [pinging [{ name := "a", ty := some .text }, { name := "b" }]]
      (pinging [{ name := "a", ty := some .text }, { name := "b" }])
      (ping [{ name := "a", ty := some .text }, { name := "b" }]) = .error why ∧ why.IsRefusal) ∧
    ¬ ∃ plan, planOf usual [] [pinging [{ name := "a", ty := some .text }, { name := "b" }]]
      (pinging [{ name := "a", ty := some .text }, { name := "b" }])
      (ping [{ name := "b" }, { name := "a", ty := some .text }]) = .ok plan := by
  obtain ⟨directed, hdirected, hhandled, hverb⟩ := isDirected_ping
    [{ name := "a", ty := some .text }, { name := "b" }] [.text, .any] .any
  have hnames : ∀ p ∈ (ping [{ name := "a", ty := some .text }, { name := "b" }]).parameters,
      p.name ≠ "" := by
    simp [ping]
  have hhints : MethodDecl.hints? [] (ping [{ name := "a", ty := some .text }, { name := "b" }]) =
      some ([.text, .any], .any) := rfl
  obtain ⟨hrefused, haccepted, horder⟩ :=
    planOf_refuses_iff hhints hdirected hhandled hverb hnames
  have hconflict : Conflict [] Ty.unwrapOptional directed.template
      ((ping [{ name := "a", ty := some .text }, { name := "b" }]).parameters.zip [.text, .any]) :=
    .bodies (by decide)
  refine ⟨hrefused.mpr hconflict, ?_⟩
  intro hplan
  exact haccepted.mp ((horder _ (List.Perm.swap _ _ _)).mp hplan) hconflict

/-- A map of headers that are all null. -/
def nullHeaders : ParameterDecl where
  name := "h"
  ty := some (.container .mapping [.text, .null])
  markers := [.headerMap]

/-- A map from text to null is refused as if it were text, though nothing is in conflict. -/
theorem planOf_refuses_without_conflict :
    MethodDecl.hints? [] (ping [nullHeaders]) =
      some ([.remarked (.container .mapping [.text, .null])], .any) ∧
    planOf usual [] [pinging [nullHeaders]] (pinging [nullHeaders]) (ping [nullHeaders]) =
      .error (.noMapping "str") ∧
    ∀ t, ¬ Conflict [] Ty.required t
      [(nullHeaders, .remarked (.container .mapping [.text, .null]))] := by
  refine ⟨rfl, rfl, ?_⟩
  intro t hconflict
  cases hconflict with
  | variadic hparameter hvariadic =>
      rw [List.mem_singleton.mp hparameter] at hvariadic
      cases hvariadic
  | queryMaps htwice => exact absurd htwice (by decide)
  | headerMaps htwice => exact absurd htwice (by decide)
  | bodies htwice => exact absurd htwice (by decide)
  | bodyBesideForm hparameter hbody hform =>
      rw [List.mem_singleton.mp hparameter] at hbody
      cases hbody
  | noMapping hparameter hmap hother =>
      rw [List.mem_singleton.mp hparameter] at hother
      cases hother
  | foreignHeader hparameter hmap hkey =>
      obtain ⟨key, hkey, hforeign⟩ := hkey
      rw [List.mem_singleton.mp hparameter] at hkey
      obtain rfl := Option.some.inj hkey
      cases hforeign
  | foreignQuery hparameter hmap hmapping hkey =>
      rw [List.mem_singleton.mp hparameter] at hmap
      cases hmap with
      | tail _ hmap => cases hmap

end Acceptance

end HttpBinding.Contract
