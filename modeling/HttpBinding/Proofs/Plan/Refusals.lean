import HttpBinding.Plan.Reading
import HttpBinding.Proofs.Success

/-!
# What ends the reading of an interface

A fault that ends the reading of an interface is one of the reading itself, which says
that no client can be made, or comes from a change that the contract knows. So if a
contract ends the reading with no other faults, there are no others.
-/

namespace HttpBinding

/-- Whether a fault leaves the library as one that says that no client can be made. -/
def BuildFault.IsRefusal (why : BuildFault) : Prop :=
  why.toFault.family = .build

namespace Contract

variable {contract : Contract} {plan : Plan} {why : BuildFault} {ds : Declarations}
  {interfaces : Interfaces} {api : InterfaceDecl} {method : MethodDecl} {hints : List Ty}
  {index : Nat}

/-- Every fault that a contract ends the reading with says that no client can be made. -/
structure OnlyRefuses (contract : Contract) : Prop where
  onInterface : ∀ {directive revise plan why}, contract.onInterface directive = some revise →
    revise plan = .error why → why.IsRefusal
  onMethod : ∀ {directive revise plan why}, contract.onMethod directive = some revise →
    revise plan = .error why → why.IsRefusal
  onParameter : ∀ {marker revise index name plan why}, contract.onParameter marker = some revise →
    revise index name plan = .error why → why.IsRefusal

theorem isRefusal_readInterface (honly : contract.OnlyRefuses) {directives : List Directive}
    (hread : readInterface contract directives plan = .error why) : why.IsRefusal := by
  induction directives generalizing plan with
  | nil => cases hread
  | cons directive rest ih =>
      rw [readInterface] at hread
      split at hread
      · exact ih hread
      next revise hknown =>
        rcases bind_eq_error.mp hread with hfirst | ⟨between, -, hrest⟩
        · exact honly.onInterface hknown hfirst
        · exact ih hrest

theorem isRefusal_readMethod (honly : contract.OnlyRefuses) {directives : List Directive}
    (hread : readMethod contract directives plan = .error why) : why.IsRefusal := by
  induction directives generalizing plan with
  | nil => cases hread
  | cons directive rest ih =>
      rw [readMethod] at hread
      split at hread
      · exact ih hread
      next revise hknown =>
        rcases bind_eq_error.mp hread with hfirst | ⟨between, -, hrest⟩
        · exact honly.onMethod hknown hfirst
        · exact ih hrest

theorem isRefusal_readMarkers (honly : contract.OnlyRefuses) {name : String} {markers : List Marker}
    (hread : readMarkers contract index name markers plan = .error why) : why.IsRefusal := by
  induction markers generalizing plan with
  | nil => cases hread
  | cons marker rest ih =>
      rw [readMarkers] at hread
      split at hread
      · exact ih hread
      next revise hknown =>
        rcases bind_eq_error.mp hread with hfirst | ⟨between, -, hrest⟩
        · exact honly.onParameter hknown hfirst
        · exact ih hrest

theorem isRefusal_assignRole {ty : Ty} {isMarked : Bool}
    (hread : assignRole index ty isMarked plan = .error why) : why.IsRefusal := by
  unfold assignRole takeBody at hread
  split at hread
  · cases hread
  · split at hread
    · cases hread
    · split at hread
      · cases hread
      · split at hread
        · split at hread
          · obtain rfl := Except.error.inj hread
            rfl
          · cases hread
        · split at hread
          · obtain rfl := Except.error.inj hread
            rfl
          · split at hread
            · obtain rfl := Except.error.inj hread
              rfl
            · cases hread

theorem isRefusal_readParameters (honly : contract.OnlyRefuses)
    {parameters : List (ParameterDecl × Ty)}
    (hread : readParameters contract index parameters plan = .error why) : why.IsRefusal := by
  induction parameters generalizing plan index with
  | nil => cases hread
  | cons parameter rest ih =>
      rw [readParameters] at hread
      rcases bind_eq_error.mp hread with hfirst | ⟨between, -, hrest⟩
      · unfold readParameter at hfirst
        split at hfirst
        · obtain rfl := Except.error.inj hfirst
          rfl
        · rcases bind_eq_error.mp hfirst with hmarkers | ⟨marked, -, htype⟩
          · exact isRefusal_readMarkers honly hmarkers
          · exact isRefusal_assignRole htype
      · exact ih hrest

theorem isRefusal_checkKeys {role : MapRole} {ty : Ty}
    (hread : checkKeys ds role ty = .error why) : why.IsRefusal := by
  unfold checkKeys at hread
  split at hread
  · split at hread
    · cases hread
    · obtain rfl := Except.error.inj hread
      rfl
  · cases hread

theorem isRefusal_checkHeaderMap (hread : checkHeaderMap ds hints plan = .error why) :
    why.IsRefusal := by
  unfold checkHeaderMap at hread
  split at hread
  · cases hread
  · split at hread
    · exact isRefusal_checkKeys hread
    · obtain rfl := Except.error.inj hread
      rfl

theorem isRefusal_checkQueryMap (hread : checkQueryMap ds hints plan = .error why) :
    why.IsRefusal := by
  unfold checkQueryMap at hread
  split at hread
  · cases hread
  · split at hread
    · exact isRefusal_checkKeys hread
    · cases hread

theorem isRefusal_readArguments (honly : contract.OnlyRefuses)
    (hread : readArguments contract ds hints plan = .error why) : why.IsRefusal := by
  unfold readArguments at hread
  rcases bind_eq_error.mp hread with hparameters | ⟨between, -, hchecks⟩
  · exact isRefusal_readParameters honly hparameters
  · split at hchecks
    · obtain rfl := Except.error.inj hchecks
      rfl
    · rcases bind_eq_error.mp hchecks with hheaders | ⟨-, -, hchecks⟩
      · exact isRefusal_checkHeaderMap hheaders
      · rcases bind_eq_error.mp hchecks with hqueries | ⟨-, -, hdone⟩
        · exact isRefusal_checkQueryMap hqueries
        · cases hdone

theorem isRefusal_planOf (honly : contract.OnlyRefuses)
    (hread : planOf contract ds interfaces api method = .error why) : why.IsRefusal := by
  unfold planOf at hread
  split at hread
  · obtain rfl := Except.error.inj hread
    rfl
  · rcases bind_eq_error.mp hread with hparent | ⟨plan₁, -, hread⟩
    · exact isRefusal_readInterface honly hparent
    rcases bind_eq_error.mp hread with hinterface | ⟨plan₂, -, hread⟩
    · exact isRefusal_readInterface honly hinterface
    rcases bind_eq_error.mp hread with hmethod | ⟨plan₃, -, hread⟩
    · exact isRefusal_readMethod honly hmethod
    split at hread
    · cases hread
    · split at hread
      · obtain rfl := Except.error.inj hread
        rfl
      · exact isRefusal_readArguments honly hread

theorem isRefusal_plansOf (honly : contract.OnlyRefuses) {done : List Plan}
    {methods : List MethodDecl}
    (hread : plansOf contract ds interfaces api done methods = .error why) : why.IsRefusal := by
  induction methods generalizing done with
  | nil => cases hread
  | cons method rest ih =>
      rw [plansOf] at hread
      rcases bind_eq_error.mp hread with hfirst | ⟨plan, -, hread⟩
      · exact isRefusal_planOf honly hfirst
      · split at hread
        · obtain rfl := Except.error.inj hread
          rfl
        · exact ih hread

theorem isRefusal_checkShape (hread : checkShape interfaces api = .error why) :
    why.IsRefusal := by
  unfold checkShape at hread
  split at hread
  · obtain rfl := Except.error.inj hread
    rfl
  · split at hread
    · cases hread
    · split at hread
      · cases hread
      · obtain rfl := Except.error.inj hread
        rfl
    · obtain rfl := Except.error.inj hread
      rfl

theorem isRefusal_read (honly : contract.OnlyRefuses)
    (hread : contract.read ds interfaces api = .error why) : why.IsRefusal := by
  unfold read at hread
  rcases bind_eq_error.mp hread with hshape | ⟨-, -, hplans⟩
  · exact isRefusal_checkShape hshape
  · exact isRefusal_plansOf honly hplans

/-! ## The usual contract -/

section Usual

theorem isRefusal_setHeaders {place : Place} {lines : List String}
    (hread : setHeaders place lines plan = .error why) : why.IsRefusal := by
  rcases bind_eq_error.mp hread with hheaders | ⟨headers, -, hset⟩
  · rcases bind_eq_error.mp hheaders with hlines | ⟨pairs, -, hdone⟩
    · obtain ⟨line, -, hline⟩ := exists_of_mapM_eq_error hlines
      unfold headerOfLine at hline
      split at hline
      · split at hline
        · obtain rfl := Except.error.inj hline
          rfl
        · cases hline
      · obtain rfl := Except.error.inj hline
        rfl
    · cases hdone
  · cases hset

theorem isRefusal_requestLine {text : String} {decodeSlash : Bool} {format : CollectionFormat}
    (hread : requestLine text decodeSlash format plan = .error why) : why.IsRefusal := by
  unfold requestLine at hread
  dsimp only at hread
  split at hread
  · obtain rfl := Except.error.inj hread
    rfl
  · split at hread
    · obtain rfl := Except.error.inj hread
      rfl
    · split at hread
      · obtain rfl := Except.error.inj hread
        rfl
      · cases hread

theorem isRefusal_onDirective [Charsets] {directive : Directive} {revise : Revision}
    (hknown : usual.onMethod directive = some revise) (hread : revise plan = .error why) :
    why.IsRefusal := by
  cases directive with
  | requestLine text decodeSlash format =>
      obtain rfl := Option.some.inj hknown
      exact isRefusal_requestLine hread
  | headers lines =>
      obtain rfl := Option.some.inj hknown
      unfold methodHeaders at hread
      split at hread
      · obtain rfl := Except.error.inj hread
        rfl
      · exact isRefusal_setHeaders hread
  | body text =>
      obtain rfl := Option.some.inj hknown
      unfold body at hread
      split at hread
      · obtain rfl := Except.error.inj hread
        rfl
      · split at hread <;> cases hread
  | ignore =>
      obtain rfl := Option.some.inj hknown
      cases hread
  | custom => cases hknown

theorem isRefusal_param {given parameter : String} {expander : Option Expander}
    (hread : param given expander index parameter plan = .error why) : why.IsRefusal := by
  unfold param at hread
  dsimp only at hread
  generalize (if given.isEmpty = true then parameter else given) = name at hread
  split at hread
  · obtain rfl := Except.error.inj hread
    rfl
  · cases expander <;> dsimp only at hread <;> split at hread <;> cases hread

theorem isRefusal_onMarker [Charsets] {marker : Marker} {revise : Nat → String → Revision}
    {name : String} (hknown : usual.onParameter marker = some revise)
    (hread : revise index name plan = .error why) : why.IsRefusal := by
  cases marker with
  | param given expander =>
      obtain rfl := Option.some.inj hknown
      exact isRefusal_param hread
  | queryMap encoded =>
      obtain rfl := Option.some.inj hknown
      change queryMap encoded index plan = .error why at hread
      unfold queryMap at hread
      split at hread
      · obtain rfl := Except.error.inj hread
        rfl
      · cases hread
  | headerMap =>
      obtain rfl := Option.some.inj hknown
      change headerMap index plan = .error why at hread
      unfold headerMap at hread
      split at hread
      · obtain rfl := Except.error.inj hread
        rfl
      · cases hread
  | custom => cases hknown
  | remark => cases hknown

theorem onlyRefuses_usual [Charsets] : usual.OnlyRefuses := by
  refine ⟨?_, isRefusal_onDirective, isRefusal_onMarker⟩
  intro directive revise plan why hknown hread
  cases directive with
  | headers lines =>
      obtain rfl := Option.some.inj hknown
      unfold interfaceHeaders at hread
      split at hread
      · obtain rfl := Except.error.inj hread
        rfl
      · exact isRefusal_setHeaders hread
  | _ => cases hknown

end Usual

end Contract

end HttpBinding
