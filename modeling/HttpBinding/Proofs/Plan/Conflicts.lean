import HttpBinding.Proofs.Plan.Asked
import HttpBinding.Proofs.Success

/-!
# Conflicts between parameters

The parameters of a method are in conflict when no request can be made of them: one takes
any number of arguments, two are maps of the same kind, two are bodies, a body stands
beside variables of a form, or a map is declared as something that is none. Each of these is
said of the parameters as a whole and of no position among them, so that the order of the
parameters does not matter.
-/

namespace HttpBinding

/-- The other type of a union with null. A type that is no such union is required as it is. -/
def Ty.required (ty : Ty) : Ty :=
  match ty with
  | .union _ types =>
    if types.any isNull then
      match types.filter (!·.isNull) with
      | [single] => single
      | _ => ty
    else ty
  | _ => ty

/-- The variable that a marker of a named parameter binds. -/
def Marker.bound? (parameter : String) : Marker → Option String
  | .param name _ => some (if name.isEmpty then parameter else name)
  | _ => none

namespace Contract

/-- The markers of parameters in order, each with the name of its parameter. -/
def marksOf (parameters : List (ParameterDecl × Ty)) : List (String × Marker) :=
  parameters.flatMap fun parameter => parameter.1.markers.map fun marker =>
    (parameter.1.name, marker)

/-- The roles that markers ask for. -/
def rolesOf (marks : List (String × Marker)) : List Role :=
  marks.filterMap fun mark => mark.2.role?

/-- A marker binds a variable that no placeholder of a template uses. -/
def HasFormVariable (t : Template) (marks : List (String × Marker)) : Prop :=
  ∃ mark ∈ marks, ∃ name, mark.2.bound? mark.1 = some name ∧ t.hasVariable name = false

/-- Whether a parameter can only be the body, by its markers and its type without null. -/
def isCandidate (withoutNull : Ty → Ty) (parameter : ParameterDecl × Ty) : Bool :=
  let ty := withoutNull (ParameterDecl.splitRemarks parameter.2)
  parameter.1.markedRoles.isEmpty && !ty.isUrl && !ty.isOptions

/-- A type tells that its keys are something else than text. -/
def HasForeignKey (ds : Declarations) (ty : Ty) : Prop :=
  ∃ key, ds.keyTy? ty = some key ∧ key.isText = false

/--
Why no request can be made of the arguments for parameters, given the template that they
fill. What removing null from a type means is left open.
-/
inductive Conflict (ds : Declarations) (withoutNull : Ty → Ty) (t : Template)
    (parameters : List (ParameterDecl × Ty)) : Prop where
  | variadic {parameter} (hparameter : parameter ∈ parameters)
      (hvariadic : isVariadic parameter.1 = true)
  | queryMaps (htwice : 2 ≤ (rolesOf (marksOf parameters)).count .queryMap)
  | headerMaps (htwice : 2 ≤ (rolesOf (marksOf parameters)).count .headerMap)
  | bodies (htwice : 2 ≤ parameters.countP (isCandidate withoutNull))
  | bodyBesideForm {parameter} (hparameter : parameter ∈ parameters)
      (hbody : isCandidate withoutNull parameter = true)
      (hform : HasFormVariable t (marksOf parameters))
  | noMapping {parameter} (hparameter : parameter ∈ parameters)
      (hmap : .headerMap ∈ parameter.1.markedRoles)
      (hother : ds.isMapping (withoutNull (ParameterDecl.splitRemarks parameter.2)) = false)
  | foreignHeader {parameter} (hparameter : parameter ∈ parameters)
      (hmap : .headerMap ∈ parameter.1.markedRoles)
      (hkey : HasForeignKey ds (withoutNull (ParameterDecl.splitRemarks parameter.2)))
  | foreignQuery {parameter} (hparameter : parameter ∈ parameters)
      (hmap : .queryMap ∈ parameter.1.markedRoles)
      (hmapping : ds.isMapping (withoutNull (ParameterDecl.splitRemarks parameter.2)) = true)
      (hkey : HasForeignKey ds (withoutNull (ParameterDecl.splitRemarks parameter.2)))

variable {ds : Declarations} {withoutNull : Ty → Ty} {t : Template}
  {parameters parameters' : List (ParameterDecl × Ty)} {marks : List (String × Marker)}

theorem HasFormVariable.append (hform : HasFormVariable t marks) (more : List (String × Marker)) :
    HasFormVariable t (marks ++ more) := by
  obtain ⟨mark, hmark, hname⟩ := hform
  exact ⟨mark, List.mem_append_left _ hmark, hname⟩

theorem marksOf_append (parameters parameters' : List (ParameterDecl × Ty)) :
    marksOf (parameters ++ parameters') = marksOf parameters ++ marksOf parameters' :=
  List.flatMap_append

theorem rolesOf_append (marks more : List (String × Marker)) :
    rolesOf (marks ++ more) = rolesOf marks ++ rolesOf more :=
  List.filterMap_append

/-- A conflict does not go away by more parameters. -/
theorem Conflict.append (hconflict : Conflict ds withoutNull t parameters)
    (more : List (ParameterDecl × Ty)) : Conflict ds withoutNull t (parameters ++ more) := by
  have hcount : ∀ role, (rolesOf (marksOf parameters)).count role ≤
      (rolesOf (marksOf (parameters ++ more))).count role := by
    intro role
    rw [marksOf_append, rolesOf_append, List.count_append]
    exact Nat.le_add_right _ _
  cases hconflict with
  | variadic hparameter hvariadic => exact .variadic (List.mem_append_left _ hparameter) hvariadic
  | queryMaps htwice => exact .queryMaps (Nat.le_trans htwice (hcount _))
  | headerMaps htwice => exact .headerMaps (Nat.le_trans htwice (hcount _))
  | bodies htwice =>
      refine .bodies (Nat.le_trans htwice ?_)
      rw [List.countP_append]
      exact Nat.le_add_right _ _
  | bodyBesideForm hparameter hbody hform =>
      refine .bodyBesideForm (List.mem_append_left _ hparameter) hbody ?_
      rw [marksOf_append]
      exact hform.append _
  | noMapping hparameter hmap hother => exact .noMapping (List.mem_append_left _ hparameter) hmap hother
  | foreignHeader hparameter hmap hkey =>
      exact .foreignHeader (List.mem_append_left _ hparameter) hmap hkey
  | foreignQuery hparameter hmap hmapping hkey =>
      exact .foreignQuery (List.mem_append_left _ hparameter) hmap hmapping hkey

/-- A conflict is one between the parameters in any order. -/
theorem Conflict.perm (hconflict : Conflict ds withoutNull t parameters)
    (hperm : parameters.Perm parameters') : Conflict ds withoutNull t parameters' := by
  have hmarks : (marksOf parameters).Perm (marksOf parameters') := hperm.flatMap_right _
  have hcount : ∀ role, (rolesOf (marksOf parameters)).count role =
      (rolesOf (marksOf parameters')).count role := fun role => (hmarks.filterMap _).count_eq role
  cases hconflict with
  | variadic hparameter hvariadic => exact .variadic (hperm.mem_iff.mp hparameter) hvariadic
  | queryMaps htwice => exact .queryMaps (hcount _ ▸ htwice)
  | headerMaps htwice => exact .headerMaps (hcount _ ▸ htwice)
  | bodies htwice => exact .bodies (hperm.countP_eq _ ▸ htwice)
  | bodyBesideForm hparameter hbody hform =>
      refine .bodyBesideForm (hperm.mem_iff.mp hparameter) hbody ?_
      obtain ⟨mark, hmark, hname⟩ := hform
      exact ⟨mark, hmarks.mem_iff.mp hmark, hname⟩
  | noMapping hparameter hmap hother => exact .noMapping (hperm.mem_iff.mp hparameter) hmap hother
  | foreignHeader hparameter hmap hkey =>
      exact .foreignHeader (hperm.mem_iff.mp hparameter) hmap hkey
  | foreignQuery hparameter hmap hmapping hkey =>
      exact .foreignQuery (hperm.mem_iff.mp hparameter) hmap hmapping hkey

/-- What asks for the body by its markers and its type is a candidate for it. -/
theorem isCandidate_iff {parameter : ParameterDecl × Ty} :
    isCandidate Ty.unwrapOptional parameter = true ↔
      parameter.1.markedRoles = [] ∧ (ParameterDecl.splitRemarks parameter.2).role? = none := by
  unfold isCandidate Ty.role?
  dsimp only
  generalize (ParameterDecl.splitRemarks parameter.2).unwrapOptional.isUrl = isAddress
  generalize (ParameterDecl.splitRemarks parameter.2).unwrapOptional.isOptions = isOptions
  cases isAddress <;> cases isOptions <;> simp

theorem body_mem_askedRoles_iff {parameter : ParameterDecl × Ty} :
    .body ∈ askedRoles parameter ↔ isCandidate Ty.unwrapOptional parameter = true := by
  have hmarked : Role.body ∉ parameter.1.markedRoles := by
    intro hmem
    obtain ⟨marker, -, hmarker⟩ := List.mem_filterMap.mp hmem
    cases marker <;> cases hmarker
  have htype : (ParameterDecl.splitRemarks parameter.2).role? ≠ some .body := by
    unfold Ty.role?
    split
    · simp
    · split <;> simp
  rw [mem_askedRoles, isCandidate_iff]
  simp [hmarked, htype]

end Contract

end HttpBinding
