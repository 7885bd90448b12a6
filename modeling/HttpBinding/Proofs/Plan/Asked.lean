import HttpBinding.Plan.Reading
import Mathlib.Logic.ExistsUnique

/-!
# What parameters ask for

What an argument is for is said by the markers of its parameter and by its type, and a
parameter of which neither says anything is the body. Of several parameters some ask
for the same role: of the address and the options it is the last one that is given
them, every other role stays where it is.
-/

namespace HttpBinding

/-- What an argument may be for. -/
inductive Role where
  | address
  | options
  | body
  | headerMap
  | queryMap
  /-- The argument is bound to a variable. -/
  | named
  deriving DecidableEq, Repr

/-- Whether a role is taken away from its position by a later parameter that asks for it. -/
def Role.isMovable : Role → Bool
  | .address | .options => true
  | _ => false

/-- The role that a plan records for a position. -/
def Plan.HasRole (plan : Plan) (position : Nat) : Role → Prop
  | .address => plan.urlIndex = some position
  | .options => plan.optionsIndex = some position
  | .body => plan.bodyIndex = .int position
  | .headerMap => plan.headerMapIndex = some position
  | .queryMap => plan.queryMapIndex = some position
  | .named => position ∈ plan.names.keys

/-- The role that a marker asks for. -/
def Marker.role? : Marker → Option Role
  | .param .. => some .named
  | .queryMap _ => some .queryMap
  | .headerMap => some .headerMap
  | .custom .. | .remark => none

/-- The role that a type asks for. -/
def Ty.role? (ty : Ty) : Option Role :=
  if ty.unwrapOptional.isUrl then some .address
  else if ty.unwrapOptional.isOptions then some .options
  else none

/-- The roles that the markers of a parameter ask for. -/
def ParameterDecl.markedRoles (p : ParameterDecl) : List Role :=
  p.markers.filterMap Marker.role?

/-- The roles that a parameter with its declared type asks for: without any it asks for the body. -/
def askedRoles (parameter : ParameterDecl × Ty) : List Role :=
  match parameter.1.markedRoles ++ (ParameterDecl.splitRemarks parameter.2).role?.toList with
  | [] => [.body]
  | roles => roles

/-- A role that a position is given among parameters: no later one takes it away. -/
def IsGiven (parameters : List (ParameterDecl × Ty)) (position : Nat) (role : Role) : Prop :=
  (∃ parameter, parameters[position]? = some parameter ∧ role ∈ askedRoles parameter) ∧
    (role.isMovable = true → ∀ later parameter, position < later →
      parameters[later]? = some parameter → role ∉ askedRoles parameter)

/-! ## What a parameter asks for -/

section Asked

variable {parameters : List (ParameterDecl × Ty)} {parameter : ParameterDecl × Ty}
  {position : Nat} {role : Role}

theorem mem_askedRoles : role ∈ askedRoles parameter ↔
    role ∈ parameter.1.markedRoles ∨
      (ParameterDecl.splitRemarks parameter.2).role? = some role ∨
      (role = .body ∧ parameter.1.markedRoles = [] ∧
        (ParameterDecl.splitRemarks parameter.2).role? = none) := by
  unfold askedRoles
  generalize parameter.1.markedRoles = marked
  generalize (ParameterDecl.splitRemarks parameter.2).role? = typed
  cases marked <;> cases typed <;> simp [eq_comm, or_assoc]

theorem askedRoles_ne_nil (parameter : ParameterDecl × Ty) : askedRoles parameter ≠ [] := by
  unfold askedRoles
  split
  · exact List.cons_ne_nil _ _
  next hroles => exact hroles

theorem Role.ne_body (hmovable : role.isMovable = true) : role ≠ .body := by
  rintro rfl
  cases hmovable

/-- No marker asks for a role that a later parameter takes away. -/
theorem not_mem_markedRoles {p : ParameterDecl} (hmovable : role.isMovable = true) :
    role ∉ p.markedRoles := by
  intro hrole
  obtain ⟨marker, -, hmarker⟩ := List.mem_filterMap.mp hrole
  cases marker <;> simp [Marker.role?] at hmarker <;> subst hmarker <;> cases hmovable

theorem IsGiven.lt_length (hgiven : IsGiven parameters position role) :
    position < parameters.length := by
  obtain ⟨⟨parameter, hparameter, -⟩, -⟩ := hgiven
  exact (List.getElem?_eq_some_iff.mp hparameter).1

theorem getElem?_concat_eq_some {other : ParameterDecl × Ty} :
    (parameters ++ [parameter])[position]? = some other ↔
      parameters[position]? = some other ∨ (position = parameters.length ∧ other = parameter) := by
  by_cases hlt : position < parameters.length
  · rw [List.getElem?_append_left hlt]
    constructor
    · exact Or.inl
    · rintro (hold | ⟨rfl, -⟩)
      · exact hold
      · exact absurd hlt (Nat.lt_irrefl _)
  · have hnone : parameters[position]? = none := List.getElem?_eq_none (Nat.le_of_not_lt hlt)
    rw [hnone, List.getElem?_append_right (Nat.le_of_not_lt hlt), List.getElem?_singleton]
    by_cases hlast : position = parameters.length
    · simp [hlast, eq_comm]
    · have hpos : position - parameters.length ≠ 0 := by omega
      simp [hlast, hpos]

/-- One more parameter has the roles that it asks for, and takes the movable ones away. -/
theorem isGiven_concat : IsGiven (parameters ++ [parameter]) position role ↔
    (IsGiven parameters position role ∧ ¬ (role.isMovable = true ∧ role ∈ askedRoles parameter)) ∨
      (position = parameters.length ∧ role ∈ askedRoles parameter) := by
  unfold IsGiven
  simp only [getElem?_concat_eq_some]
  constructor
  · rintro ⟨⟨other, hother | ⟨hlast, rfl⟩, hrole⟩, hlater⟩
    · have hlt : position < parameters.length := (List.getElem?_eq_some_iff.mp hother).1
      refine Or.inl ⟨⟨⟨other, hother, hrole⟩, ?_⟩, ?_⟩
      · intro hmovable later p hpos hp
        exact hlater hmovable later p hpos (Or.inl hp)
      · rintro ⟨hmovable, hasked⟩
        -- The new parameter is a later one for each position before it.
        exact hlater hmovable parameters.length parameter hlt (Or.inr ⟨rfl, rfl⟩) hasked
    · exact Or.inr ⟨hlast, hrole⟩
  · rintro (⟨⟨⟨other, hother, hrole⟩, hlater⟩, hkept⟩ | ⟨rfl, hrole⟩)
    · refine ⟨⟨other, Or.inl hother, hrole⟩, ?_⟩
      rintro hmovable later p hpos (hold | ⟨-, rfl⟩)
      · exact hlater hmovable later p hpos hold
      · exact fun hasked => hkept ⟨hmovable, hasked⟩
    · refine ⟨⟨parameter, Or.inr ⟨rfl, rfl⟩, hrole⟩, ?_⟩
      rintro - later p hpos (hold | ⟨rfl, -⟩)
      · have hlt : later < parameters.length := (List.getElem?_eq_some_iff.mp hold).1
        omega
      · exact absurd hpos (Nat.lt_irrefl _)

/-- Parameters that ask for one role each, and no two of them for the same movable one. -/
structure AskApart (parameters : List (ParameterDecl × Ty)) : Prop where
  single : ∀ parameter ∈ parameters, ∃ role, ∀ other ∈ askedRoles parameter, other = role
  apart : parameters.Pairwise fun parameter later =>
    ∀ role ∈ askedRoles parameter, role.isMovable = true → role ∉ askedRoles later

theorem AskApart.existsUnique {parameters : List (ParameterDecl × Ty)} (hasked : AskApart parameters)
    {position : Nat} (hposition : position < parameters.length) :
    ∃! role, IsGiven parameters position role := by
  have hparameter := List.getElem?_eq_getElem hposition
  obtain ⟨role, hsingle⟩ := hasked.single _ (List.getElem_mem hposition)
  obtain ⟨asked, hmem⟩ := List.exists_mem_of_ne_nil _ (askedRoles_ne_nil parameters[position])
  obtain rfl := hsingle asked hmem
  refine ⟨asked, ⟨⟨_, hparameter, hmem⟩, ?_⟩, ?_⟩
  · intro hmovable later other hlater hother
    obtain ⟨hlt, rfl⟩ := List.getElem?_eq_some_iff.mp hother
    exact List.pairwise_iff_getElem.mp hasked.apart _ _ hposition hlt hlater asked hmem hmovable
  · rintro other ⟨⟨parameter, hsome, hother⟩, -⟩
    rw [hparameter] at hsome
    obtain rfl := Option.some.inj hsome
    exact hsingle other hother

end Asked

end HttpBinding
