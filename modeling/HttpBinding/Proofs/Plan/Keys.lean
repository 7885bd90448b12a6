import HttpBinding.Proofs.Plan.Directives
import HttpBinding.Proofs.Plan.Refusals
import HttpBinding.Proofs.Plan.Upkeep

/-!
# Keys of plans

The key of a plan is computed before anything of the method is read. A contract that does
not change keys leaves every plan with the key of its method, and an interface that is
read has no two plans with the same key: what two methods have in common then is never
their names and the names of all their parameter types.
-/

namespace HttpBinding.Contract

variable {contract : Contract} {plan plan' : Plan} {plans done : List Plan} {ds : Declarations}
  {interfaces : Interfaces} {api : InterfaceDecl} {method : MethodDecl} {index : Nat}

/-- No change that a contract knows touches the key of a plan. -/
def KeepsKeys (contract : Contract) : Prop :=
  ∀ key, contract.Keeps fun plan => plan.key = key

theorem isAside_key (key : String) : IsAside fun plan => plan.key = key :=
  ⟨fun _ h => h, fun _ h => h, fun _ h => h, fun _ h => h, fun _ _ h => h⟩

theorem key_planOf (hkeys : contract.KeepsKeys)
    (hread : planOf contract ds interfaces api method = .ok plan) :
    ∃ hints returns, method.hints? ds = some (hints, returns) ∧
      plan.key = method.keyOf api.name hints := by
  obtain ⟨hints, returns, hhints, hkept⟩ := keeps_planOf (hkeys plan.key) (isAside_key _) hread
  refine ⟨hints, returns, hhints, ?_⟩
  obtain ⟨hints', returns', hhints', hkept'⟩ :=
    keeps_planOf (hkeys (method.keyOf api.name hints)) (isAside_key _) hread
  rw [hhints] at hhints'
  obtain ⟨rfl, -⟩ := Prod.mk.inj (Option.some.inj hhints')
  exact hkept' rfl

/-- Methods that are read have their plans in order, and a plan has a key that none before it has. -/
theorem plansOf_eq_ok {methods : List MethodDecl}
    (hread : plansOf contract ds interfaces api done methods = .ok plans)
    (hdone : (done.map Plan.key).Nodup) :
    (plans.map Plan.key).Nodup ∧ ∃ read, plans = done ++ read ∧
      List.Forall₂ (fun method plan => planOf contract ds interfaces api method = .ok plan)
        methods read := by
  induction methods generalizing done with
  | nil =>
      obtain rfl := Except.ok.inj hread
      exact ⟨hdone, [], (List.append_nil _).symm, .nil⟩
  | cons method rest ih =>
      rw [plansOf] at hread
      obtain ⟨plan, hplan, hread⟩ := bind_eq_ok.mp hread
      split at hread
      · cases hread
      next hnew =>
        have hkey : plan.key ∉ done.map Plan.key := by
          simpa using hnew
        have hmore : ((done ++ [plan]).map Plan.key).Nodup := by
          simpa [List.nodup_append] using ⟨hdone, fun a ha heq => hkey (by simpa [heq] using ⟨a, ha, heq⟩)⟩
        obtain ⟨hnodup, read, rfl, hall⟩ := ih hread hmore
        exact ⟨hnodup, plan :: read, List.append_assoc .., .cons hplan hall⟩

/-- The methods of an interface that have no body of their own, under their names. -/
def handled (interfaces : Interfaces) (api : String) : Entries String MethodDecl :=
  (interfaces.methods api).filter fun entry => !entry.2.isDefault

theorem read_eq_ok (hread : contract.read ds interfaces api = .ok plans) :
    (plans.map Plan.key).Nodup ∧
      List.Forall₂ (fun entry plan => planOf contract ds interfaces api entry.2 = .ok plan)
        (handled interfaces api.name) plans := by
  unfold read at hread
  obtain ⟨-, -, hplans⟩ := bind_eq_ok.mp hread
  dsimp only at hplans
  obtain ⟨hnodup, read, rfl, hall⟩ := plansOf_eq_ok hplans List.nodup_nil
  refine ⟨hnodup, ?_⟩
  rw [List.filter_map, List.forall₂_map_left_iff] at hall
  exact hall

theorem keepsKeys_usual [Charsets] : usual.KeepsKeys := by
  intro key
  refine ⟨?_, ?_, ?_⟩
  · intro directive revise plan plan' hknown hplan hread
    rw [onlyDirects_onInterface hknown hread]
    exact hplan
  · intro directive revise plan plan' hknown hplan hread
    rw [onlyDirects_onMethod hknown hread]
    exact hplan
  · intro marker revise index name plan plan' hknown hplan hread
    rw [onlyMarks_onParameter hknown hread]
    exact hplan

end HttpBinding.Contract
