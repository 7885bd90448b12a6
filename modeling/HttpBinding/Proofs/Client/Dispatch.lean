import HttpBinding.Client.Assembly
import HttpBinding.Octets.Charset
import HttpBinding.Proofs.Exchange.Views
import HttpBinding.Proofs.Interface.Survival
import HttpBinding.Proofs.Plan.Keys
import HttpBinding.Schema.Adapters

/-!
# Every method reaches what carries it out

A client is put together in two passes. The first reads the interface into plans and
files what carries out a method under the key of its plan; the second goes through the
public methods by name and looks up what their keys stand for. This module proves that the
two passes meet: once the interface is read, no key is missing, and what a name leads to
was made from the very method that survives under it.
-/

namespace HttpBinding

/-- Whether two methods have the same name, and parameter types of the same names. -/
def MethodDecl.LooksLike (ds : Declarations) (m other : MethodDecl) : Prop :=
  m.name = other.name ∧
    (m.hints? ds).map (fun hints => hints.1.map Ty.rawName) =
      (other.hints? ds).map fun hints => hints.1.map Ty.rawName

namespace Builder

variable {ds : Declarations} {interfaces : Interfaces} {api : InterfaceDecl} {contract : Contract}
  {parts : Parts} {target : Target} {plan : Plan} {plans : List Plan} {name : String}
  {m other : MethodDecl} {route : Route} {table : Entries String Entry}

/--
What is to carry out a method of a client: a body of its own that very body, a method that the
contract ignores its refusal, and any other one a handler with the plan of that very method.
-/
inductive Carries (contract : Contract) (ds : Declarations) (interfaces : Interfaces)
    (api : InterfaceDecl) (target : Target) : MethodDecl → Route → Prop
  | runs {m : MethodDecl} (hown : m.isDefault = true) :
      Carries contract ds interfaces api target m (.runs m)
  | refuses {m : MethodDecl} {plan : Plan} (hhandled : m.isDefault = false)
      (hplan : contract.planOf ds interfaces api m = .ok plan) (hignored : plan.ignored = true) :
      Carries contract ds interfaces api target m (.refuses plan.key)
  | sends {m : MethodDecl} {handler : Handler} (hhandled : m.isDefault = false)
      (hplan : contract.planOf ds interfaces api m = .ok handler.plan)
      (hhears : handler.plan.ignored = false) (htarget : handler.target = target) :
      Carries contract ds interfaces api target m (.sends handler)

/-- A table that has the public methods of an interface, each once and with what is to carry it out. -/
structure IsDispatch (contract : Contract) (ds : Declarations) (interfaces : Interfaces)
    (api : InterfaceDecl) (target : Target) (table : Entries String Entry) : Prop where
  nodup : table.keys.Nodup
  complete : ∀ {name m}, Interfaces.isPrivate name = false →
    interfaces.survivor? api.name name = some (.method m) → ∃ entry, (name, entry) ∈ table
  sound : ∀ {name entry}, (name, entry) ∈ table →
    Interfaces.isPrivate name = false ∧
      interfaces.survivor? api.name name = some (.method entry.method) ∧
      Carries contract ds interfaces api target entry.method entry.route

/-! ## Keys -/

theorem keyOf_eq (hkeys : contract.KeepsKeys)
    (hplan : contract.planOf ds interfaces api m = .ok plan) :
    keyOf ds api.name m = some plan.key := by
  obtain ⟨hints, returns, hhints, hkey⟩ := Contract.key_planOf hkeys hplan
  simp [keyOf, hhints, hkey]

theorem keyOf_eq_of_looksLike (hlike : m.LooksLike ds other) (api : String) :
    keyOf ds api m = keyOf ds api other := by
  obtain ⟨hname, htypes⟩ := hlike
  have hkey : ∀ method : MethodDecl, keyOf ds api method =
      ((method.hints? ds).map fun hints => hints.1.map Ty.rawName).map fun names =>
        api ++ "#" ++ method.name ++ "(" ++ ",".intercalate names ++ ")" := by
    intro method
    simp only [keyOf, MethodDecl.keyOf, Option.map_map]
    rfl
  rw [hkey, hkey, hname, htypes]

/-- Methods that are read have different keys, unless they stand under the same name. -/
theorem eq_of_looksLike (hkeys : contract.KeepsKeys)
    (hread : contract.read ds interfaces api = .ok plans) {name' : String}
    (hm : (name, m) ∈ Contract.handled interfaces api.name)
    (hother : (name', other) ∈ Contract.handled interfaces api.name)
    (hlike : m.LooksLike ds other) : name = name' := by
  obtain ⟨hnodup, hall⟩ := Contract.read_eq_ok hread
  have hsame : (Contract.handled interfaces api.name).map (fun entry => keyOf ds api.name entry.2) =
      plans.map fun plan => some plan.key := by
    rw [← List.forall₂_eq_eq_eq, List.forall₂_map_left_iff, List.forall₂_map_right_iff]
    exact hall.imp fun entry plan hplan => keyOf_eq hkeys hplan
  have hdistinct : ((Contract.handled interfaces api.name).map
      fun entry => keyOf ds api.name entry.2).Nodup := by
    have hsome := List.Nodup.map (f := some) (fun a b heq => Option.some.inj heq) hnodup
    rw [hsame]
    simpa [Function.comp_def] using hsome
  have hentry := List.inj_on_of_nodup_map hdistinct hm hother (keyOf_eq_of_looksLike hlike api.name)
  exact (Prod.mk.inj hentry).1

/-! ## Routes -/

theorem carries_routeOf (hhandled : m.isDefault = false)
    (hplan : contract.planOf ds interfaces api m = .ok plan) :
    Carries contract ds interfaces api target m (routeOf parts target plan) := by
  unfold routeOf
  by_cases hignored : plan.ignored = true
  · rw [if_pos hignored]
    exact .refuses hhandled hplan hignored
  · rw [if_neg hignored]
    exact .sends hhandled hplan (by simpa using hignored) rfl

theorem lookup_routes (hnodup : (plans.map Plan.key).Nodup) (hplan : plan ∈ plans) :
    (routes parts target plans).lookup plan.key = some (routeOf parts target plan) := by
  have hkeys : (routes parts target plans).keys.Nodup := by
    simpa [routes, Entries.keys, Function.comp_def] using hnodup
  rw [Entries.lookup_eq_some_iff hkeys]
  exact List.mem_map_of_mem hplan

/-- Once the interface is read, every method has an entry. -/
theorem exists_entryOf (hkeys : contract.KeepsKeys)
    (hread : contract.read ds interfaces api = .ok plans)
    (hmethod : (name, m) ∈ interfaces.methods api.name) :
    ∃ route, entryOf ds api.name (routes parts target plans) m = .ok ⟨m, route⟩ ∧
      Carries contract ds interfaces api target m route := by
  unfold entryOf
  by_cases hown : m.isDefault = true
  · rw [if_pos hown]
    exact ⟨.runs m, rfl, .runs hown⟩
  · rw [if_neg hown]
    have hhandled : m.isDefault = false := by simpa using hown
    obtain ⟨hnodup, hall⟩ := Contract.read_eq_ok hread
    have hmem : (name, m) ∈ Contract.handled interfaces api.name :=
      List.mem_filter.mpr ⟨hmethod, by simp [hhandled]⟩
    obtain ⟨plan, hplan, hplanOf⟩ := exists_mem_right hall hmem
    refine ⟨routeOf parts target plan, ?_, carries_routeOf hhandled hplanOf⟩
    rw [keyOf_eq hkeys hplanOf, Option.bind_some, lookup_routes hnodup hplan]

theorem isDispatch_tableOf (hkeys : contract.KeepsKeys)
    (hread : contract.read ds interfaces api = .ok plans) :
    ∃ table, tableOf ds api.name (routes parts target plans) (interfaces.methods api.name) =
        .ok table ∧ IsDispatch contract ds interfaces api target table := by
  have htotal : ∀ method ∈ interfaces.methods api.name, ∃ entry : String × Entry,
      (entryOf ds api.name (routes parts target plans) method.2).map (fun e => (method.1, e)) =
        .ok entry ∧ entry.1 = method.1 ∧ entry.2.method = method.2 ∧
      Carries contract ds interfaces api target method.2 entry.2.route := by
    rintro ⟨name, m⟩ hmethod
    obtain ⟨route, hentry, hcarries⟩ := exists_entryOf hkeys hread hmethod
    exact ⟨(name, ⟨m, route⟩), by rw [hentry]; rfl, rfl, rfl, hcarries⟩
  obtain ⟨table, hall⟩ := exists_forall₂ htotal
  have hnames : Entries.keys table = (interfaces.methods api.name).keys := by
    symm
    unfold Entries.keys
    rw [← List.forall₂_eq_eq_eq, List.forall₂_map_left_iff, List.forall₂_map_right_iff]
    exact hall.imp fun method entry hrelated => hrelated.2.1.symm
  refine ⟨table, mapM_eq_ok.mpr (hall.imp fun method entry hrelated => hrelated.1), ?_, ?_, ?_⟩
  · rw [hnames]
    exact Interfaces.nodup_keys_methods interfaces api.name
  · intro name m hpublic hsurvives
    have hmethod := Interfaces.mem_methods_iff.mpr ⟨hpublic, hsurvives⟩
    obtain ⟨⟨name', entry⟩, hentry, -, rfl, -⟩ := exists_mem_right hall hmethod
    exact ⟨entry, hentry⟩
  · intro name entry hentry
    obtain ⟨⟨name', m⟩, hmethod, -, rfl, rfl, hcarries⟩ := exists_mem_left hall hentry
    obtain ⟨hpublic, hsurvives⟩ := Interfaces.mem_methods_iff.mp hmethod
    exact ⟨hpublic, hsurvives, hcarries⟩

/-! ## Building a client -/

theorem outcome_read : (read parts ds interfaces api).outcome =
    (parts.contract.read ds interfaces api).mapError BuildFault.toFault := by
  unfold read
  rw [Traced.outcome_bind]
  cases (parts.contract.read ds interfaces api) <;> rfl

theorem read_outcome_eq_ok (hread : (read parts ds interfaces api).outcome = .ok plans) :
    parts.contract.read ds interfaces api = .ok plans := by
  rw [outcome_read] at hread
  cases hplans : parts.contract.read ds interfaces api with
  | error why =>
      rw [hplans] at hread
      cases hread
  | ok plans' =>
      rw [hplans] at hread
      rw [Except.ok.inj hread]

theorem outcome_build {b : Builder} {clock : Clock} (hparts : (b.parts clock).outcome = .ok parts)
    (hapi : interfaces.find? target.api = some api)
    (hread : (read parts ds interfaces api).outcome = .ok plans)
    (htable : tableOf ds api.name (routes parts target plans) (interfaces.methods api.name) =
      .ok table) :
    (b.build clock ds interfaces target).outcome =
      (checkAbstract interfaces api.name table).map fun _ =>
        ⟨target, table, interfaces.members api.name⟩ := by
  unfold build
  rw [Traced.outcome_bind, hparts]
  simp only [Except.bind, hapi, Traced.outcome_bind, hread, htable, Traced.note, Traced.lift]
  cases checkAbstract interfaces api.name table <;> rfl

/--
Once an interface is read, a client for it fails for no missing key, and its table has the public
methods that survive overriding, each once and with what was made from that very method. Two
methods that look alike and have no bodies of their own end the reading.
-/
theorem build_dispatches {b : Builder} {clock : Clock} (hparts : (b.parts clock).outcome = .ok parts)
    (hapi : interfaces.find? target.api = some api) (hkeys : parts.contract.KeepsKeys) :
    (∀ plans, (read parts ds interfaces api).outcome = .ok plans →
      ∃ table, IsDispatch parts.contract ds interfaces api target table ∧
        (b.build clock ds interfaces target).outcome =
          (checkAbstract interfaces api.name table).map fun _ =>
            ⟨target, table, interfaces.members api.name⟩) ∧
    (parts.contract.OnlyRefuses → ∀ first second m other, first ≠ second →
      Interfaces.isPrivate first = false → Interfaces.isPrivate second = false →
      interfaces.survivor? api.name first = some (.method m) →
      interfaces.survivor? api.name second = some (.method other) →
      m.isDefault = false → other.isDefault = false → m.LooksLike ds other →
      ∃ fault, (read parts ds interfaces api).outcome = .error fault ∧ fault.family = .build) := by
  constructor
  · intro plans hread
    obtain ⟨table, htable, hdispatch⟩ := isDispatch_tableOf hkeys (read_outcome_eq_ok hread)
    exact ⟨table, hdispatch, outcome_build hparts hapi hread htable⟩
  · intro honly first second m other hne hpublic hpublic' hsurvives hsurvives' hhandled hhandled' hlike
    cases hread : parts.contract.read ds interfaces api with
    | error why =>
        refine ⟨why.toFault, ?_, Contract.isRefusal_read honly hread⟩
        rw [outcome_read, hread]
        rfl
    | ok plans =>
        have hfirst : (first, m) ∈ Contract.handled interfaces api.name :=
          List.mem_filter.mpr
            ⟨Interfaces.mem_methods_iff.mpr ⟨hpublic, hsurvives⟩, by simp [hhandled]⟩
        have hsecond : (second, other) ∈ Contract.handled interfaces api.name :=
          List.mem_filter.mpr
            ⟨Interfaces.mem_methods_iff.mpr ⟨hpublic', hsurvives'⟩, by simp [hhandled']⟩
        exact absurd (eq_of_looksLike hkeys hread hfirst hsecond hlike) hne

/-! ## An interface with methods of all kinds -/

/-- A method without parameters that is handled. -/
def reading (name : String) : MethodDecl where
  name := name
  directives := [.requestLine "GET /" true .exploded]

/-- A method with a body of its own. -/
def describing : MethodDecl where
  name := "describe"
  body := [.values []]

/-- What the interface extends. -/
def parental : InterfaceDecl where
  name := "Base"
  members := [("fetch", .method (reading "old")), ("describe", .method describing)]

/-- An interface that overrides a method, has another name for one and leaves one out. -/
def overriding : InterfaceDecl where
  name := "Api"
  parents := ["Base"]
  members := [("fetch", .method (reading "fetch")), ("again", .method describing),
    ("skip", .method { name := "skip", directives := [.ignore] })]

/-- An interface that has two names for a method that is handled. -/
def doubling : InterfaceDecl where
  name := "Twice"
  members := [("first", .method (reading "read")), ("second", .method (reading "read"))]

/-- The three interfaces in their order. -/
def declared : Interfaces :=
  [parental, overriding, doubling]

open scoped CommonCharsets

/-- What builds clients for them. -/
def plainBuilder : Builder :=
  { Builder.usual (Schema.adapters []) with retryer := some .never }

theorem lineage_doubling : declared.lineage "Twice" = [doubling] := by
  have hlineage : Lineage.of [("Base", []), ("Api", ["Base"]), ("Twice", [])] "Twice" = ["Twice"] := by
    decide +kernel
  change (Lineage.of [("Base", []), ("Api", ["Base"]), ("Twice", [])] "Twice").filterMap
    declared.find? = _
  rw [hlineage]
  rfl

theorem read_overriding : ∃ plans, Contract.usual.read [] declared overriding = .ok plans := by
  have hok : (Contract.usual.read [] declared overriding).isOk = true := by decide +kernel
  cases hplans : Contract.usual.read [] declared overriding with
  | error fault =>
      rw [hplans] at hok
      cases hok
  | ok plans => exact ⟨plans, rfl⟩

theorem build_dispatches_overriding :
    (∃ table, IsDispatch Contract.usual [] declared overriding (.fixed "Api" "http://api.test" "api")
        table ∧
      (plainBuilder.build (.still ⟨0, some 0⟩) [] declared
          (.fixed "Api" "http://api.test" "api")).outcome =
        (checkAbstract declared "Api" table).map fun _ =>
          ⟨.fixed "Api" "http://api.test" "api", table, declared.members "Api"⟩) ∧
    ∃ parts fault, (plainBuilder.parts (.still ⟨0, some 0⟩)).outcome = .ok parts ∧
      (read parts [] declared doubling).outcome = .error fault ∧ fault.family = .build := by
  obtain ⟨parts, hparts, hcontract⟩ : ∃ parts,
      (plainBuilder.parts (.still ⟨0, some 0⟩)).outcome = .ok parts ∧
        parts.contract = Contract.usual := ⟨_, rfl, rfl⟩
  have hkeys : parts.contract.KeepsKeys := hcontract ▸ Contract.keepsKeys_usual
  constructor
  · obtain ⟨plans, hplans⟩ := read_overriding
    have hread : (read parts [] declared overriding).outcome = .ok plans := by
      rw [outcome_read, hcontract, hplans]
      rfl
    have htarget : declared.find? (Target.fixed "Api" "http://api.test" "api").api =
        some overriding := rfl
    obtain ⟨table, hdispatch, hbuild⟩ := (build_dispatches hparts htarget hkeys).1 plans hread
    rw [hcontract] at hdispatch
    exact ⟨table, hdispatch, hbuild⟩
  · have hfirst : declared.survivor? "Twice" "first" = some (.method (reading "read")) := by
      unfold Interfaces.survivor? Interfaces.declarer?
      rw [lineage_doubling]
      rfl
    have hsecond : declared.survivor? "Twice" "second" = some (.method (reading "read")) := by
      unfold Interfaces.survivor? Interfaces.declarer?
      rw [lineage_doubling]
      rfl
    have htarget : declared.find? (Target.fixed "Twice" "http://api.test" "api").api =
        some doubling := rfl
    have honly : parts.contract.OnlyRefuses := hcontract ▸ Contract.onlyRefuses_usual
    have hlike : (reading "read").LooksLike [] (reading "read") := ⟨rfl, rfl⟩
    obtain ⟨fault, hfault, hfamily⟩ := (build_dispatches hparts htarget hkeys).2 honly "first"
      "second" (reading "read") (reading "read") (by decide) rfl rfl hfirst hsecond rfl rfl hlike
    exact ⟨parts, fault, hparts, hfault, hfamily⟩

end Builder

end HttpBinding
