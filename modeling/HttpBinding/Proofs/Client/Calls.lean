import HttpBinding.Octets.Charset
import HttpBinding.Proofs.Client.Binding
import HttpBinding.Proofs.Client.Dispatch

/-!
# What a call of a method comes to

A client binds the arguments of a call to the parameters of the method and hands one value
for each parameter on. A method with a body of its own is called again with these values,
spread over positions and names as the parameters take them. This module proves that the
second binding gives every parameter back what the first one gave it, and that only the
values decide what a call comes to.
-/

namespace HttpBinding

namespace ParameterDecl

variable {p : ParameterDecl} {ps rest : List ParameterDecl} {arguments : List Value}
  {keywords : Keywords} {value : Value} {values : List Value} {name : String}

/-! ## Spreading values -/

section Spread

/-- Values of parameters: one that takes several arguments has a container for them. -/
def Fits (ps : List ParameterDecl) (values : List Value) : Prop :=
  List.Forall₂ (fun p value => (p.kind = .variadic → ∃ items, value = .tuple items) ∧
    (p.kind = .variadicKeyword → ∃ given, value = mappingOf given)) ps values

theorem keywordsOf_mappingOf (given : Keywords) : keywordsOf (mappingOf given) = given := by
  unfold keywordsOf mappingOf
  dsimp only
  rw [List.filterMap_map]
  exact List.filterMap_some

/-- No value is spread over positions behind the last parameter that takes one. -/
theorem spread_fst_eq_nil (hkinds : ∀ q ∈ ps, q.kind.isPositional = false ∧ q.kind ≠ .variadic)
    (values : List Value) : (spread ps values).1 = [] := by
  induction ps generalizing values with
  | nil => rfl
  | cons p rest ih =>
      cases values with
      | nil => rfl
      | cons value values =>
          obtain ⟨hkind, hvariadic⟩ := hkinds p List.mem_cons_self
          have hrest := ih (fun q hq => hkinds q (List.mem_cons_of_mem _ hq)) values
          cases hp : p.kind with
          | keywordOnly => simpa only [spread, hp] using hrest
          | variadicKeyword => simpa only [spread, hp] using hrest
          | variadic => exact absurd hp hvariadic
          | _ => rw [hp] at hkind; cases hkind

/-- A name that a value is spread under is one of a parameter, or was collected. -/
theorem mem_keys_spread (hname : name ∈ Entries.keys (spread ps values).2) :
    (∃ q ∈ ps, q.kind = .keywordOnly ∧ q.name = name) ∨
      ∃ (i : Nat) (q : ParameterDecl) (value : Value), ps[i]? = some q ∧ q.kind = .variadicKeyword ∧
        values[i]? = some value ∧ name ∈ (keywordsOf value).keys := by
  induction ps generalizing values with
  | nil => cases hname
  | cons p rest ih =>
      cases values with
      | nil => cases hname
      | cons value values =>
          have hlater : name ∈ Entries.keys (spread rest values).2 →
              (∃ q ∈ p :: rest, q.kind = .keywordOnly ∧ q.name = name) ∨
                ∃ (i : Nat) (q : ParameterDecl) (v : Value), (p :: rest)[i]? = some q ∧
                  q.kind = .variadicKeyword ∧ (value :: values)[i]? = some v ∧
                  name ∈ (keywordsOf v).keys := by
            intro hmem
            refine (ih hmem).imp ?_ ?_
            · rintro ⟨q, hq, hnamed⟩
              exact ⟨q, List.mem_cons_of_mem _ hq, hnamed⟩
            · rintro ⟨i, q, v, hq, hkind, hv, hcollected⟩
              exact ⟨i + 1, q, v, hq, hkind, hv, hcollected⟩
          cases hp : p.kind with
          | keywordOnly =>
              simp only [spread, hp, Entries.keys, List.map_cons, List.mem_cons] at hname
              rcases hname with rfl | hmem
              · exact Or.inl ⟨p, List.mem_cons_self, hp, rfl⟩
              · exact hlater hmem
          | variadicKeyword =>
              simp only [spread, hp, Entries.keys, List.map_append, List.mem_append] at hname
              rcases hname with hcollected | hmem
              · exact Or.inr ⟨0, p, value, rfl, hp, rfl, hcollected⟩
              · exact hlater hmem
          | _ =>
              simp only [spread, hp] at hname
              exact hlater hname

theorem mem_keys_spread_cons (hname : name ∈ Entries.keys (spread rest values).2) :
    name ∈ Entries.keys (spread (p :: rest) (value :: values)).2 := by
  cases hp : p.kind with
  | keywordOnly =>
      simp only [spread, hp]
      exact List.mem_cons_of_mem _ hname
  | variadicKeyword =>
      simp only [spread, hp, Entries.keys, List.map_append]
      exact List.mem_append_right _ hname
  | _ => simpa only [spread, hp] using hname

/-- Values that fit are bound again as they are, if no name is given beside its position. -/
theorem bind?_spread_of_fits (hsignature : IsSignature ps) (hfits : Fits ps values)
    (hfree : ∀ p ∈ ps, p.kind = .normal → p.name ∉ Entries.keys (spread ps values).2) :
    bind? ps (spread ps values).1 (spread ps values).2 = some values := by
  induction hfits with
  | nil => rfl
  | @cons p value rest values hfirst hfits ih =>
      have hfree' : ∀ q ∈ rest, q.kind = .normal → q.name ∉ Entries.keys (spread rest values).2 :=
        fun q hq hnormal hmem =>
          hfree q (List.mem_cons_of_mem _ hq) hnormal (mem_keys_spread_cons hmem)
      specialize ih hsignature.tail hfree'
      have hnone : p.kind.isPositional = false → (spread rest values).1 = [] := fun hkind =>
        spread_fst_eq_nil (hsignature.keywords_follow hkind) values
      cases hp : p.kind with
      | positionalOnly =>
          have hpositional : p.kind.isPositional = true := by rw [hp]; rfl
          simp only [spread, hp]
          rw [bind?_of_argument hpositional (by rw [hp]; exact nofun), ih]
          rfl
      | normal =>
          have hpositional : p.kind.isPositional = true := by rw [hp]; rfl
          have habsent : List.lookup p.name (spread rest values).2 = none :=
            Entries.lookup_eq_none_iff.mpr fun hmem =>
              hfree p List.mem_cons_self hp (mem_keys_spread_cons hmem)
          simp only [spread, hp]
          rw [bind?_of_argument hpositional (fun _ => habsent), ih]
          rfl
      | variadic =>
          obtain ⟨items, rfl⟩ := hfirst.1 hp
          have hnil := hnone (by rw [hp]; rfl)
          rw [hnil] at ih
          simp only [spread, hp, argumentsOf, hnil, List.append_nil]
          rw [bind?_of_variadic hp, ih]
          rfl
      | keywordOnly =>
          have hnil := hnone (by rw [hp]; rfl)
          rw [hnil] at ih
          have hgiven : List.lookup p.name ((p.name, value) :: (spread rest values).2) =
              some value := by
            rw [Entries.lookup_cons, if_pos rfl]
          simp only [spread, hp, hnil]
          rw [bind?_of_keyword (by rw [hp]; rfl) hgiven, Entries.erase, if_pos rfl, ih]
          rfl
      | variadicKeyword =>
          obtain ⟨given, rfl⟩ := hfirst.2 hp
          obtain rfl := hsignature.eq_nil hp
          obtain rfl := List.forall₂_nil_left_iff.mp hfits
          simp only [spread, hp, keywordsOf_mappingOf, List.append_nil]
          rw [bind?_of_variadicKeyword hp]
          rfl

/-- What a call binds fits its parameters. -/
theorem Binds.fits (hbinds : Binds ps arguments keywords values) : Fits ps values := by
  refine List.forall₂_iff_get.mpr ⟨hbinds.length.symm, fun i hi hi' => ?_⟩
  have hfills := hbinds.filled i _ _ (List.getElem?_eq_getElem hi) (List.getElem?_eq_getElem hi')
  exact ⟨fun hkind => ⟨_, hfills.tuple hkind⟩, fun hkind => ⟨_, hfills.mapping hkind⟩⟩

/-- No keyword argument is spread under a name that could take the value from its position. -/
theorem Binds.name_notMem (hsignature : IsSignature ps)
    (hbinds : Binds ps arguments keywords values) (hp : p ∈ ps) (hnormal : p.kind = .normal) :
    p.name ∉ Entries.keys (spread ps values).2 := by
  intro hmem
  rcases mem_keys_spread hmem with ⟨q, hq, hkind, hname⟩ | ⟨i, q, value, hq, hkind, hvalue, hname⟩
  · obtain rfl := List.inj_on_of_nodup_map hsignature.names hq hp hname
    rw [hnormal] at hkind
    cases hkind
  · rw [(hbinds.filled i q value hq hvalue).mapping hkind, keywordsOf_mappingOf] at hname
    obtain ⟨entry, hentry, hkey⟩ := List.mem_map.mp hname
    have hfree := (List.mem_filter.mp hentry).2
    rw [Bool.not_eq_true', List.any_eq_false] at hfree
    refine hfree p hp ?_
    simp [hnormal, ParameterKind.isNamed, hkey]

/-- What a call binds is bound again when it is spread over positions and names. -/
theorem Binds.bind?_spread (hsignature : IsSignature ps)
    (hbinds : Binds ps arguments keywords values) :
    bind? ps (spread ps values).1 (spread ps values).2 = some values :=
  bind?_spread_of_fits hsignature hbinds.fits fun _ hp hnormal =>
    hbinds.name_notMem hsignature hp hnormal

/-- Every parameter goes by its name. -/
theorem lookup_named (hnames : (ps.map ParameterDecl.name).Nodup) {i : Nat} (hp : ps[i]? = some p)
    (hvalue : values[i]? = some value) : (named ps values).lookup p.name = some value := by
  induction ps generalizing values i with
  | nil => cases hp
  | cons first rest ih =>
      cases values with
      | nil => cases hvalue
      | cons firstValue values =>
          rw [List.map_cons, List.nodup_cons] at hnames
          rw [named, List.map_cons, List.zip_cons_cons, Entries.lookup_cons]
          cases i with
          | zero =>
              obtain rfl := Option.some.inj hp
              obtain rfl := Option.some.inj hvalue
              rw [if_pos rfl]
          | succ i =>
              have hne : p.name ≠ first.name := by
                intro heq
                exact hnames.1 (heq ▸ List.mem_map_of_mem (List.mem_of_getElem? hp))
              rw [if_neg hne]
              exact ih hnames.2 hp hvalue

end Spread

/-! ## The object -/

section Object

/-- The parameter that stands for the object, which is given by position. -/
structure IsObject (p : ParameterDecl) : Prop where
  name : p.name = objectName
  positional : p.kind.isPositional = true

variable {self : ParameterDecl} {this : Value}

/-- A call on an object binds as the call that has the object first, if no name stands for it. -/
theorem bindCall_eq_ok_iff (hself : IsObject self)
    (hsignature : IsSignature (self :: ps)) (hkeys : keywords.keys.Nodup) :
    bindCall ps arguments keywords = .ok values ↔
      Binds (self :: ps) (this :: arguments) keywords (this :: values) ∧
        objectName ∉ keywords.keys := by
  by_cases hgiven : objectName ∈ keywords.keys
  · have hsome : (List.lookup objectName keywords).isSome = true :=
      Option.isSome_iff_ne_none.mpr (Entries.lookup_eq_none_iff.not.mpr (not_not_intro hgiven))
    rw [bindCall, if_pos hsome]
    exact iff_of_false nofun fun hbinds => hbinds.2 hgiven
  · have hnone : List.lookup objectName keywords = none := Entries.lookup_eq_none_iff.mpr hgiven
    rw [and_iff_left hgiven, binds_of_argument hself.positional fun _ => hself.name ▸ hnone,
      and_iff_right rfl, ← bind?_eq_some_iff hsignature.tail hkeys, bindCall, hnone]
    cases bind? ps arguments keywords <;> simp

theorem bindCall_eq_error (hnone : ∀ values, bindCall ps arguments keywords ≠ .ok values) :
    bindCall ps arguments keywords = .error (.runtime "TypeError") := by
  unfold bindCall at hnone ⊢
  split
  · rfl
  next hfree =>
    rw [if_neg hfree] at hnone
    cases hbound : bind? ps arguments keywords with
    | none => rfl
    | some values =>
        rw [hbound] at hnone
        exact absurd rfl (hnone values)

end Object

end ParameterDecl

namespace Builder

variable {b : Builder} {clock : Clock} {ds : Declarations} {interfaces : Interfaces}
  {target : Target} {client : Client} {name : String} {entry : Entry} {m : MethodDecl}

theorem tableOf_of_build (hbuilt : (b.build clock ds interfaces target).outcome = .ok client) :
    ∃ (parts : Parts) (api : InterfaceDecl) (plans : List Plan), tableOf ds api.name
      (routes parts target plans) (interfaces.methods api.name) = .ok client.table := by
  unfold build at hbuilt
  rw [Traced.outcome_bind] at hbuilt
  obtain ⟨parts, -, hparts⟩ := bind_eq_ok.mp hbuilt
  split at hparts
  · cases hparts
  next api hapi =>
    rw [Traced.outcome_bind] at hparts
    obtain ⟨plans, -, hplans⟩ := bind_eq_ok.mp hparts
    rw [Traced.outcome_bind] at hplans
    obtain ⟨-, -, hwarned⟩ := bind_eq_ok.mp hplans
    rw [Traced.outcome_bind] at hwarned
    obtain ⟨table, htable, hmade⟩ := bind_eq_ok.mp hwarned
    rw [Traced.outcome_bind] at hmade
    obtain ⟨-, -, hchecked⟩ := bind_eq_ok.mp hmade
    rw [Traced.outcome_bind] at hchecked
    obtain ⟨-, -, hclient⟩ := bind_eq_ok.mp hchecked
    obtain rfl := Except.ok.inj hclient
    exact ⟨parts, api, plans, htable⟩

/-- What is filed under a key has no body to run: an entry that runs one has it from its method. -/
theorem eq_of_entryOf {parts : Parts} {api : String} {plans : List Plan} {method : MethodDecl}
    (hmade : entryOf ds api (routes parts target plans) method = .ok entry)
    (hroute : entry.route = .runs m) : m = entry.method := by
  unfold entryOf at hmade
  split at hmade
  · obtain rfl := Except.ok.inj hmade
    exact (Route.runs.inj hroute).symm
  · split at hmade
    next route hfound =>
      obtain rfl := Except.ok.inj hmade
      obtain ⟨key, -, hkey⟩ := Option.bind_eq_some_iff.mp hfound
      obtain ⟨plan, -, hplan⟩ := List.mem_map.mp (Entries.mem_of_lookup hkey)
      obtain ⟨-, rfl⟩ := Prod.mk.inj hplan
      dsimp only [routeOf] at hroute
      split at hroute <;> cases hroute
    next => cases hmade

/-- What a client runs for a method is that very method. -/
theorem eq_of_runs (hbuilt : (b.build clock ds interfaces target).outcome = .ok client)
    (hentry : client.table.lookup name = some entry) (hroute : entry.route = .runs m) :
    m = entry.method := by
  obtain ⟨parts, api, plans, htable⟩ := tableOf_of_build hbuilt
  obtain ⟨⟨name', method⟩, -, hmade⟩ :=
    exists_mem_left (mapM_eq_ok.mp htable) (Entries.mem_of_lookup hentry)
  obtain ⟨made, hentryOf, heq⟩ := map_eq_ok.mp hmade
  obtain ⟨-, rfl⟩ := Prod.mk.inj heq
  exact eq_of_entryOf hentryOf hroute

end Builder

namespace Client

variable {client : Client} {network : Network} {n depth : Nat} {name : String} {entry : Entry}
  {arguments : List Value} {keywords : Keywords} {values : List Value}

/-- Carries a method of a client out on the values of its parameters. -/
def carryOut [Charsets] (client : Client) (network : Network) (n depth : Nat) (entry : Entry)
    (values : List Value) : Traced Reply :=
  match entry.route with
  | .sends handler => send handler network n values
  | .runs _ => runFunction (client.callWithin network n depth .client) entry.method
      (ParameterDecl.named entry.method.parameters values)
  | .refuses key => Traced.fail (refusal key)

theorem runMethod_of_binds {caller : Caller} {m : MethodDecl}
    (hsignature : ParameterDecl.IsSignature m.parameters)
    (hbinds : ParameterDecl.Binds m.parameters arguments keywords values) :
    runMethod caller m values =
      runFunction caller m (ParameterDecl.named m.parameters values) := by
  unfold runMethod
  dsimp only
  rw [hbinds.bind?_spread hsignature]

theorem callWithin_of_bindCall [Charsets] (hentry : client.table.lookup name = some entry) :
    client.callWithin network n (depth + 1) .client name arguments keywords =
      (Traced.lift (ParameterDecl.bindCall entry.method.parameters arguments keywords)).andThen
        fun values => match entry.route with
          | .sends handler => send handler network n values
          | .runs method => runMethod (client.callWithin network n depth .client) method values
          | .refuses key => Traced.fail (refusal key) := by
  unfold callWithin
  dsimp only
  rw [hentry]
  rfl

section Bound

open ParameterDecl (IsSignature IsObject Binds named objectName)

variable {self : ParameterDecl} {this : Value}

/-- A call that binds carries the method out on the values that the rules of calling give. -/
theorem callWithin_of_binds [Charsets] (hruns : ∀ m, entry.route = .runs m → m = entry.method)
    (hentry : client.table.lookup name = some entry) (hself : IsObject self)
    (hsignature : IsSignature (self :: entry.method.parameters)) (hkeys : keywords.keys.Nodup)
    (hfree : objectName ∉ keywords.keys)
    (hbinds : Binds (self :: entry.method.parameters) (this :: arguments) keywords
      (this :: values)) :
    client.callWithin network n (depth + 1) .client name arguments keywords =
      client.carryOut network n depth entry values := by
  have habsent : List.lookup self.name keywords = none := by
    rw [hself.name]
    exact Entries.lookup_eq_none_iff.mpr hfree
  have hvalues : Binds entry.method.parameters arguments keywords values :=
    ((ParameterDecl.binds_of_argument hself.positional fun _ => habsent).mp hbinds).2
  rw [callWithin_of_bindCall hentry,
    (ParameterDecl.bindCall_eq_ok_iff hself hsignature hkeys).mpr ⟨hbinds, hfree⟩]
  unfold carryOut
  cases hroute : entry.route with
  | sends handler => rfl
  | refuses key => rfl
  | runs method =>
      obtain rfl := hruns method hroute
      exact runMethod_of_binds hsignature.tail hvalues

/-- A call that does not bind comes to nothing else. -/
theorem callWithin_of_not_binds [Charsets] (hentry : client.table.lookup name = some entry)
    (hself : IsObject self) (hsignature : IsSignature (self :: entry.method.parameters))
    (hkeys : keywords.keys.Nodup)
    (hrefused : objectName ∈ keywords.keys ∨ ∀ values,
      ¬ Binds (self :: entry.method.parameters) (this :: arguments) keywords (this :: values)) :
    client.callWithin network n (depth + 1) .client name arguments keywords =
      Traced.fail (.runtime "TypeError") := by
  have hcall : ParameterDecl.bindCall entry.method.parameters arguments keywords =
      .error (.runtime "TypeError") := by
    refine ParameterDecl.bindCall_eq_error fun values hbound => ?_
    obtain ⟨hbinds, hfree⟩ := (ParameterDecl.bindCall_eq_ok_iff hself hsignature hkeys).mp hbound
    rcases hrefused with hgiven | hnone
    · exact hfree hgiven
    · exact hnone values hbinds
  rw [callWithin_of_bindCall hentry, hcall]
  rfl

/--
A call of a method of a client that was built carries the method out on exactly the values that
the rules of calling give to its parameters, of which a body has each under its name; calls that
give the same values come to the same. A call that does not bind, and one that gives a keyword the
name of the object, comes to a fault and to nothing else.
-/
theorem callWithin_carriesOut [Charsets] {b : Builder} {clock : Clock} {ds : Declarations}
    {interfaces : Interfaces} {target : Target}
    (hbuilt : (b.build clock ds interfaces target).outcome = .ok client)
    (hentry : client.table.lookup name = some entry) (hself : IsObject self)
    (hsignature : IsSignature (self :: entry.method.parameters)) (this : Value)
    (network : Network) (n depth : Nat) :
    (∀ (arguments : List Value) (keywords : Keywords) (values : List Value), keywords.keys.Nodup →
      objectName ∉ keywords.keys →
      Binds (self :: entry.method.parameters) (this :: arguments) keywords (this :: values) →
      client.callWithin network n (depth + 1) .client name arguments keywords =
        client.carryOut network n depth entry values ∧
      ∀ (i : Nat) (p : ParameterDecl) (value : Value), entry.method.parameters[i]? = some p →
        values[i]? = some value →
          (named entry.method.parameters values).lookup p.name = some value) ∧
    (∀ (arguments arguments' : List Value) (keywords keywords' : Keywords) (values : List Value),
      keywords.keys.Nodup → objectName ∉ keywords.keys →
      keywords'.keys.Nodup → objectName ∉ keywords'.keys →
      Binds (self :: entry.method.parameters) (this :: arguments) keywords (this :: values) →
      Binds (self :: entry.method.parameters) (this :: arguments') keywords' (this :: values) →
      client.callWithin network n (depth + 1) .client name arguments keywords =
        client.callWithin network n (depth + 1) .client name arguments' keywords') ∧
    ∀ (arguments : List Value) (keywords : Keywords), keywords.keys.Nodup →
      (objectName ∈ keywords.keys ∨ ∀ values,
        ¬ Binds (self :: entry.method.parameters) (this :: arguments) keywords (this :: values)) →
      client.callWithin network n (depth + 1) .client name arguments keywords =
        Traced.fail (.runtime "TypeError") := by
  have hruns : ∀ m, entry.route = .runs m → m = entry.method :=
    fun m hroute => Builder.eq_of_runs hbuilt hentry hroute
  refine ⟨?_, ?_, ?_⟩
  · intro arguments keywords values hkeys hfree hbinds
    refine ⟨callWithin_of_binds hruns hentry hself hsignature hkeys hfree hbinds, ?_⟩
    intro i p value hp hvalue
    exact ParameterDecl.lookup_named hsignature.tail.names hp hvalue
  · intro arguments arguments' keywords keywords' values hkeys hfree hkeys' hfree' hbinds hbinds'
    rw [callWithin_of_binds hruns hentry hself hsignature hkeys hfree hbinds,
      callWithin_of_binds hruns hentry hself hsignature hkeys' hfree' hbinds']
  · intro arguments keywords hkeys hrefused
    exact callWithin_of_not_binds hentry hself hsignature hkeys hrefused

end Bound

/-! ## A method with a parameter of every kind -/

/-- A method that gives all of its values back. -/
def gathering : MethodDecl where
  name := "gather"
  parameters := [{ name := "a", kind := .positionalOnly },
    { name := "b", default := some (.text "b") }, { name := "rest", kind := .variadic },
    { name := "c", default := some .null, kind := .keywordOnly },
    { name := "others", kind := .variadicKeyword }]
  body := [.values [.parameter "a", .parameter "b", .parameter "rest", .parameter "c",
    .parameter "others"]]

/-- The only interface, which has the method. -/
def gatherer : InterfaceDecl where
  name := "Api"
  members := [("gather", .method gathering)]

/-- The client for it. -/
def gatherClient : Client where
  target := .fixed "Api" "http://api.test" "api"
  table := [("gather", ⟨gathering, .runs gathering⟩)]
  members := [("gather", .method gathering)]

theorem members_gatherer :
    Interfaces.members [gatherer] "Api" = [("gather", .method gathering)] := by
  have hlineage : Interfaces.lineage [gatherer] "Api" = [gatherer] := by
    have hnames : Lineage.of [("Api", [])] "Api" = ["Api"] := by decide +kernel
    change (Lineage.of [("Api", [])] "Api").filterMap (Interfaces.find? [gatherer]) = _
    rw [hnames]
    rfl
  rw [Interfaces.members, hlineage]
  rfl

open scoped CommonCharsets

theorem build_gatherClient :
    (Builder.plainBuilder.build (.still ⟨0, some 0⟩) [] [gatherer]
      (.fixed "Api" "http://api.test" "api")).outcome = .ok gatherClient := by
  have hmethods : Interfaces.methods [gatherer] "Api" = [("gather", gathering)] := by
    rw [Interfaces.methods, members_gatherer]
    rfl
  obtain ⟨parts, hparts, hcontract⟩ : ∃ parts,
      (Builder.plainBuilder.parts (.still ⟨0, some 0⟩)).outcome = .ok parts ∧
        parts.contract = Contract.usual := ⟨_, rfl, rfl⟩
  have hplans : Contract.usual.read [] [gatherer] gatherer = .ok [] := by
    unfold Contract.read
    change (Contract.checkShape [gatherer] gatherer >>= fun _ => Contract.plansOf Contract.usual []
      [gatherer] gatherer [] (((Interfaces.methods [gatherer] "Api").map Prod.snd).filter
        fun m => !m.isDefault)) = _
    rw [hmethods]
    rfl
  have hread : (Builder.read parts [] [gatherer] gatherer).outcome = .ok [] := by
    rw [Builder.outcome_read, hcontract, hplans]
    rfl
  have htable : Builder.tableOf [] "Api"
      (Builder.routes parts (.fixed "Api" "http://api.test" "api") [])
      (Interfaces.methods [gatherer] "Api") = .ok gatherClient.table := by
    rw [hmethods]
    rfl
  have habstract : Builder.checkAbstract [gatherer] "Api" gatherClient.table = .ok () := by
    decide +kernel
  rw [Builder.outcome_build hparts rfl hread htable]
  change (Builder.checkAbstract [gatherer] "Api" gatherClient.table).map (fun _ =>
    (⟨.fixed "Api" "http://api.test" "api", gatherClient.table,
      Interfaces.members [gatherer] "Api"⟩ : Client)) = _
  rw [habstract, members_gatherer]
  rfl

/-- The parameters of the method with the one for the object. -/
def gatheringParameters : List ParameterDecl :=
  ParameterDecl.object gathering.parameters :: gathering.parameters

theorem isSignature_gatheringParameters : ParameterDecl.IsSignature gatheringParameters :=
  ⟨by decide, by decide⟩

theorem isObject_gathering : ParameterDecl.IsObject (ParameterDecl.object gathering.parameters) :=
  ⟨rfl, rfl⟩

theorem callWithin_carriesOut_gathering :
    ParameterDecl.Binds gatheringParameters [.null, .int 1] [("c", .int 2), ("d", .int 3)]
        [.null, .int 1, .text "b", .tuple [], .int 2, .dict [(.text "d", .int 3)]] ∧
      ∀ (network : Network) (n depth : Nat),
        gatherClient.callWithin network n (depth + 1) .client "gather" [.int 1]
            [("c", .int 2), ("d", .int 3)] =
          Traced.ofValue (.value (.list
            [.int 1, .text "b", .tuple [], .int 2, .dict [(.text "d", .int 3)]])) ∧
        gatherClient.callWithin network n (depth + 1) .client "gather" [.int 1, .text "b"]
            [("d", .int 3), ("c", .int 2)] =
          gatherClient.callWithin network n (depth + 1) .client "gather" [.int 1]
            [("c", .int 2), ("d", .int 3)] ∧
        gatherClient.callWithin network n (depth + 1) .client "gather" [] [("a", .int 1)] =
          Traced.fail (.runtime "TypeError") := by
  have hbinds : ParameterDecl.Binds gatheringParameters [.null, .int 1]
      [("c", .int 2), ("d", .int 3)]
      [.null, .int 1, .text "b", .tuple [], .int 2, .dict [(.text "d", .int 3)]] :=
    (ParameterDecl.bind?_eq_some_iff isSignature_gatheringParameters (by decide)).mp rfl
  have hbinds' : ParameterDecl.Binds gatheringParameters [.null, .int 1, .text "b"]
      [("d", .int 3), ("c", .int 2)]
      [.null, .int 1, .text "b", .tuple [], .int 2, .dict [(.text "d", .int 3)]] :=
    (ParameterDecl.bind?_eq_some_iff isSignature_gatheringParameters (by decide)).mp rfl
  have hentry : gatherClient.table.lookup "gather" = some ⟨gathering, .runs gathering⟩ := rfl
  refine ⟨hbinds, fun network n depth => ?_⟩
  obtain ⟨hcarries, hspellings, hrefuses⟩ := callWithin_carriesOut build_gatherClient hentry
    isObject_gathering isSignature_gatheringParameters .null network n depth
  refine ⟨?_, ?_, ?_⟩
  · rw [(hcarries _ _ _ (by decide) (by decide) hbinds).1]
    rfl
  · exact hspellings _ _ _ _ _ (by decide) (by decide) (by decide) (by decide) hbinds' hbinds
  · refine hrefuses _ _ (by decide) (Or.inr fun values hbound => ?_)
    cases (ParameterDecl.bind?_eq_some_iff isSignature_gatheringParameters (by decide)).mpr hbound

/-- A keyword with the name of the object is collected by the rules of calling, but is refused. -/
theorem callWithin_refuses_objectName :
    (Builder.plainBuilder.build (.still ⟨0, some 0⟩) [] [gatherer]
        (.fixed "Api" "http://api.test" "api")).outcome = .ok gatherClient ∧
      ParameterDecl.Binds gatheringParameters [.null, .int 1] [("self", .int 2)]
        [.null, .int 1, .text "b", .tuple [], .null, .dict [(.text "self", .int 2)]] ∧
      ∀ (network : Network) (n depth : Nat),
        gatherClient.callWithin network n (depth + 1) .client "gather" [.int 1]
            [("self", .int 2)] = Traced.fail (.runtime "TypeError") ∧
        gatherClient.carryOut network n depth ⟨gathering, .runs gathering⟩
            [.int 1, .text "b", .tuple [], .null, .dict [(.text "self", .int 2)]] =
          Traced.ofValue (.value (.list
            [.int 1, .text "b", .tuple [], .null, .dict [(.text "self", .int 2)]])) := by
  refine ⟨build_gatherClient, ?_, fun network n depth => ⟨?_, rfl⟩⟩
  · exact (ParameterDecl.bind?_eq_some_iff isSignature_gatheringParameters (by decide)).mp rfl
  · rw [callWithin_of_bindCall rfl]
    rfl

end Client

end HttpBinding
