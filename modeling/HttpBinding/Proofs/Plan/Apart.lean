import HttpBinding.Octets.Charset
import HttpBinding.Proofs.Plan.TwoRequests

/-!
# Arguments that requests tell apart

A variable that is written into a part of a request tells two calls apart: its text can be read
off that part. So an argument is lost only if none of its places is such a part. A variable of the
form gives way to a body text, and one of a body text to an argument that is the body; one in a
query goes away with the name of its parameter, or changes a name; and one in the path may make
an address of it, or be the address that the path is appended to.
-/

namespace HttpBinding.Plan

open Template

variable {plan : Plan} {index : Nat} {names : List String} {a b : String} {arguments : List Value}
  {bindings : Bindings} {addressed t t' : Template}

/-- Each place that a variable has is one at which its text may be lost. -/
structure IsLost (plan : Plan) (index : Nat) (names : List String) (bindings : Bindings)
    (addressed t t' : Template) (name : String) : Prop where
  placed : plan.template.hasVariable name = true ∨ plan.isFormName name = true
  /-- A body text takes the place of the form. -/
  form : plan.isFormName name = true → plan.template.bodyText.isSome = true
  /-- An argument that is the body takes the place of the body text. -/
  bodyText : ∀ text, plan.template.bodyText = some text → name ∈ placeholders text →
    plan.hasBody = true
  headers : ∀ entry ∈ plan.template.headers, ∀ text ∈ entry.2, name ∉ placeholders text
  /-- The argument is the address too, or it begins a path that only one of the texts makes one. -/
  path : name ∈ placeholders plan.template.path → plan.urlIndex = some index ∨
    startsWith "\x7b" plan.template.path = true ∧ startsWith "http" t'.path ≠ startsWith "http" t.path
  /--
  The argument is the address too, or is a part of the name of a query parameter, or nothing is
  bound to what the name of the parameter mentions.
  -/
  query : ∀ key text, plan.template.queries.Has key (some text) → name ∈ placeholders text →
    plan.urlIndex = some index ∨ (∃ key ∈ addressed.queries.keys, Mentions names key) ∨
      fillIfBound bindings id key = .ok none

/-- The address of a call only adds to the query parameters. -/
theorem has_setAddress (hset : plan.setAddress arguments t = .ok t') {key : String}
    {value : Option String} (hhas : t.queries.Has key value) : t'.queries.Has key value := by
  unfold setAddress at hset
  split at hset
  · obtain rfl := Except.ok.inj hset
    exact hhas
  · obtain ⟨given, -, htarget⟩ := bind_eq_ok.mp hset
    obtain rfl := Except.ok.inj htarget
    rw [target_eq]
    exact has_addPairs_of_has hhas _

/-- A parameter that is only marked as a variable is not the header map. -/
theorem headerMapIndex_ne {hints : List Ty}
    (hrecords : Contract.Records plan (plan.method.parameters.zip hints)) {parameter : ParameterDecl}
    (hparameter : plan.method.parameters[index]? = some parameter)
    (hmarked : parameter.markedRoles = [.named]) : plan.headerMapIndex ≠ some index := by
  intro hindex
  have hrole : plan.HasRole index .headerMap := hindex
  rw [hrecords.roles] at hrole
  obtain ⟨⟨⟨p, hint⟩, hp, hasked⟩, -⟩ := hrole
  obtain ⟨hp, -⟩ := List.getElem?_zip_eq_some.mp hp
  rw [hparameter] at hp
  obtain rfl := Option.some.inj hp
  rw [mem_askedRoles, hmarked] at hasked
  unfold Ty.role? at hasked
  split at hasked
  · simp at hasked
  · split at hasked <;> simp at hasked

/--
No argument is lost without a reason. Two calls that go through and differ in one argument, which
is a variable and nothing else by its marker, make requests that differ in their address, their
headers or their body, unless each place of each of its variables is one at which it may be lost.
-/
theorem fill_tells_apart [Charsets] {ds : Declarations} {interfaces : Interfaces}
    {api : InterfaceDecl}
    {plans : List Plan} {parameter : ParameterDecl} {queryMapEncoder : QueryMapEncoder}
    {target : Target} {request request' : Request}
    (hread : Contract.usual.read ds interfaces api = .ok plans) (hplan : plan ∈ plans)
    (hhandled : plan.ignored = false) (hmap : plan.queryMapIndex = none)
    (hparameter : plan.method.parameters[index]? = some parameter)
    (hmarked : parameter.markedRoles = [.named]) (hexpander : plan.expanders.lookup index = none)
    (hbound : (index, names) ∈ plan.names)
    (halone : ∀ entry ∈ plan.names, entry.1 ≠ index → ∀ name ∈ names, name ∉ entry.2)
    (hargument : arguments[index]? = some (.text a)) (hne : a ≠ b)
    (hfill : plan.fill .usual queryMapEncoder arguments = .ok t)
    (hfill' : plan.fill .usual queryMapEncoder (arguments.set index (.text b)) = .ok t')
    (hrequest : (target.apply t).2 = .ok request) (hrequest' : (target.apply t').2 = .ok request') :
    (request.url ≠ request'.url ∨ request.headers ≠ request'.headers ∨ request.body ≠ request'.body) ∨
      ∃ bindings addressed, plan.bindings arguments = .ok bindings ∧
        plan.setAddress arguments plan.template = .ok addressed ∧
        ∀ name ∈ names, plan.IsLost index names bindings addressed t t' name := by
  have hready := Contract.isReady_of_mem_read hread hplan hhandled
  obtain ⟨method, hplanOf⟩ := Contract.planOf_of_mem_read hread hplan
  obtain ⟨hints, -, -, rfl, hrecords⟩ := Contract.records_planOf hplanOf hhandled
  have hvariable : plan.IsVariable index names :=
    ⟨hbound, halone, hexpander, headerMapIndex_ne hrecords hparameter hmarked⟩
  obtain ⟨bindings, addressed, written, resolved, hsteps⟩ := steps_of_fill hmap hfill
  obtain ⟨bindings', addressed', written', resolved', hsteps'⟩ := steps_of_fill hmap hfill'
  refine or_iff_not_imp_left.mpr ?_
  intro hsame
  rw [not_or, not_or, not_not, not_not, not_not] at hsame
  obtain ⟨hurl, hheaders, hbody⟩ := hsame
  rw [(Target.request_of_apply hrequest).2.2, (Target.request_of_apply hrequest').2.2] at hbody
  refine ⟨bindings, addressed, hsteps.bound, hsteps.address, ?_⟩
  intro name hname
  have hmention : ∀ {text : String}, name ∈ placeholders text → Mentions names text :=
    fun hmem => ⟨name, hname, hmem⟩
  -- At every other place the requests would differ.
  refine ⟨hready.placed _ hbound name hname, ?_, ?_, ?_, ?_, ?_⟩
  · intro hform
    by_contra hnone
    rw [Option.not_isSome_iff_eq_none] at hnone
    exact body_ne_of_form hready hvariable hargument hsteps hsteps' hne hname hform hnone hbody
  · intro text htext hmem
    by_contra hhasBody
    rw [Bool.not_eq_true] at hhasBody
    exact body_ne_of_bodyText hready hvariable hargument hsteps hsteps' hne htext (hmention hmem)
      hhasBody hbody
  · intro entry hentry text htext hmem
    exact headers_ne hready hvariable hargument hsteps hsteps' hrequest hrequest' hne hentry htext
      (hmention hmem) hheaders
  · intro hmem
    refine or_iff_not_imp_left.mpr ?_
    intro haddress
    have hhttp : startsWith "http" t'.path ≠ startsWith "http" t.path := fun hhttp =>
      url_ne_of_path hready hvariable hargument hsteps hsteps' hrequest hrequest' hne haddress
        (hmention hmem) hhttp hurl
    refine ⟨?_, hhttp⟩
    by_contra hbrace
    rw [Bool.not_eq_true] at hbrace
    have hfills := hsteps.fills Encoder.writesBodies_usual
    have hfills' := hsteps'.fills Encoder.writesBodies_usual
    refine hhttp ?_
    rw [hready.template.startsWith_http_of_fill hbrace hfills.path,
      hready.template.startsWith_http_of_fill hbrace hfills'.path]
  · intro key text hhas hmem
    by_contra hkept
    rw [not_or, not_or] at hkept
    obtain ⟨haddress, hnames, hstays⟩ := hkept
    obtain ⟨values, hentry, hvalue⟩ := has_setAddress hsteps.address hhas
    refine url_ne_of_query hready hvariable hargument hsteps hsteps' hrequest hrequest' hne
      haddress ?_ hentry hvalue (hmention hmem) hstays hurl
    exact fun other hother hmentions => hnames ⟨other, hother, hmentions⟩

/-! ## Methods with a variable -/

/-- An interface with one method. -/
def sending (directives : List Directive) (parameters : List ParameterDecl) : InterfaceDecl where
  name := "Api"
  members :=
    [("send", .method { name := "send", directives := directives, parameters := parameters })]

/-- A parameter that is marked as a variable of its own name. -/
def variableOf (name : String) (ty : Ty) : ParameterDecl :=
  { name := name, ty := some ty, markers := [.param "" none] }

/-- What a plan is like whose first argument is the variable of some name and nothing else. -/
def HasVariableFirst (plan : Plan) (name : String) : Prop :=
  plan.ignored = false ∧ plan.queryMapIndex = none ∧
    (plan.method.parameters[0]?).map ParameterDecl.markedRoles = some [.named] ∧
    plan.expanders.lookup 0 = none ∧ (0, [name]) ∈ plan.names ∧
    ∀ entry ∈ plan.names, entry.1 ≠ 0 → name ∉ entry.2

instance (plan : Plan) (name : String) : Decidable (plan.HasVariableFirst name) :=
  inferInstanceAs (Decidable (_ ∧ _ ∧ _ ∧ _ ∧ _ ∧ _))

open scoped CommonCharsets

theorem fill_tells_apart_ofForm : ∃ plan request request',
    Contract.usual.read [] [sending [.requestLine "POST /x" true .exploded] [variableOf "v" .text]]
        (sending [.requestLine "POST /x" true .exploded] [variableOf "v" .text]) = .ok [plan] ∧
      plan.requestOf [.text "1"] = some request ∧ plan.requestOf [.text "2"] = some request' ∧
      (request.url ≠ request'.url ∨ request.headers ≠ request'.headers ∨
        request.body ≠ request'.body) := by
  have hcomputed : ∃ plan,
      Contract.usual.read [] [sending [.requestLine "POST /x" true .exploded] [variableOf "v" .text]]
        (sending [.requestLine "POST /x" true .exploded] [variableOf "v" .text]) = .ok [plan] ∧
      (plan.HasVariableFirst "v" ∧ plan.isFormName "v" = true ∧ plan.template.bodyText = none ∧
        (plan.requestOf [.text "1"]).isSome = true ∧ (plan.requestOf [.text "2"]).isSome = true) :=
    Contract.exists_plan_of_read (by decide +kernel)
  obtain ⟨plan, hread, ⟨hhandled, hmap, hmarked, hexpander, hbound, halone⟩, hform, hbody, hfirst,
    hsecond⟩ := hcomputed
  obtain ⟨parameter, hparameter, hmarked⟩ := Option.map_eq_some_iff.mp hmarked
  obtain ⟨request, hrequest⟩ := Option.isSome_iff_exists.mp hfirst
  obtain ⟨request', hrequest'⟩ := Option.isSome_iff_exists.mp hsecond
  obtain ⟨t, hfill, happly⟩ := requestOf_eq_some hrequest
  obtain ⟨t', hfill', happly'⟩ := requestOf_eq_some hrequest'
  refine ⟨plan, request, request', hread, hrequest, hrequest', ?_⟩
  have halone' : ∀ entry ∈ plan.names, entry.1 ≠ 0 → ∀ name ∈ ["v"], name ∉ entry.2 := by
    intro entry hentry hother name hname
    rw [List.mem_singleton.mp hname]
    exact halone entry hentry hother
  rcases fill_tells_apart hread List.mem_cons_self hhandled hmap hparameter hmarked hexpander hbound
    halone' rfl (by decide) hfill hfill' happly happly' with hapart | ⟨_, _, -, -, hlost⟩
  · exact hapart
  · -- Without a body text nothing takes the place of the form.
    have hsome := (hlost "v" (List.mem_singleton_self _)).form hform
    rw [hbody] at hsome
    cases hsome

/-- Two calls of a method that differ in the text of its first argument make the same request. -/
def MakesOneRequest [Charsets] (api : InterfaceDecl) (name first second : String)
    (others : List Value) : Prop :=
  ∃ plan, Contract.usual.read [] [api] api = .ok [plan] ∧
    (plan.HasVariableFirst name ∧ first ≠ second ∧
      (plan.requestOf (.text first :: others)).isSome = true ∧
      plan.requestOf (.text second :: others) = plan.requestOf (.text first :: others))

/--
At each place where an argument may be lost there is one that is: in a form beside a body text, in
a body text beside a body, at the beginning of a path, in a query parameter that goes away for its
name, in such a name itself, in a value beside such a name, and in the path and the query of an
address of its own.
-/
theorem fill_loses_arguments :
    MakesOneRequest (sending [.requestLine "POST /x" true .exploded, .body "\x7b\x7d"]
      [variableOf "v" .text]) "v" "1" "2" [] ∧
    MakesOneRequest (sending [.requestLine "POST /x" true .exploded, .body "\x7bv\x7d"]
      [variableOf "v" .text, { name := "data", ty := some .text }]) "v" "1" "2" [.text "data"] ∧
    MakesOneRequest (sending [.requestLine "GET \x7bv\x7d" true .exploded] [variableOf "v" .text])
      "v" "/x" "http://api.test/x" [] ∧
    MakesOneRequest (sending [.requestLine "GET /x?\x7bk\x7d=\x7bv\x7d" true .exploded]
      [variableOf "v" .text]) "v" "1" "2" [] ∧
    MakesOneRequest (sending [.requestLine "GET /x?1&\x7bv\x7d&2" true .exploded]
      [variableOf "v" .text]) "v" "1" "2" [] ∧
    MakesOneRequest (sending
        [.requestLine "GET /x?\x7bk\x7d&\x7bi\x7d\x7bv\x7d&q=1\x7bv\x7d&\x7bj\x7d\x7bv\x7d&\x7bl\x7d"
          true .exploded]
        [variableOf "v" .text, variableOf "k" .text, variableOf "i" .text, variableOf "j" .text,
          variableOf "l" .text]) "v" "1" "11"
      [.text "q=1111", .text "q=11", .text "q=", .text "q=1"] ∧
    MakesOneRequest (sending [.requestLine "GET /\x7bv\x7d?/http://h/http://h%3F=1" true .exploded]
      [variableOf "v" .url]) "v" "http://h?/http://h/http://h%3F" "http://h/http://h%3F" [] ∧
    MakesOneRequest (sending [.requestLine "GET /x?\x7bk\x7d=1&q=\x7bv\x7d" true .exploded]
      [variableOf "v" .url, variableOf "k" .text, variableOf "second" .text,
        variableOf "first" .text]) "v" "http://h?q=\x7bsecond\x7d" "http://h?\x7bk\x7d=\x7bfirst\x7d"
      [.text "q", .text "http://h?\x7bk\x7d=\x7bfirst\x7d", .text "http://h?q=\x7bsecond\x7d"] := by
  refine ⟨?_, ?_, ?_, ?_, ?_, ?_, ?_, ?_⟩
  · exact Contract.exists_plan_of_read (by decide +kernel)
  · exact Contract.exists_plan_of_read (by decide +kernel)
  · exact Contract.exists_plan_of_read (by decide +kernel)
  · exact Contract.exists_plan_of_read (by decide +kernel)
  · exact Contract.exists_plan_of_read (by decide +kernel)
  · exact Contract.exists_plan_of_read (by decide +kernel)
  · exact Contract.exists_plan_of_read (by decide +kernel)
  · exact Contract.exists_plan_of_read (by decide +kernel)

end HttpBinding.Plan
