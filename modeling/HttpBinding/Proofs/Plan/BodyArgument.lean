import HttpBinding.Octets.Charset
import HttpBinding.Proofs.Exchange.Fetching
import HttpBinding.Proofs.Plan.Apart

/-!
# What becomes of an argument that is the body

Text and octets are sent as they are, and values of other kinds are refused, except where octets
are declared: there octets are made of whatever can be made into some, and only the rest is
refused. Null is no body, and it is refused before an encoder sees it. What a call does besides
is the same for all octets that it sends.
-/

namespace HttpBinding

/-- The octets that a value is sent as: its text in UTF-8, or the octets that it is. -/
def Value.sentOctets? : Value → Option Octets
  | .text s => some (Utf8.encode s.toList)
  | .octets o => some o
  | .octetBuffer o => some o
  | _ => none

/-! ## Encoders -/

namespace Encoder

/-- An encoder that writes the same octets for every value. -/
def writing (octets : Octets) : Encoder where
  name := "FixedEncoder"
  encode _ _ t := (t.setBody (some octets), none)

variable {value : Value} {declared : Ty} {t : Template} {octets : Octets}

theorem encodeUsual_of_sent [Charsets] (hform : declared.isForm = false)
    (htext : declared.isText = false)
    (hcharset : t.charset = "utf-8") (hsent : value.sentOctets? = some octets) :
    encodeUsual value declared t = (t.setBody (some octets), none) := by
  unfold encodeUsual
  rw [hform, htext, if_neg Bool.false_ne_true, Bool.false_or]
  cases value with
  | text s =>
      obtain rfl := Option.some.inj hsent
      rw [isText, if_pos rfl, Template.setBodyText, hcharset, Value.plainText, encodeText_utf8]
  | octets o =>
      obtain rfl := Option.some.inj hsent
      rw [show isText (.octets o) = false from rfl, if_neg Bool.false_ne_true, isOctets,
        Bool.or_true, if_pos rfl]
      rfl
  | octetBuffer o =>
      obtain rfl := Option.some.inj hsent
      rw [show isText (.octetBuffer o) = false from rfl, if_neg Bool.false_ne_true, isOctets,
        Bool.or_true, if_pos rfl]
      rfl
  | _ => cases hsent

theorem encodeUsual_of_unsent [Charsets] (hform : declared.isForm = false)
    (htext : declared.isText = false)
    (hoctets : declared.isOctets = false) (hnull : value.isNull = false)
    (hunsent : value.sentOctets? = none) :
    encodeUsual value declared t =
      (t, some (.encode (value.typeName ++ " is not a type supported by this encoder."))) := by
  have hkinds : isText value = false ∧ isOctets value = false := by
    cases value <;> first | exact ⟨rfl, rfl⟩ | cases hunsent
  unfold encodeUsual
  simp only [hform, htext, hoctets, hnull, hkinds, Bool.or_self, Bool.false_eq_true, if_false]

theorem encodeUsual_of_unmade [Charsets] {fault : Fault} (hform : declared.isForm = false)
    (htext : declared.isText = false) (hoctets : declared.isOctets = true)
    (hunsent : value.sentOctets? = none) (hunmade : octetsOf value = .error fault) :
    encodeUsual value declared t = (t, some fault) := by
  have hkind : isText value = false := by
    cases value <;> first | rfl | cases hunsent
  unfold encodeUsual
  simp only [hform, htext, hoctets, hkind, hunmade, Bool.or_self, Bool.true_or, Bool.false_eq_true,
    if_false, if_true]

theorem zeroOctets_fails {n : Int} {fault : Fault} (hunmade : zeroOctets n = .error fault) :
    fault.family ≠ .encode ∧ fault.family.isError = true := by
  unfold zeroOctets at hunmade
  split at hunmade
  · obtain rfl := Except.error.inj hunmade
    decide
  split at hunmade
  · obtain rfl := Except.error.inj hunmade
    decide
  split at hunmade
  · obtain rfl := Except.error.inj hunmade
    decide
  · cases hunmade

theorem octetOf_fails {fault : Fault} (hunmade : octetOf value = .error fault) :
    fault.family ≠ .encode ∧ fault.family.isError = true := by
  unfold octetOf at hunmade
  split at hunmade
  · split at hunmade
    · cases hunmade
    · obtain rfl := Except.error.inj hunmade
      decide
  · cases hunmade
  · obtain rfl := Except.error.inj hunmade
    decide

/-- It is an error of the run-time system if no octets can be made of a value. -/
theorem octetsOf_fails {fault : Fault} (hunmade : octetsOf value = .error fault) :
    fault.family ≠ .encode ∧ fault.family.isError = true := by
  unfold octetsOf at hunmade
  split at hunmade
  next => cases hunmade
  next => cases hunmade
  next => exact zeroOctets_fails hunmade
  next => exact zeroOctets_fails hunmade
  next =>
    obtain rfl := Except.error.inj hunmade
    decide
  next =>
    split at hunmade
    next =>
      obtain ⟨item, -, hitem⟩ := exists_of_mapM_eq_error hunmade
      exact octetOf_fails hitem
    next =>
      obtain rfl := Except.error.inj hunmade
      decide

end Encoder

/-! ## Templates with another body -/

namespace Template

/-- The template with other octets for its body. -/
def withBody (t : Template) (octets : Octets) : Template :=
  { t with body := some octets }

variable {t : Template} {bindings : Bindings} {octets : Octets}

theorem resolve_withBody [Charsets] (hnone : t.bodyText = none) :
    (t.withBody octets).resolve bindings =
      ((t.resolve bindings).1.withBody octets, (t.resolve bindings).2) := by
  have hqueries : ∀ path, ({ t with path := path, body := some octets } : Template).resolveQueries
      bindings = ({ t with path := path } : Template).resolveQueries bindings := by
    intro path
    unfold resolveQueries
    exact resolveQueriesFrom_congr (by rfl) [] t.queries
  cases hpath : fill bindings (Percent.encodePath t.decodeSlash) t.path with
  | error fault => simp only [resolve, withBody, hpath]
  | ok path =>
      cases hfilled : ({ t with path := path } : Template).resolveQueries bindings with
      | error fault => simp only [resolve, withBody, hpath, hqueries, hfilled]
      | ok queries =>
          cases hheaders : resolveHeaders bindings t.headers with
          | error fault => simp only [resolve, withBody, hpath, hqueries, hfilled, hheaders]
          | ok headers =>
              simp only [resolve, withBody, hpath, hqueries, hfilled, hheaders]
              rw [hnone]

theorem query_withBody (name : String) (values : List (Option String)) :
    (t.withBody octets).query name values = (t.query name values).withBody octets := rfl

theorem addQueryMap_withBody (encoded : Bool) (entries : ValueEntries) :
    (t.withBody octets).addQueryMap encoded entries =
      (t.addQueryMap encoded entries).withBody octets := by
  unfold addQueryMap
  induction entries generalizing t with
  | nil => rfl
  | cons entry rest ih =>
      rw [List.foldl_cons, List.foldl_cons, query_withBody, ih]

theorem addHeader_withBody (name : String) (values : List String) :
    (t.withBody octets).addHeader name values = (t.addHeader name values).withBody octets := by
  unfold addHeader
  split
  · rfl
  · rw [show (t.withBody octets).headers = t.headers from rfl]
    cases headerKey? t.headers name <;> rfl

theorem addHeaderEntry_withBody (key value : Value) :
    (t.withBody octets).addHeaderEntry key value =
      (t.addHeaderEntry key value).map (withBody · octets) := by
  unfold addHeaderEntry
  split
  · rfl
  · rw [addHeader_withBody]
    rfl
  · rfl

theorem addHeaderMap_withBody (entries : ValueEntries) :
    (t.withBody octets).addHeaderMap entries = (t.addHeaderMap entries).map (withBody · octets) := by
  unfold addHeaderMap
  induction entries generalizing t with
  | nil => rfl
  | cons entry rest ih =>
      rw [List.foldlM_cons, List.foldlM_cons, addHeaderEntry_withBody]
      exact map_bind_eq_map fun between => ih

theorem request_withBody :
    (t.withBody octets).request = t.request.map fun r => { r with body := some octets } := by
  have hurl : (t.withBody octets).url = t.url := rfl
  unfold request
  rw [hurl, show (t.withBody octets).resolved = t.resolved from rfl,
    show (t.withBody octets).method = t.method from rfl]
  cases t.resolved with
  | false => rfl
  | true => cases t.method <;> rfl

end Template

theorem Target.apply_withBody (target : Target) (t : Template) (octets : Octets) :
    (target.apply (t.withBody octets)).2 =
      (target.apply t).2.map fun r => { r with body := some octets } := by
  cases target with
  | fixed api url name =>
      have hother : ∀ u : Template, (u.withBody octets).request =
          u.request.map fun r => { r with body := some octets } :=
        fun _ => Template.request_withBody
      unfold apply
      dsimp only
      rw [show (t.withBody octets).base = t.base from rfl]
      split
      · exact hother t
      · exact hother (t.target url)
  | empty api name =>
      unfold apply
      dsimp only
      rw [show (t.withBody octets).base = t.base from rfl,
        show (t.withBody octets).path = t.path from rfl]
      split
      · exact Template.request_withBody
      · rfl

/-! ## Calls -/

namespace Contract

variable {ds : Declarations} {interfaces : Interfaces} {api : InterfaceDecl} {plans : List Plan}
  {plan : Plan} {position : Nat}

theorem strategy_of_mem_read [Charsets] (hread : usual.read ds interfaces api = .ok plans)
    (hplan : plan ∈ plans) (hhandled : plan.ignored = false)
    (hindex : plan.bodyIndex = .int position) : plan.strategy = .body := by
  obtain ⟨method, hplanOf⟩ := planOf_of_mem_read hread hplan
  have hbody : plan.hasBody = true := by
    rw [Plan.hasBody, hindex]
    rfl
  rw [Plan.strategy, formNames_planOf hplanOf hhandled hbody, hbody]
  rfl

/-- A method with a body takes it from one of its arguments. -/
theorem exists_hasRole_body [Charsets] (hread : usual.read ds interfaces api = .ok plans)
    (hplan : plan ∈ plans) (hhandled : plan.ignored = false) (hbody : plan.hasBody = true) :
    ∃ position < plan.method.parameters.length, plan.HasRole position .body := by
  obtain ⟨method, hplanOf⟩ := planOf_of_mem_read hread hplan
  obtain ⟨hints, returns, -, hmethod, hrecords⟩ := records_planOf hplanOf hhandled
  rcases hrecords.body with hnull | ⟨position, hlt, hindex⟩
  · rw [Plan.hasBody, hnull] at hbody
    cases hbody
  · rw [List.length_zip, ← hmethod] at hlt
    exact ⟨position, (Nat.lt_min.mp hlt).1, hindex⟩

end Contract

namespace Plan

/-- How an argument at a position that is not sent is refused: null by the call, the rest by the encoder. -/
def refusalOf (position : Nat) (value : Value) : Fault :=
  if value.isNull then
    .foreign "ValueError" ("Body parameter " ++ (Value.int position).plainText ++ " was null")
  else .encode (value.typeName ++ " is not a type supported by this encoder.")

/-- How an argument that is declared as octets is refused if none can be made of it. -/
def unmadeRefusal (plan : Plan) (fault : Fault) : Fault :=
  (Fault.encode ("Failed to encode body of " ++ plan.key ++ ": " ++ fault.wording)).raisedFrom fault

variable {plan : Plan} {encoder : Encoder} {queryMapEncoder : QueryMapEncoder}
  {arguments : List Value} {bindings : Bindings} {t addressed : Template} {octets : Octets}
  {position : Nat} {value : Value}

theorem resolveWith_withBody [Charsets] (hnone : t.bodyText = none) :
    resolveWith bindings (t.withBody octets) =
      (resolveWith bindings t).map (Template.withBody · octets) := by
  unfold resolveWith
  rw [Template.resolve_withBody hnone]
  rcases t.resolve bindings with ⟨resolved, none | fault⟩ <;> rfl

theorem addQueryMap_withBody :
    plan.addQueryMap queryMapEncoder arguments (t.withBody octets) =
      (plan.addQueryMap queryMapEncoder arguments t).map (Template.withBody · octets) := by
  unfold addQueryMap
  cases plan.queryMapIndex with
  | none => rfl
  | some index =>
      refine bind_eq_map fun value => bind_eq_map fun entries => ?_
      exact congrArg Except.ok (Template.addQueryMap_withBody _ entries)

theorem addHeaderMap_withBody :
    plan.addHeaderMap arguments (t.withBody octets) =
      (plan.addHeaderMap arguments t).map (Template.withBody · octets) := by
  unfold addHeaderMap
  cases plan.headerMapIndex with
  | none => rfl
  | some index =>
      refine bind_eq_map fun value => ?_
      cases value.isNull with
      | true => rfl
      | false => exact bind_eq_map fun entries => Template.addHeaderMap_withBody entries

/-- What is left to do once the body is set does not depend on its octets. -/
theorem finish_withBody [Charsets] (hnone : t.bodyText = none) :
    (resolveWith bindings (t.withBody octets) >>= fun t =>
        plan.addQueryMap queryMapEncoder arguments t >>= plan.addHeaderMap arguments) =
      (resolveWith bindings t >>= fun t =>
        plan.addQueryMap queryMapEncoder arguments t >>= plan.addHeaderMap arguments).map
          (Template.withBody · octets) := by
  rw [resolveWith_withBody hnone]
  refine map_bind_eq_map fun resolved => ?_
  rw [addQueryMap_withBody]
  exact map_bind_eq_map fun mapped => addHeaderMap_withBody

theorem setBody_eq (hstrategy : plan.strategy = .body) (hindex : plan.bodyIndex = .int position)
    (hargument : arguments[position]? = some value) :
    plan.setBody encoder arguments bindings t =
      if value.isNull then
        .error (.foreign "ValueError"
          ("Body parameter " ++ (Value.int position).plainText ++ " was null"))
      else encodeBody encoder ("body of " ++ plan.key) value (plan.bodyType.getD .null) t := by
  unfold setBody required
  rw [hstrategy]
  dsimp only
  rw [hindex, argumentAt_natCast, argument, hargument]
  change (if value.isNull then _ else _) >>= _ = _
  cases value.isNull <;> rfl

/-- The charset of a template is that of the plan when the body is set. -/
theorem charset_of_setAddress (hset : plan.setAddress arguments t = .ok addressed) :
    addressed.charset = t.charset := by
  rw [setAddress_kept hset]

/-- A call with a body that is sent does what it does with any octets. -/
theorem fill_of_sent [Charsets] (hstrategy : plan.strategy = .body)
    (hindex : plan.bodyIndex = .int position) (hcharset : plan.template.charset = "utf-8")
    (hform : (plan.bodyType.getD .null).isForm = false)
    (htext : (plan.bodyType.getD .null).isText = false)
    (hargument : arguments[position]? = some value) (hsent : value.sentOctets? = some octets) :
    plan.fill .usual queryMapEncoder arguments =
      (plan.fill (.writing []) queryMapEncoder arguments).map (Template.withBody · octets) := by
  have hnull : value.isNull = false := by
    cases value <;> first | rfl | cases hsent
  unfold fill
  cases haddress : plan.setAddress arguments plan.template with
  | error fault => rfl
  | ok addressed =>
      change (plan.bindings arguments >>= _) = Except.map _ (plan.bindings arguments >>= _)
      refine bind_eq_map fun bindings => ?_
      have hencode := Encoder.encodeUsual_of_sent hform htext
        ((charset_of_setAddress haddress).trans hcharset) hsent
      rw [setBody_eq hstrategy hindex hargument, setBody_eq hstrategy hindex hargument, hnull,
        if_neg Bool.false_ne_true, if_neg Bool.false_ne_true, encodeBody]
      rw [show Encoder.usual.encode value (plan.bodyType.getD .null) addressed = _ from hencode]
      exact finish_withBody (t := addressed.setBody (some [])) rfl

/-- A call whose body is null, or is refused by its encoder, fails there. -/
theorem fill_of_failed [Charsets] {fault : Fault}
    (haddress : plan.setAddress arguments plan.template = .ok addressed)
    (hbindings : plan.bindings arguments = .ok bindings)
    (hfailed : plan.setBody encoder arguments bindings addressed = .error fault) :
    plan.fill encoder queryMapEncoder arguments = .error fault := by
  unfold fill
  rw [haddress]
  change (plan.bindings arguments >>= _) = _
  rw [hbindings]
  change (plan.setBody encoder arguments bindings addressed >>= _) = _
  rw [hfailed]
  rfl

theorem setBody_of_unsent [Charsets] (hstrategy : plan.strategy = .body)
    (hindex : plan.bodyIndex = .int position) (hform : (plan.bodyType.getD .null).isForm = false)
    (htext : (plan.bodyType.getD .null).isText = false)
    (hoctets : value.isNull = true ∨ (plan.bodyType.getD .null).isOctets = false)
    (hargument : arguments[position]? = some value) (hunsent : value.sentOctets? = none) :
    plan.setBody .usual arguments bindings t = .error (refusalOf position value) := by
  rw [setBody_eq hstrategy hindex hargument, refusalOf]
  cases hnull : value.isNull with
  | true => rfl
  | false =>
      have hother : (plan.bodyType.getD .null).isOctets = false :=
        hoctets.resolve_left (by rw [hnull]; exact Bool.false_ne_true)
      have hrefused : Encoder.usual.encode value (plan.bodyType.getD .null) t =
          (t, some (.encode (value.typeName ++ " is not a type supported by this encoder."))) :=
        Encoder.encodeUsual_of_unsent hform htext hother hnull hunsent
      rw [if_neg Bool.false_ne_true, if_neg Bool.false_ne_true, encodeBody, hrefused]
      rfl

theorem setBody_of_unmade [Charsets] {fault : Fault} (hstrategy : plan.strategy = .body)
    (hindex : plan.bodyIndex = .int position) (hform : (plan.bodyType.getD .null).isForm = false)
    (htext : (plan.bodyType.getD .null).isText = false)
    (hoctets : (plan.bodyType.getD .null).isOctets = true) (hnull : value.isNull = false)
    (hargument : arguments[position]? = some value) (hunsent : value.sentOctets? = none)
    (hunmade : Encoder.octetsOf value = .error fault) :
    plan.setBody .usual arguments bindings t = .error (plan.unmadeRefusal fault) := by
  have hfailed : Encoder.usual.encode value (plan.bodyType.getD .null) t = (t, some fault) :=
    Encoder.encodeUsual_of_unmade hform htext hoctets hunsent hunmade
  obtain ⟨hother, herror⟩ := Encoder.octetsOf_fails hunmade
  have hwrapped : encodeFault ("body of " ++ plan.key) fault = plan.unmadeRefusal fault := by
    have hwording : "Failed to encode " ++ ("body of " ++ plan.key) =
        "Failed to encode body of " ++ plan.key := by
      rw [← String.append_assoc]
      rfl
    rw [encodeFault, herror, Bool.not_true, Bool.or_false, decide_eq_false hother,
      if_neg Bool.false_ne_true, hwording]
    rfl
  rw [setBody_eq hstrategy hindex hargument, hnull, if_neg Bool.false_ne_true, encodeBody, hfailed]
  exact congrArg Except.error hwrapped

end Plan

/-! ## Requests -/

namespace Handler

variable {h : Handler} {arguments : List Value} {octets : Octets} {position : Nat} {value : Value}
  {ds : Declarations} {interfaces : Interfaces} {api : InterfaceDecl} {plans : List Plan}

/-- The handler with another encoder. -/
def withEncoder (h : Handler) (encoder : Encoder) : Handler :=
  { h with encoder := encoder }

theorem prepare_of_failed [Charsets] {fault : Fault}
    (hfailed : h.plan.fill h.encoder h.queryMapEncoder arguments = .error fault) :
    h.prepare arguments = .error fault := by
  unfold prepare
  rw [hfailed]
  rfl

/-- A call whose body cannot be set makes no request, and it fails there if nothing before it does. -/
theorem prepare_of_refused [Charsets] {fault : Fault}
    (hrefused : ∀ bindings t, h.plan.setBody h.encoder arguments bindings t = .error fault) :
    (∀ prepared, h.prepare arguments ≠ .ok prepared) ∧
      ∀ addressed bindings, h.plan.setAddress arguments h.plan.template = .ok addressed →
        h.plan.bindings arguments = .ok bindings → h.prepare arguments = .error fault := by
  refine ⟨?_, ?_⟩
  · intro prepared hprepared
    obtain ⟨t, hfill, -⟩ := bind_eq_ok.mp hprepared
    obtain ⟨addressed, -, hfill⟩ := bind_eq_ok.mp hfill
    obtain ⟨bindings, -, hfill⟩ := bind_eq_ok.mp hfill
    obtain ⟨written, hwritten, -⟩ := bind_eq_ok.mp hfill
    rw [hrefused] at hwritten
    cases hwritten
  · intro addressed bindings haddress hbindings
    exact prepare_of_failed (Plan.fill_of_failed haddress hbindings (hrefused bindings addressed))

/-- Without interceptors nothing looks at a body between the filling and the request. -/
theorem prepare_of_fill_eq_map [Charsets] {other : Encoder} (hinterceptors : h.interceptors = [])
    (hfill : h.plan.fill h.encoder h.queryMapEncoder arguments =
      (h.plan.fill other h.queryMapEncoder arguments).map (Template.withBody · octets)) :
    h.prepare arguments =
      ((h.withEncoder other).prepare arguments).map fun prepared =>
        ({ prepared.1 with body := some octets }, prepared.2) := by
  have hintercept : ∀ t, h.intercept t = .ok t := by
    intro t
    unfold intercept
    rw [hinterceptors]
    rfl
  have hintercept' : ∀ t, (h.withEncoder other).intercept t = .ok t := hintercept
  unfold prepare
  rw [hfill]
  refine map_bind_eq_map fun t => ?_
  rw [hintercept, hintercept']
  change ((h.target.apply (t.withBody octets)).2 >>= _) = Except.map _ ((h.target.apply t).2 >>= _)
  rw [Target.apply_withBody]
  exact map_bind_eq_map fun request => bind_eq_map fun options => rfl

/--
An argument that is the body of a call is sent as it is if it is text or octets, so that the call
goes as one that sends nothing else, whatever the octets. Null and, unless octets are declared, any
other value makes no request, and it is refused if nothing before it is. Where octets are declared,
the same holds of a value that none can be made of.
-/
theorem prepare_sends_or_refuses [Charsets]
    (hread : Contract.usual.read ds interfaces api = .ok plans)
    (hplan : h.plan ∈ plans) (hhandled : h.plan.ignored = false)
    (hrole : h.plan.HasRole position .body) (hencoder : h.encoder = .usual)
    (hform : (h.plan.bodyType.getD .null).isForm = false)
    (htext : (h.plan.bodyType.getD .null).isText = false)
    (hargument : arguments[position]? = some value) :
    (∀ octets, value.sentOctets? = some octets →
      h.plan.fill h.encoder h.queryMapEncoder arguments =
          (h.plan.fill (.writing []) h.queryMapEncoder arguments).map (Template.withBody · octets) ∧
        (h.interceptors = [] → h.prepare arguments =
          ((h.withEncoder (.writing [])).prepare arguments).map fun prepared =>
            ({ prepared.1 with body := some octets }, prepared.2))) ∧
    (value.sentOctets? = none →
      value.isNull = true ∨ (h.plan.bodyType.getD .null).isOctets = false →
        (∀ prepared, h.prepare arguments ≠ .ok prepared) ∧
        ∀ addressed bindings, h.plan.setAddress arguments h.plan.template = .ok addressed →
          h.plan.bindings arguments = .ok bindings →
          h.prepare arguments = .error (Plan.refusalOf position value)) ∧
    (value.sentOctets? = none → value.isNull = false →
      (h.plan.bodyType.getD .null).isOctets = true →
        ∀ fault, Encoder.octetsOf value = .error fault →
          (∀ prepared, h.prepare arguments ≠ .ok prepared) ∧
          ∀ addressed bindings, h.plan.setAddress arguments h.plan.template = .ok addressed →
            h.plan.bindings arguments = .ok bindings →
            h.prepare arguments = .error (h.plan.unmadeRefusal fault)) := by
  have hstrategy := Contract.strategy_of_mem_read hread hplan hhandled hrole
  have hready := Contract.isReady_of_mem_read hread hplan hhandled
  refine ⟨fun octets hsent => ?_, fun hunsent hoctets => prepare_of_refused fun bindings t => ?_,
    fun hunsent hnull hoctets fault hunmade => prepare_of_refused fun bindings t => ?_⟩
  · have hfill : h.plan.fill h.encoder h.queryMapEncoder arguments =
        (h.plan.fill (.writing []) h.queryMapEncoder arguments).map
          (Template.withBody · octets) := by
      rw [hencoder]
      exact Plan.fill_of_sent hstrategy hrole hready.template.charset hform htext hargument hsent
    exact ⟨hfill, fun hinterceptors => prepare_of_fill_eq_map hinterceptors hfill⟩
  · rw [hencoder]
    exact Plan.setBody_of_unsent hstrategy hrole hform htext hoctets hargument hunsent
  · rw [hencoder]
    exact Plan.setBody_of_unmade hstrategy hrole hform htext hoctets hnull hargument hunsent
      hunmade

/-! ## A method that sends its only argument -/

def sendingOne (ty : Ty) : InterfaceDecl :=
  Plan.sending [.requestLine "POST /x" true .exploded] [{ name := "data", ty := some ty }]

/-- The handler of a plan, of a client that changes nothing on the way. -/
def sender [Charsets] (plan : Plan) : Handler :=
  { fetching (plainSettings .none) .null with plan := plan }

/-- What a plan is like that sends its only argument, which is not declared as text. -/
def SendsOne (plan : Plan) : Prop :=
  plan.ignored = false ∧ plan.hasBody = true ∧ plan.method.parameters.length = 1 ∧
    (plan.bodyType.getD .null).isForm = false ∧ (plan.bodyType.getD .null).isText = false ∧
    plan.urlIndex = none ∧ plan.names = []

instance (plan : Plan) : Decidable (SendsOne plan) :=
  inferInstanceAs (Decidable (_ ∧ _ ∧ _ ∧ _ ∧ _ ∧ _ ∧ _))

theorem SendsOne.hasRole [Charsets] {plan : Plan} (hone : SendsOne plan)
    (hread : Contract.usual.read ds interfaces api = .ok [plan]) : plan.HasRole 0 .body := by
  obtain ⟨position, hlt, hrole⟩ :=
    Contract.exists_hasRole_body hread List.mem_cons_self hone.1 hone.2.1
  obtain rfl : position = 0 := by
    have hlength := hone.2.2.1
    omega
  exact hrole

/-- There is nothing to be done for such a plan before its argument is looked at. -/
theorem SendsOne.starts {plan : Plan} (hone : SendsOne plan) (arguments : List Value) :
    plan.setAddress arguments plan.template = .ok plan.template ∧
      plan.bindings arguments = .ok [] := by
  obtain ⟨-, -, -, -, -, haddress, hnames⟩ := hone
  refine ⟨by rw [Plan.setAddress, haddress], ?_⟩
  rw [Plan.bindings, hnames]
  rfl

open scoped CommonCharsets

/--
A buffer of octets is sent and a number is refused where anything may be given, and a number
that is no octet is refused where octets are declared.
-/
theorem prepare_sends_or_refuses_ofBuffer :
    (∃ plan, Contract.usual.read [] [sendingOne .any] (sendingOne .any) = .ok [plan] ∧
      ((sender plan).prepare [.octetBuffer [1, 2]]).toOption.map Prod.fst =
        some { method := .post, url := "http://api.test/x", body := some [1, 2] } ∧
      (sender plan).prepare [.int 5] =
        .error (.encode "int is not a type supported by this encoder.")) ∧
    ∃ plan, Contract.usual.read [] [sendingOne .octets] (sendingOne .octets) = .ok [plan] ∧
      (sender plan).prepare [.list [.int 256]] =
        .error (plan.unmadeRefusal (.runtime "ValueError")) := by
  have hany : ∃ plan, Contract.usual.read [] [sendingOne .any] (sendingOne .any) = .ok [plan] ∧
      (SendsOne plan ∧ (plan.bodyType.getD .null).isOctets = false ∧
        (((sender plan).withEncoder (.writing [])).prepare [.octetBuffer [1, 2]]).toOption.map
          Prod.fst = some { method := .post, url := "http://api.test/x", body := some [] }) :=
    Contract.exists_plan_of_read (by decide +kernel)
  have hdeclared : ∃ plan,
      Contract.usual.read [] [sendingOne .octets] (sendingOne .octets) = .ok [plan] ∧
        (SendsOne plan ∧ (plan.bodyType.getD .null).isOctets = true) :=
    Contract.exists_plan_of_read (by decide +kernel)
  constructor
  · obtain ⟨plan, hread, hone, hoctets, hwriting⟩ := hany
    have hrole := hone.hasRole hread
    obtain ⟨haddress, hbindings⟩ := hone.starts [.int 5]
    obtain ⟨hhandled, -, -, hform, htext, -, -⟩ := hone
    have hsends : (sender plan).prepare [.octetBuffer [1, 2]] =
        (((sender plan).withEncoder (.writing [])).prepare [.octetBuffer [1, 2]]).map
          fun prepared => ({ prepared.1 with body := some [1, 2] }, prepared.2) :=
      ((prepare_sends_or_refuses (h := sender plan) hread List.mem_cons_self hhandled hrole rfl hform
        htext rfl).1 [1, 2] rfl).2 rfl
    obtain ⟨prepared, hprepared, hrequest⟩ := Option.map_eq_some_iff.mp hwriting
    rw [toOption_eq_some.mp hprepared] at hsends
    refine ⟨plan, hread, ?_, ?_⟩
    · rw [hsends]
      change some { prepared.1 with body := some [1, 2] } = _
      rw [hrequest]
    · exact ((prepare_sends_or_refuses (h := sender plan) hread List.mem_cons_self hhandled hrole
        rfl hform htext rfl).2.1 rfl (Or.inr hoctets)).2 _ _ haddress hbindings
  · obtain ⟨plan, hread, hone, hoctets⟩ := hdeclared
    have hrole := hone.hasRole hread
    obtain ⟨haddress, hbindings⟩ := hone.starts [.list [.int 256]]
    obtain ⟨hhandled, -, -, hform, htext, -, -⟩ := hone
    exact ⟨plan, hread, ((prepare_sends_or_refuses (h := sender plan) hread List.mem_cons_self
      hhandled hrole rfl hform htext rfl).2.2 rfl rfl hoctets (.runtime "ValueError") rfl).2 _ _
        haddress hbindings⟩

/-- Null is refused by the call, not by the encoder, and a number is sent where octets are declared. -/
theorem prepare_refuses_null : ∃ plan,
    Contract.usual.read [] [sendingOne .octets] (sendingOne .octets) = .ok [plan] ∧
      (plan.bodyType.getD .null).isForm = false ∧ (plan.bodyType.getD .null).isText = false ∧
      (sender plan).prepare [.null] = .error (.foreign "ValueError" "Body parameter 0 was null") ∧
      ((sender plan).prepare [.int 2]).toOption.map (fun prepared => prepared.1.body) =
        some (some [0, 0]) := by
  have hcomputed : ∃ plan,
      Contract.usual.read [] [sendingOne .octets] (sendingOne .octets) = .ok [plan] ∧
        (SendsOne plan ∧ ((sender plan).prepare [.int 2]).toOption.map
          (fun prepared => prepared.1.body) = some (some [0, 0])) :=
    Contract.exists_plan_of_read (by decide +kernel)
  obtain ⟨plan, hread, hone, hzeros⟩ := hcomputed
  have hrole := hone.hasRole hread
  obtain ⟨haddress, hbindings⟩ := hone.starts [.null]
  obtain ⟨hhandled, -, -, hform, htext, -, -⟩ := hone
  have hstrategy := Contract.strategy_of_mem_read hread List.mem_cons_self hhandled hrole
  have hfailed : plan.setBody .usual [.null] [] plan.template = .error (Plan.refusalOf 0 .null) :=
    Plan.setBody_of_unsent hstrategy hrole hform htext (Or.inl rfl) rfl rfl
  exact ⟨plan, hread, hform, htext,
    prepare_of_failed (h := sender plan) (Plan.fill_of_failed haddress hbindings hfailed), hzeros⟩

end Handler

end HttpBinding
