import HttpBinding.Client.Basic
import HttpBinding.Client.Builder

/-!
# Putting clients together

To build a client, the contract reads its interface into plans, and every method
gets what carries it out: one that is ignored is refused, one with a body of its
own runs it, and every other one sends requests by its plan. The table of a
client has an entry for each public method of the interface.
-/

namespace HttpBinding.Builder

/-- What carries out the method of a plan. -/
def routeOf (parts : Parts) (target : Target) (plan : Plan) : Route :=
  if plan.ignored then .refuses plan.key
  else
    .sends
      { parts.settings with
        target := target, plan := plan, encoder := parts.encoder
        queryMapEncoder := parts.queryMapEncoder, options := parts.options
        decoder := parts.decoder, errorDecoder := parts.errorDecoder }

/-- What carries out the methods of plans, by their keys. -/
def routes (parts : Parts) (target : Target) (plans : List Plan) : Entries String Route :=
  plans.map fun plan => (plan.key, routeOf parts target plan)

/-- The key of a method of an interface. -/
def keyOf (ds : Declarations) (api : String) (m : MethodDecl) : Option String :=
  (m.hints? ds).map fun (hints, _) => m.keyOf api hints

/-- What carries out a method: its own body, or what its key stands for. -/
def entryOf (ds : Declarations) (api : String) (routes : Entries String Route) (m : MethodDecl) :
    Except Fault Entry :=
  if m.isDefault then .ok ⟨m, .runs m⟩
  else
    match (keyOf ds api m).bind fun key => routes.lookup key with
    | some route => .ok ⟨m, route⟩
    | none => .error (.runtime "KeyError")

/-- The table of a client. -/
def tableOf (ds : Declarations) (api : String) (routes : Entries String Route)
    (methods : Entries String MethodDecl) : Except Fault (Entries String Entry) :=
  methods.mapM fun (name, m) => (entryOf ds api routes m).map fun entry => (name, entry)

/-- Refuses an interface that insists on an abstract member which is no method of the client. -/
def checkAbstract (interfaces : Interfaces) (api : String) (table : Entries String Entry) :
    Except Fault Unit :=
  let names := (interfaces.abstractNames.lookup api).getD []
  if names.all fun name => (table.lookup name).isSome then .ok ()
  else .error (.runtime "TypeError")

/-- The logger of what happens while an interface is read. -/
def contractLogger : String :=
  "reqline.contract.contract"

/-- The logger of what happens while a client is put together. -/
def dispatchLogger : String :=
  "reqline.client.dispatch"

/-- The plans of an interface, and how many there are. -/
def read (parts : Parts) (ds : Declarations) (interfaces : Interfaces) (api : InterfaceDecl) :
    Traced (List Plan) := do
  let plans ← Traced.lift ((parts.contract.read ds interfaces api).mapError BuildFault.toFault)
  Traced.note [.logged contractLogger
    ("Parsed " ++ Number.natText plans.length ++ " methods of " ++ api.name)]
  return plans

/-- The lines about plans with warnings. -/
def warningLines (plans : List Plan) : List Event :=
  (plans.filter fun plan => !plan.warnings.isEmpty).map fun plan =>
    .logged dispatchLogger (plan.key ++ ":" ++ plan.warningText)

/-- A client for a target, whose interface is declared together with others. -/
def build (b : Builder) (clock : Clock) (ds : Declarations) (interfaces : Interfaces)
    (target : Target) : Traced Client := do
  let parts ← b.parts clock
  match interfaces.find? target.api with
  | none => Traced.fail (.runtime "KeyError")
  | some api => do
    let plans ← read parts ds interfaces api
    Traced.note (warningLines plans)
    let table ← Traced.lift
      (tableOf ds api.name (routes parts target plans) (interfaces.methods api.name))
    Traced.lift (checkAbstract interfaces api.name table)
    Traced.note [.logged dispatchLogger
      ("Created " ++ Client.className api.name ++ " for " ++ target.describe ++ " with "
        ++ Number.natText table.length ++ " methods")]
    return ⟨target, table, interfaces.members api.name⟩

end HttpBinding.Builder
