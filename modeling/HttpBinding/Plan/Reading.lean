import HttpBinding.Interface.Hints
import HttpBinding.Interface.Members
import HttpBinding.Plan.Contract

/-!
# Reading an interface

A contract reads an interface into one plan for each method that has no body of
its own. The directives of the parent come first, then those of the interface,
then those of the method; then each parameter gets its role. A parameter that
carries no marker the contract knows is the address, the options or the body,
by its type. Two methods with the same key are refused.
-/

namespace HttpBinding.Contract

/-- Lets the directives of an interface change a plan. -/
def readInterface (contract : Contract) : List Directive → Revision
  | [], plan => .ok plan
  | directive :: rest, plan =>
    match contract.onInterface directive with
    | none => readInterface contract rest plan
    | some revise => do
      let plan ← revise plan
      readInterface contract rest plan

/-- The warning about a directive that a contract does not know. -/
def unusedWarning (contract : Contract) (method : String) (directive : Directive) : String :=
  "Method " ++ method ++ " has an annotation " ++ directive.name
    ++ " that is not used by contract " ++ contract.name

/-- Lets the directives of a method change a plan. -/
def readMethod (contract : Contract) : List Directive → Revision
  | [], plan => .ok plan
  | directive :: rest, plan =>
    match contract.onMethod directive with
    | none => readMethod contract rest (plan.warn (unusedWarning contract plan.method.name directive))
    | some revise => do
      let plan ← revise plan
      readMethod contract rest plan

/-- Lets the markers of a parameter change a plan. -/
def readMarkers (contract : Contract) (index : Nat) (parameter : String) : List Marker → Revision
  | [], plan => .ok plan
  | marker :: rest, plan =>
    match contract.onParameter marker with
    | none => readMarkers contract index parameter rest plan
    | some revise => do
      let plan ← revise index parameter plan
      readMarkers contract index parameter rest plan

/-- Whether a contract knows one of the markers of a parameter. -/
def knowsMarker (contract : Contract) (p : ParameterDecl) : Bool :=
  p.markers.any fun marker => (contract.onParameter marker).isSome

/-- Makes a parameter without a role the body. -/
def takeBody (index : Nat) (ty : Ty) : Revision := fun plan =>
  if plan.isTaken index then
    if !plan.formNames.isEmpty && plan.hasBody then
      .error (.bodyBesideForm plan.key plan.warnings)
    else .ok plan
  else if !plan.formNames.isEmpty then .error (.bodyBesideForm plan.key plan.warnings)
  else if plan.hasBody then .error (.manyBodies plan.key plan.warnings)
  else .ok { plan with bodyIndex := .int index, bodyType := some ty }

/-- Gives a parameter that has been read its role by its type. -/
def assignRole (index : Nat) (ty : Ty) (isMarked : Bool) : Revision := fun plan =>
  if ty.unwrapOptional.isUrl then .ok { plan with urlIndex := some index }
  else if ty.unwrapOptional.isOptions then .ok { plan with optionsIndex := some index }
  else if isMarked then .ok plan
  else takeBody index ty plan

/-- Whether a parameter takes any number of arguments. -/
def isVariadic (p : ParameterDecl) : Bool :=
  p.kind == .variadic || p.kind == .variadicKeyword

/-- Reads one parameter with its declared type. -/
def readParameter (contract : Contract) (index : Nat) (p : ParameterDecl) (hint : Ty) : Revision :=
  fun plan =>
    if isVariadic p then .error (.variadicParameter plan.key)
    else do
      let plan ← readMarkers contract index p.name p.markers plan
      let isMarked := knowsMarker contract p
      let plan := if isMarked then plan.skip (.int index) else plan
      assignRole index (ParameterDecl.splitRemarks hint) isMarked plan

/-- Reads parameters with their declared types, the first at the given position. -/
def readParameters (contract : Contract) (index : Nat) : List (ParameterDecl × Ty) → Revision
  | [], plan => .ok plan
  | (p, hint) :: rest, plan => do
    let plan ← readParameter contract index p hint plan
    readParameters contract (index + 1) rest plan

/-- The type of a parameter apart from remarks and whether it may be left out. -/
def plainTy? (hints : List Ty) (index : Nat) : Option Ty :=
  hints[index]?.map fun hint => (ParameterDecl.splitRemarks hint).unwrapOptional

/-- Refuses a mapping whose keys are declared as something else than text. -/
def checkKeys (ds : Declarations) (role : MapRole) (ty : Ty) : Except BuildFault Unit :=
  match ds.keyTy? ty with
  | some key => if key.isText then .ok () else .error (.foreignKey role key.rawName)
  | none => .ok ()

/-- A header map must be a mapping from text. -/
def checkHeaderMap (ds : Declarations) (hints : List Ty) (plan : Plan) : Except BuildFault Unit :=
  match plan.headerMapIndex.bind (plainTy? hints) with
  | none => .ok ()
  | some ty =>
    if ds.isMapping ty then checkKeys ds .header ty else .error (.noMapping ty.rawName)

/-- A query map may be anything, but a mapping must be one from text. -/
def checkQueryMap (ds : Declarations) (hints : List Ty) (plan : Plan) : Except BuildFault Unit :=
  match plan.queryMapIndex.bind (plainTy? hints) with
  | none => .ok ()
  | some ty => if ds.isMapping ty then checkKeys ds .query ty else .ok ()

/-- Reads the parameters of a method that is handled and has a verb. -/
def readArguments (contract : Contract) (ds : Declarations) (hints : List Ty) : Revision :=
  fun plan => do
    let plan ← readParameters contract 0 (plan.method.parameters.zip hints) plan
    if plan.hasBody && !plan.formNames.isEmpty then
      .error (.bodyBesideForm plan.key plan.warnings)
    else do
      checkHeaderMap ds hints plan
      checkQueryMap ds hints plan
      .ok plan

/-- The directives of the interface that an interface extends. -/
def parentDirectives (interfaces : Interfaces) (api : InterfaceDecl) : List Directive :=
  match api.parents with
  | parent :: _ => ((interfaces.find? parent).map InterfaceDecl.directives).getD []
  | [] => []

/-- The plan of a method of an interface. -/
def planOf (contract : Contract) (ds : Declarations) (interfaces : Interfaces)
    (api : InterfaceDecl) (method : MethodDecl) : Except BuildFault Plan :=
  match method.hints? ds with
  | none => .error (.unknownTypes api.name method.name)
  | some (hints, returns) => do
    let plan : Plan :=
      { key := method.keyOf api.name hints, api := api.name, method := method, returns := returns }
    let plan ← readInterface contract (parentDirectives interfaces api) plan
    let plan ← readInterface contract api.directives plan
    let plan ← readMethod contract method.directives plan
    if plan.ignored then .ok plan
    else if plan.template.method.isNone then .error (.missingVerb plan.key plan.warnings)
    else readArguments contract ds hints plan

/-- Refuses an interface with a type parameter, with two parents or with a parent that has one. -/
def checkShape (interfaces : Interfaces) (api : InterfaceDecl) : Except BuildFault Unit :=
  if api.kind = .generic then .error (.parameterized api.name)
  else
    match api.parents with
    | [] => .ok ()
    | [parent] =>
      if (interfaces.parents parent).isEmpty then .ok () else .error (.deepParents api.name)
    | _ => .error (.manyParents api.name)

/-- The plans of methods, each with a key that none of the plans before it has. -/
def plansOf (contract : Contract) (ds : Declarations) (interfaces : Interfaces)
    (api : InterfaceDecl) : List Plan → List MethodDecl → Except BuildFault (List Plan)
  | done, [] => .ok done
  | done, method :: rest => do
    let plan ← planOf contract ds interfaces api method
    if done.any (·.key == plan.key) then .error (.sameKey plan.key)
    else plansOf contract ds interfaces api (done ++ [plan]) rest

/-- The plans of the methods of an interface that have no body of their own. -/
def read (contract : Contract) (ds : Declarations) (interfaces : Interfaces)
    (api : InterfaceDecl) : Except BuildFault (List Plan) := do
  checkShape interfaces api
  let methods := (interfaces.methods api.name).map Prod.snd
  plansOf contract ds interfaces api [] (methods.filter fun m => !m.isDefault)

end HttpBinding.Contract
