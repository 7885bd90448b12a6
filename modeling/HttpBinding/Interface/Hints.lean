import HttpBinding.Interface.Declaration
import HttpBinding.Interface.Lineage

/-!
# Declared types of parameters

The type of a parameter is declared together with its markers. Before it means
anything, the names in it are looked up. From the types of its parameters and
its name a method has a key, which tells it from the others.
-/

namespace HttpBinding

namespace Ty

/-- The types that have a name everywhere. -/
def builtin : List (String × Ty) :=
  [("None", null), ("str", text), ("int", int), ("float", float), ("bool", bool),
    ("bytes", octets), ("Any", any), ("object", object), ("URL", url), ("Options", options),
    ("Response", response), ("list", container .list []), ("dict", container .dict []),
    ("set", container .set []), ("frozenset", container .frozenset []),
    ("tuple", container .tuple []), ("Mapping", container .mapping [])]

/-- The type of a name: a declared record, or a type that has its name everywhere. -/
def named? (ds : Declarations) (name : String) : Option Ty :=
  if (ds.find? name).isSome then some (record name) else builtin.lookup name

mutual

/-- The type with all names looked up. -/
def resolve? (ds : Declarations) : Ty → Option Ty
  | forward name => named? ds name
  | container kind parts => (resolveAll? ds parts).map (container kind)
  | union spelling types => (resolveAll? ds types).map (unionOf spelling)
  | remarked inner => (resolve? ds inner).map remarked
  | ty => some ty

/-- The types with all names looked up. -/
def resolveAll? (ds : Declarations) : List Ty → Option (List Ty)
  | [] => some []
  | ty :: rest => do
    let first ← resolve? ds ty
    let others ← resolveAll? ds rest
    some (first :: others)

end

/-- The name of the declared record that a type is. -/
def recordName? : Ty → Option String
  | record name => some name
  | _ => none

/-- Whether a container is a mapping. -/
def isMapContainer : Ty → Bool
  | container .dict _ => true
  | container .mapping _ => true
  | _ => false

end Ty

namespace Declarations

/-- A record type and those it is derived from, nearest first. -/
def lineage (ds : Declarations) (name : String) : List TypeDecl :=
  (Lineage.of (ds.map fun d => (d.name, d.bases.filterMap Ty.recordName?)) name).filterMap ds.find?

/-- Whether a type is a mapping. -/
def isMapping (ds : Declarations) : Ty → Bool
  | .record name => (ds.lineage name).any fun d => d.bases.any Ty.isMapContainer
  | ty => ty.isMapContainer

/-- Whether a type that another is derived from says more than its class. -/
def isGeneric : Ty → Bool
  | .container .mapping _ => true
  | .container .iterable _ => true
  | .container _ parts => !parts.isEmpty
  | _ => false

/-- The type of the keys of a mapping that tells it. -/
def keyOfContainer? : Ty → Option Ty
  | .container .dict (key :: _) => some key
  | .container .mapping (key :: _) => some key
  | _ => none

/--
The declared type of the keys of a mapping. For a class of mappings it is what
the nearest class says that is derived from types with parts.
-/
def keyTy? (ds : Declarations) : Ty → Option Ty
  | .record name =>
    ((ds.lineage name).find? fun d => d.bases.any isGeneric).bind fun d =>
      d.bases.findSome? keyOfContainer?
  | ty => keyOfContainer? ty

end Declarations

namespace ParameterDecl

/-- The declared type of a parameter, with a remark where there are markers. -/
def hint (p : ParameterDecl) : Ty :=
  let ty := p.ty.getD .any
  let marked := if p.markers.isEmpty then ty else .remarked ty
  if p.isOptional then .optional marked else marked

/-- The type apart from remarks at its head, or at the head of what may be left out. -/
def splitRemarks (hint : Ty) : Ty :=
  match hint with
  | .remarked inner => inner.bare
  | ty =>
    match ty.unwrapOptional with
    | .remarked inner => .optional inner.bare
    | _ => ty

end ParameterDecl

namespace MethodDecl

/-- The declared types of the parameters and the result, with all names looked up. -/
def hints? (ds : Declarations) (m : MethodDecl) : Option (List Ty × Ty) := do
  let parameters ← Ty.resolveAll? ds (m.parameters.map ParameterDecl.hint)
  let result ← Ty.resolve? ds (m.returns.getD .any)
  some (parameters, result)

/-- The key of a method of an interface, by the names of its parameter types. -/
def keyOf (api : String) (m : MethodDecl) (hints : List Ty) : String :=
  api ++ "#" ++ m.name ++ "(" ++ ",".intercalate (hints.map Ty.rawName) ++ ")"

end MethodDecl

end HttpBinding
