import HttpBinding.Fault
import HttpBinding.Interface.Members

/-!
# What an interface may extend

An interface extends interfaces that are declared before it, each once. Protocols
extend protocols only. All parents and the ancestor that the interfaces of a kind
have in common must fit into one lineage in which every ancestor comes before its
own. The parameters of a method have different names, and behind one that may be
left out every other parameter given by position may be left out too.
-/

namespace HttpBinding

namespace InterfaceKind

/-- Whether interfaces of a kind say only what others do. -/
def isProtocol : InterfaceKind → Bool
  | protocol | generic => true
  | abstract | plain => false

/-- The ancestor that all interfaces of a kind have in common; no interface can have its name. -/
def root? : InterfaceKind → Option String
  | protocol | generic => some "(protocol)"
  | abstract => some "(abstract)"
  | plain => none

end InterfaceKind

/-- Whether a parameter may be given by position and must be given. -/
def ParameterDecl.isExpected (p : ParameterDecl) : Bool :=
  (p.kind == .normal || p.kind == .positionalOnly) && p.default.isNone

/-- Whether every parameter that must be given stands before those that may be left out. -/
def ParameterDecl.areInOrder : List ParameterDecl → Bool
  | [] => true
  | p :: rest => (p.default.isNone || p.kind == .keywordOnly || !rest.any isExpected)
    && areInOrder rest

/-- Whether the parameters of a method can stand beside each other and the object. -/
def MethodDecl.isWellFormed (m : MethodDecl) : Bool :=
  ParameterDecl.areInOrder m.parameters
    && (ParameterDecl.objectName :: m.parameters.map ParameterDecl.name).Nodup

/-- The ancestors that an interface names, the one that its kind has in common last. -/
def InterfaceDecl.ancestors (i : InterfaceDecl) : List String :=
  i.parents ++ i.kind.root?.toList

namespace Interfaces

/-- The lineages of interfaces with the ancestors that kinds have in common. -/
def lineages (interfaces : Interfaces) : List (String × List String) :=
  Lineage.ofDeclared (interfaces.map fun i => (i.name, i.ancestors))

/-- Refuses an interface that cannot extend its parents. -/
def checkParents (interfaces : Interfaces) (i : InterfaceDecl) : Except Fault Unit :=
  match i.parents.mapM interfaces.find? with
  | none => .error (.runtime "KeyError")
  | some parents =>
    if i.kind.isProtocol && !parents.all (·.kind.isProtocol) then .error (.runtime "TypeError")
    else if Lineage.agree (Lineage.ofParents interfaces.lineages i.ancestors)
      && i.parents.Nodup then .ok ()
    else .error (.runtime "TypeError")

/-- Refuses an interface that is none, given the interfaces before it. -/
def checkNext (interfaces : Interfaces) (i : InterfaceDecl) : Except Fault Unit :=
  if i.members.all fun entry => entry.2.method?.all MethodDecl.isWellFormed then
    interfaces.checkParents i
  else .error (.runtime "SyntaxError")

/-- Refuses interfaces among which there is one that is none. -/
def check (interfaces : Interfaces) : Except Fault Unit :=
  (interfaces.foldlM (fun (before : Interfaces) i =>
    (before.checkNext i).map fun _ => before ++ [i]) []).map fun _ => ()

end Interfaces

end HttpBinding
