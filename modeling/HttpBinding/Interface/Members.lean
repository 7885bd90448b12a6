import HttpBinding.Interface.Declaration
import HttpBinding.Interface.Lineage

/-!
# Members of an interface

An interface has the members that it declares and those of its ancestors. A
member that is declared again stays at its place and is replaced. The methods
of an interface are its public functions. Interfaces that are not plain insist
that all abstract members are given a meaning.
-/

namespace HttpBinding.Interfaces

/-- The interface with a name. -/
def find? (interfaces : Interfaces) (name : String) : Option InterfaceDecl :=
  List.find? (fun i : InterfaceDecl => i.name == name) interfaces

/-- The interface itself and its ancestors, nearest first. -/
def lineage (interfaces : Interfaces) (name : String) : List InterfaceDecl :=
  (Lineage.of (interfaces.map fun i => (i.name, i.parents)) name).filterMap interfaces.find?

/-- All members of an interface, with what ancestors declare first and what replaces it in place. -/
def members (interfaces : Interfaces) (name : String) : Entries String Member :=
  Entries.ofPairs ((interfaces.lineage name).reverse.flatMap InterfaceDecl.members)

/-- Whether a name is not for the outside. -/
def isPrivate (name : String) : Bool :=
  name.toList.head? == some '_'

/-- The method that a member is. -/
def methodOf? : Member → Option MethodDecl
  | .method m => some m
  | _ => none

/-- The public methods of an interface, under their names. -/
def methods (interfaces : Interfaces) (name : String) : Entries String MethodDecl :=
  (interfaces.members name).filterMap fun entry =>
    if isPrivate entry.1 then none else (methodOf? entry.2).map fun m => (entry.1, m)

/-- The interfaces that an interface extends. -/
def parents (interfaces : Interfaces) (name : String) : List String :=
  ((interfaces.find? name).map InterfaceDecl.parents).getD []

/-- The nearest interface in a lineage that declares a name itself. -/
def declarer? (interfaces : Interfaces) (api name : String) : Option InterfaceDecl :=
  (interfaces.lineage api).find? fun i => (i.members.lookup name).isSome

/-- Whether an interface insists that abstract members are given a meaning. -/
def insists (interfaces : Interfaces) (api : String) : Bool :=
  (interfaces.lineage api).any fun i => i.kind != .plain

/-- Whether the member of an interface under a name is abstract. -/
def isAbstract (interfaces : Interfaces) (api name : String) : Bool :=
  ((interfaces.members api).lookup name).any Member.isAbstract

/--
The names of the abstract members that each interface insists on: its own, and those
that its parents insist on and that are still abstract.
-/
def abstractNames (interfaces : Interfaces) : List (String × List String) :=
  interfaces.foldl (fun known i =>
    let own := i.members.keys
    let others := i.parents.flatMap fun parent => (known.lookup parent).getD []
    let names := if interfaces.insists i.name then own ++ others else []
    known ++ [(i.name, names.filter (interfaces.isAbstract i.name))]) []

end HttpBinding.Interfaces
