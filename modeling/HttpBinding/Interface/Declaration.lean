import HttpBinding.Schema.Type
import HttpBinding.Template.Basic

/-!
# Interfaces

An interface is declared, not programmed: it has methods with parameters, and
directives say how a method and its parameters become a request. Some methods
have a body of their own, which is run as it stands; everything else that an
interface holds is there but is no method.
-/

namespace HttpBinding

/-- How an argument for a parameter may be given. -/
inductive ParameterKind where
  | positionalOnly
  | normal
  /-- Takes all positional arguments that are left. -/
  | variadic
  | keywordOnly
  /-- Takes all keyword arguments that are left. -/
  | variadicKeyword
  deriving DecidableEq, Repr

/-- Turns a single argument into what stands for it in a request. -/
structure Expander where
  expand : Value → Except Fault Value

/-- What is said about a parameter beside its type. -/
inductive Marker where
  /-- The parameter is a variable. Without a name it goes by the name of the parameter. -/
  | param (name : String) (expander : Option Expander)
  /-- The entries of the argument become query parameters. -/
  | queryMap (encoded : Bool)
  /-- The entries of the argument become headers. -/
  | headerMap
  /-- A marker that only some contracts know. -/
  | custom (name : String) (text : String)
  /-- A remark without meaning. -/
  | remark

/-- A parameter of a method. The object itself is no parameter. -/
structure ParameterDecl where
  name : String
  ty : Option Ty := none
  markers : List Marker := []
  /-- Whether the marked type as a whole may be left out. -/
  isOptional : Bool := false
  default : Option Value := none
  kind : ParameterKind := .normal

/-- The name by which a method knows the object, which is no keyword. -/
def ParameterDecl.objectName : String :=
  "self"

/-- What is said about a method or an interface. -/
inductive Directive where
  /-- A verb and an address with placeholders. -/
  | requestLine (text : String) (decodeSlash : Bool) (format : CollectionFormat)
  /-- Lines with a header each. -/
  | headers (lines : List String)
  /-- A body, with placeholders or literal. -/
  | body (text : String)
  /-- The method is not handled. -/
  | ignore
  /-- A directive that only some contracts know. -/
  | custom (name : String) (argument : Value)

namespace Directive

/-- The name of the class of a directive. -/
def name : Directive → String
  | requestLine .. => "RequestLine"
  | headers _ => "Headers"
  | body _ => "Body"
  | ignore => "Ignore"
  | custom name _ => name

end Directive

/-- A value in the body of a method: an argument by its parameter, or a given value. -/
inductive Operand where
  | parameter (name : String)
  | constant (value : Value)

/-- A statement in the body of a method. -/
inductive Statement where
  /-- Text that describes the method. -/
  | remark
  /-- Nothing at all, said in one of two ways. -/
  | nothing
  /-- Raises the fault that says that a method is not implemented. -/
  | unimplemented
  /-- An expression without any effect. -/
  | idle
  /-- Raises a fault of a class. -/
  | fail (name : String)
  /-- Ends with a list of values. -/
  | values (items : List Operand)
  /-- Ends with the result of another method, perhaps in upper case. -/
  | call (method : String) (arguments : List Operand) (keywords : List (String × Operand))
    (upper : Bool)

/-- A method of an interface. -/
structure MethodDecl where
  name : String
  directives : List Directive := []
  parameters : List ParameterDecl := []
  returns : Option Ty := none
  body : List Statement := []
  isAbstract : Bool := false
  /-- Whether the body can be looked into; the bodies of some methods cannot. -/
  isReadable : Bool := true
  /-- Whether a call comes to a result that is still pending. -/
  isAsync : Bool := false

/-- What an interface holds under a name. -/
inductive Member where
  | method (m : MethodDecl)
  /-- A function that is not given the object. -/
  | static (m : MethodDecl)
  /-- A function that is given the class of the object in place of the object. -/
  | classwide (m : MethodDecl)
  /-- An attribute that a method comes to. -/
  | computed (m : MethodDecl)
  | attribute (value : Value)

/-- The kinds of interfaces. -/
inductive InterfaceKind where
  | protocol
  | abstract
  | plain
  /-- A protocol with a type parameter. -/
  | generic
  deriving DecidableEq, Repr

/-- A declared interface. -/
structure InterfaceDecl where
  name : String
  kind : InterfaceKind := .protocol
  /-- The interfaces that it extends, which are declared before it. -/
  parents : List String := []
  directives : List Directive := []
  members : Entries String Member := []

/-- The interfaces of a program, in order. -/
abbrev Interfaces := List InterfaceDecl

namespace Statement

/-- Whether a statement only holds the place of a body. -/
def isPlaceholder : Statement → Bool
  | remark | nothing | unimplemented => true
  | _ => false

end Statement

namespace Member

/-- The method behind a member, in whatever way it is given the object. -/
def method? : Member → Option MethodDecl
  | .method m | .static m | .classwide m | .computed m => some m
  | .attribute _ => none

/-- Whether a member has to be given a meaning before there can be an object. -/
def isAbstract (member : Member) : Bool :=
  member.method?.any MethodDecl.isAbstract

end Member

namespace MethodDecl

/-- Whether a method has a body of its own, which can be seen and is more than a placeholder. -/
def isDefault (m : MethodDecl) : Bool :=
  !m.isAbstract && m.isReadable && !m.body.all Statement.isPlaceholder

end MethodDecl

end HttpBinding
