import HttpBinding.Fault
import HttpBinding.Text.Quoted

/-!
# What is wrong with an interface

An interface that no client can be made for has one of these faults. Keys stand
for methods, and a list of warnings comes after the wording of some faults.
-/

namespace HttpBinding

/-- What a mapping is used for. -/
inductive MapRole where
  | header
  | query
  deriving DecidableEq, Repr

namespace MapRole

/-- The name of the marker for a role. -/
def marker : MapRole → String
  | header => "HeaderMap"
  | query => "QueryMap"

end MapRole

/-- What a directive stands on. -/
inductive Place where
  | interface (name : String)
  | method (key : String)
  deriving DecidableEq, Repr

namespace Place

/-- A place in words. -/
def describe : Place → String
  | interface name => "type " ++ name
  | method key => "method " ++ key

end Place

/-- Why no client can be made for an interface. -/
inductive BuildFault where
  | parameterized (api : String)
  | manyParents (api : String)
  | deepParents (api : String)
  | sameKey (key : String)
  | unknownTypes (api method : String)
  | missingVerb (key : String) (warnings : List String)
  | variadicParameter (key : String)
  | bodyBesideForm (key : String) (warnings : List String)
  | manyBodies (key : String) (warnings : List String)
  | noMapping (typeName : String)
  | foreignKey (role : MapRole) (typeName : String)
  | malformedHeader (line : String) (place : Place)
  | emptyHeaders (place : Place)
  | emptyRequestLine (key : String)
  | malformedRequestLine (key : String)
  | unknownVerb (verb key : String)
  | emptyBody (key : String)
  | emptyName (index : Nat)
  | manyMaps (role : MapRole) (key : String)
  /-- What is said about a method cannot be made out, by the class of the fault. -/
  | senseless (name : String)
  deriving DecidableEq, Repr

namespace BuildFault

/-- Warnings, each on a line of its own. -/
def warningText (warnings : List String) : String :=
  String.join (warnings.map fun warning => "\n- " ++ warning)

/-- The wording of a fault; one that is not of this library has none. -/
def message : BuildFault → String
  | parameterized api => "Parameterized types unsupported: " ++ api
  | manyParents api => "Only single inheritance supported: " ++ api
  | deepParents api => "Only single-level inheritance supported: " ++ api
  | sameKey key => "Overrides unsupported: " ++ key
  | unknownTypes api method =>
    "Unable to resolve type hints of " ++ api ++ "." ++ method ++ ": " ++ Fault.unworded
  | missingVerb key warnings =>
    "Method " ++ key ++ " not annotated with HTTP method type (ex. GET, POST)"
      ++ warningText warnings
  | variadicParameter key => "Variadic parameters unsupported: " ++ key
  | bodyBesideForm key warnings =>
    "Body parameters cannot be used with form parameters: " ++ key ++ warningText warnings
  | manyBodies key warnings =>
    "Method has too many Body parameters: " ++ key ++ warningText warnings
  | noMapping typeName => "HeaderMap parameter must be a Mapping: " ++ typeName
  | foreignKey role typeName => role.marker ++ " key must be a str: " ++ typeName
  | malformedHeader line place =>
    "Header " ++ Text.quoted line ++ " is not formatted as 'Name: value' on "
      ++ place.describe ++ "."
  | emptyHeaders place => "Headers annotation was empty on " ++ place.describe ++ "."
  | emptyRequestLine key => "RequestLine annotation was empty on method " ++ key ++ "."
  | malformedRequestLine key =>
    "RequestLine annotation didn't start with an HTTP verb on method " ++ key
  | unknownVerb verb key =>
    "RequestLine annotation has unsupported HTTP verb " ++ verb ++ " on method " ++ key
  | emptyBody key => "Body annotation was empty on method " ++ key ++ "."
  | emptyName index =>
    "Param annotation was empty on param " ++ Number.natText index ++ "."
  | manyMaps role key =>
    role.marker ++ " annotation was present on multiple parameters: " ++ key
  | senseless _ => Fault.unworded

/-- The fault as it leaves the library. -/
def toFault (why : BuildFault) : Fault :=
  match why with
  | senseless name => .runtime name
  | unknownTypes .. => (Fault.build why.message).raisedFrom (.runtime "NameError")
  | _ => .build why.message

end BuildFault

end HttpBinding
