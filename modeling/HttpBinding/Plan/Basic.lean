import HttpBinding.Interface.Declaration
import HttpBinding.Plan.BuildFault
import HttpBinding.Value.Order

/-!
# Plans

The plan of a method says what a call makes of each argument: which one is the
address, the options, the body, a map of headers or query parameters, and which
names an argument gives to the placeholders of the template. Positions count the
parameters from zero. A plan is made once and then only read; every call fills a
copy of its template.
-/

namespace HttpBinding

/-- What a call of a method makes of its arguments. -/
structure Plan where
  key : String
  api : String
  method : MethodDecl
  returns : Ty := .any
  urlIndex : Option Nat := none
  optionsIndex : Option Nat := none
  /-- The position of the body, which a contract may give as any value; null is none. -/
  bodyIndex : Value := .null
  /-- The declared type of the body, which a contract may leave open. -/
  bodyType : Option Ty := none
  headerMapIndex : Option Nat := none
  queryMapIndex : Option Nat := none
  /-- Whether the entries of the query map are encoded already. -/
  queryMapEncoded : Bool := false
  /-- The variables that no placeholder uses; a contract may add any values to them. -/
  formNames : List Value := []
  /-- The variables that an argument is bound to. -/
  names : Entries Nat (List String) := []
  expanders : Entries Nat Expander := []
  /-- The positions that are not looked at any further, each once. -/
  skipped : List Value := []
  ignored : Bool := false
  warnings : List String := []
  template : Template := {}

namespace Plan

/-- Binds the argument at a position to one more variable. -/
def bindName (plan : Plan) (name : String) (index : Nat) : Plan :=
  { plan with names := plan.names.extend index [name] }

/-- Leaves out a position from here on. -/
def skip (plan : Plan) (position : Value) : Plan :=
  { plan with skipped := Value.distinct (plan.skipped ++ [position]) }

/-- The positions that are left out in ascending order, which those of one kind have. -/
def skippedInOrder (plan : Plan) : Except Fault (List Value) :=
  match Value.ascending? plan.skipped with
  | some positions => .ok positions
  | none => .error (.runtime "TypeError")

/-- Whether there is a body. -/
def hasBody (plan : Plan) : Bool :=
  !plan.bodyIndex.isNull

/-- Whether a variable belongs to the form. -/
def isFormName (plan : Plan) (name : String) : Bool :=
  plan.formNames.any (Value.sameKey (.text name))

/-- Whether a position has a role or is left out. -/
def isTaken (plan : Plan) (index : Nat) : Bool :=
  [plan.urlIndex, plan.optionsIndex, plan.headerMapIndex, plan.queryMapIndex].contains (some index)
    || plan.names.keys.contains index
    || (plan.bodyIndex :: plan.skipped).any (Value.sameKey (.int index))

/-- Adds a warning. -/
def warn (plan : Plan) (warning : String) : Plan :=
  { plan with warnings := plan.warnings ++ [warning] }

/-- The warnings, each on a line of its own. -/
def warningText (plan : Plan) : String :=
  BuildFault.warningText plan.warnings

/-- A plan in words. -/
def describe (plan : Plan) : String :=
  "MethodDescriptor(" ++ plan.key ++ ")"

end Plan

end HttpBinding
