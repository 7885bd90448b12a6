import HttpBinding.Plan.Contract

/-!
# Shorthands

Directives that a contract can take on besides its own: each of them sets one
thing of a plan, where the usual directives set several at once.
-/

namespace HttpBinding.Contract

/-- Sets a header of the template, which must be text. -/
def presetHeader (name : String) (value : Value) : Revision := fun plan =>
  match value with
  | .text s => .ok { plan with template := plan.template.header name [s] }
  | _ => .error (.senseless "TypeError")

/-- Makes the method one that gets an address, which must be text. -/
def getAddress (address : Value) : Revision := fun plan =>
  match address with
  | .text s =>
    .ok { plan with template := { plan.template with method := some .get }.uri s false }
  | _ => .error (.senseless "AttributeError")

/-- Leaves out a position, which may be any value that a set can have. -/
def skipPosition (position : Value) : Revision := fun plan =>
  if position.isHashable then .ok (plan.skip position) else .error (.senseless "TypeError")

/-- Adds a variable to the form. -/
def addFormName (name : Value) : Revision := fun plan =>
  .ok { plan with formNames := plan.formNames ++ [name] }

/-- Makes the argument at a position the body, without a declared type. Null makes none. -/
def bodyAt (position : Value) : Revision := fun plan =>
  .ok { plan with bodyIndex := position }

/-- Binds a parameter to a variable that a placeholder is known to use. -/
def pathVariable (name : String) (index : Nat) : Revision := fun plan =>
  .ok (plan.bindName name index)

/-- The shorthands on interfaces. -/
def interfaceShorthand? : Directive → Option Revision
  | .custom "Prefix" value => some (presetHeader "X-Prefix" value)
  | _ => none

/-- The shorthands on methods. -/
def methodShorthand? : Directive → Option Revision
  | .custom "Get" value => some (getAddress value)
  | .custom "Skip" value => some (skipPosition value)
  | .custom "Form" value => some (addFormName value)
  | .custom "BodyAt" value => some (bodyAt value)
  | _ => none

/-- The shorthands on parameters. -/
def parameterShorthand? : Marker → Option (Nat → String → Revision)
  | .custom "Path" name => some fun index _ => pathVariable name index
  | _ => none

/-- A contract that knows the shorthands as well. -/
def withShorthands (contract : Contract) : Contract :=
  contract.register interfaceShorthand? methodShorthand? parameterShorthand?

end HttpBinding.Contract
