import HttpBinding.Interface.Declaration

/-!
# Binding arguments

A call gives some arguments by position and some by keyword. Binding them to the
parameters of a method gives one value for each parameter, in the order of
declaration: the argument, the default, or everything that is left for a
parameter that takes any number of arguments. A call that leaves an argument
over, gives one twice or lacks one does not bind.
-/

namespace HttpBinding

/-- The keyword arguments of a call. -/
abbrev Keywords := Entries String Value

namespace ParameterDecl

/-- Keyword arguments as a mapping. -/
def mappingOf (keywords : Keywords) : Value :=
  .dict (keywords.map fun (name, value) => (.text name, value))

/--
Binds arguments to parameters. Positional arguments fill the parameters in order;
the parameters behind them are filled by keyword or have their default.
-/
def bind? : List ParameterDecl → List Value → Keywords → Option (List Value)
  | [], [], [] => some []
  | [], _, _ => none
  | p :: rest, arguments, keywords =>
    match p.kind, arguments with
    | .positionalOnly, value :: others => (bind? rest others keywords).map (value :: ·)
    | .positionalOnly, [] => do
      let value ← p.default
      let values ← bind? rest [] keywords
      some (value :: values)
    | .normal, value :: others =>
      if (keywords.lookup p.name).isSome then none
      else (bind? rest others keywords).map (value :: ·)
    | .normal, [] | .keywordOnly, [] =>
      match keywords.lookup p.name with
      | some value => (bind? rest [] (keywords.erase p.name)).map (value :: ·)
      | none => do
        let value ← p.default
        let values ← bind? rest [] keywords
        some (value :: values)
    | .keywordOnly, _ :: _ => none
    | .variadic, others => (bind? rest [] keywords).map (.tuple others :: ·)
    | .variadicKeyword, [] => (bind? rest [] []).map (mappingOf keywords :: ·)
    | .variadicKeyword, _ :: _ => none

/-- Without parameters nothing may be given. -/
theorem bind?_nil (arguments : List Value) (keywords : Keywords) :
    bind? [] arguments keywords = if arguments = [] ∧ keywords = [] then some [] else none := by
  cases arguments <;> cases keywords <;> simp [bind?]

/--
The object as a parameter of a function that is not called on it: by position only when
that is true of another parameter.
-/
def object (ps : List ParameterDecl) : ParameterDecl where
  name := objectName
  kind := if ps.any fun p => p.kind == .positionalOnly then .positionalOnly else .normal

/-- Binds the arguments of a call on a client. -/
def bindCall (ps : List ParameterDecl) (arguments : List Value) (keywords : Keywords) :
    Except Fault (List Value) :=
  if (keywords.lookup objectName).isSome then .error (.runtime "TypeError")
  else
    match bind? ps arguments keywords with
    | some values => .ok values
    | none => .error (.runtime "TypeError")

/-- The keyword arguments that a mapping holds. -/
def keywordsOf : Value → Keywords
  | .dict entries => entries.filterMap fun
    | (.text name, value) => some (name, value)
    | _ => none
  | _ => []

/-- The arguments that a value for a parameter with any number of them stands for. -/
def argumentsOf : Value → List Value
  | .tuple items => items
  | _ => []

/-- The call that gives each parameter its value. -/
def spread : List ParameterDecl → List Value → List Value × Keywords
  | p :: ps, value :: values =>
    match spread ps values with
    | (arguments, keywords) =>
      match p.kind with
      | .positionalOnly | .normal => (value :: arguments, keywords)
      | .variadic => (argumentsOf value ++ arguments, keywords)
      | .keywordOnly => (arguments, (p.name, value) :: keywords)
      | .variadicKeyword => (arguments, keywordsOf value ++ keywords)
  | _, _ => ([], [])

/-- The values of the parameters by name. -/
def named (ps : List ParameterDecl) (values : List Value) : Entries String Value :=
  (ps.map ParameterDecl.name).zip values

end ParameterDecl

end HttpBinding
