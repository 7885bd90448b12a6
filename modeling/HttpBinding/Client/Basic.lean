import HttpBinding.Client.Arguments
import HttpBinding.Exchange.Suspended
import HttpBinding.Interface.Members
import HttpBinding.Plan.Reading

/-!
# Clients

A client has a table with the methods of its interface. A method without a body
of its own is handled by sending requests, unless it is to be ignored; a method
with a body runs it, and the body may call other methods of the client. A client
stands for its target: two clients are equal when their targets are.
-/

namespace HttpBinding

/-- What carries out a method of a client. -/
inductive Route where
  | sends (handler : Handler)
  /-- The method has a body of its own. -/
  | runs (method : MethodDecl)
  /-- The method with a key is not handled. -/
  | refuses (key : String)

namespace Route

/-- The name of the class of what carries out a method. -/
def className : Route → String
  | sends handler => handler.className
  | runs _ => "DefaultMethodHandler"
  | refuses _ => "UnhandledMethodHandler"

/-- The key of the method, which one with a body of its own has none of. -/
def key? : Route → Option String
  | sends handler => some handler.key
  | runs _ => none
  | refuses key => some key

/-- What sends requests, if anything does. -/
def handler? : Route → Option Handler
  | sends handler => some handler
  | _ => none

end Route

/-- A method of a client with what carries it out. -/
structure Entry where
  method : MethodDecl
  route : Route

/-- A client. -/
structure Client where
  target : Target
  table : Entries String Entry
  /-- What the interface holds besides. -/
  members : Entries String Member := []

namespace Client

/-- The name of the class of clients of an interface. -/
def className (api : String) : String :=
  api ++ "Client"

/-- A client in words. -/
def describe (client : Client) : String :=
  client.target.describe

/-- Two clients are equal when they have the same target. -/
instance : BEq Client where
  beq a b := a.target == b.target

/-- Refuses a call of a method that is not handled. -/
def refusal (key : String) : Fault :=
  .build (key ++ " is not a method handled by reqline")

/-- The fault of calling a method of an interface that belongs to no client yet. -/
def unbound (interfaces : Interfaces) (api name : String) : Fault :=
  match (interfaces.methods api).lookup name, interfaces.declarer? api name with
  | some m, some i =>
    .foreign "RuntimeError" (i.name ++ "." ++ m.name ++ " invoked before bind_to()")
  | _, _ => .runtime "KeyError"

/-- A text in upper case; octets have upper case too. -/
def upperCase : Value → Except Fault Value
  | .text s => .ok (.text (String.ofList (Text.upper s.toList)))
  | .octets o => .ok (.octets (o.map fun b => if 97 ≤ b && b ≤ 122 then b - 32 else b))
  | .octetBuffer o => .ok (.octetBuffer (o.map fun b => if 97 ≤ b && b ≤ 122 then b - 32 else b))
  | _ => .error (.runtime "AttributeError")

/-- The value of an operand among the values of the parameters. -/
def operand (parameters : Entries String Value) : Operand → Except Fault Value
  | .constant value => .ok value
  | .parameter name =>
    match parameters.lookup name with
    | some value => .ok value
    | none => .error (.runtime "NameError")

/-- What a call comes to at once: its result, or a process that comes to the result. -/
inductive Reply where
  | value (result : Value)
  | pending (process : Traced Value)

namespace Reply

/-- Waits for the result. -/
def await : Reply → Traced Value
  | value result => Traced.ofValue result
  | pending process => process.awaited

/-- The result in upper case, which a pending one does not have. -/
def upper : Reply → Traced Reply
  | value result => Traced.lift ((upperCase result).map Reply.value)
  | pending _ => Traced.fail (.runtime "AttributeError")

end Reply

/-- What calls a method by its name. -/
abbrev Caller := String → List Value → Keywords → Traced Reply

/-- Runs a statement; without a result the next one follows. -/
def runStatement (caller : Caller) (parameters : Entries String Value) :
    Statement → Traced (Option Reply)
  | .remark | .nothing | .idle => Traced.ofValue none
  | .unimplemented => Traced.fail (.runtime "NotImplementedError")
  | .fail name => Traced.fail (.runtime name)
  | .values items =>
    Traced.lift ((items.mapM (operand parameters)).map fun values => some (.value (.list values)))
  | .call method arguments keywords upper => do
    let arguments ← Traced.lift (arguments.mapM (operand parameters))
    let keywords ← Traced.lift (keywords.mapM fun (name, item) =>
      (operand parameters item).map fun value => (name, value))
    let reply ← caller method arguments keywords
    if upper then return some (← reply.upper) else return some reply

/-- Runs the statements of a body; without a result it comes to null. -/
def runBody (caller : Caller) (parameters : Entries String Value) :
    List Statement → Traced Reply
  | [] => Traced.ofValue (.value .null)
  | statement :: rest => do
    match ← runStatement caller parameters statement with
    | some reply => return reply
    | none => runBody caller parameters rest

/-- Runs a function on the values of its parameters, at once or when its result is waited for. -/
def runFunction (caller : Caller) (m : MethodDecl) (parameters : Entries String Value) :
    Traced Reply :=
  let run := runBody caller parameters m.body
  if m.isAsync then Traced.ofValue (.pending (run.andThen Reply.await)) else run

/-- Runs a method with a body on the values that its parameters were bound to. -/
def runMethod (caller : Caller) (m : MethodDecl) (values : List Value) : Traced Reply :=
  match ParameterDecl.spread m.parameters values with
  | (arguments, keywords) =>
    match ParameterDecl.bind? m.parameters arguments keywords with
    | some values => runFunction caller m (ParameterDecl.named m.parameters values)
    | none => Traced.fail (.runtime "TypeError")

/-- What the code of a method has in the place of its object. -/
inductive Receiver where
  | client
  /-- The class that the client is made of. -/
  | clientClass
  /-- A value that knows nothing of clients. -/
  | other
  deriving DecidableEq, Repr

/-- Calls a function that is given its object like any other argument. -/
def callFree (caller : Receiver → Caller) (m : MethodDecl) (arguments : List Value)
    (keywords : Keywords) : Traced Reply :=
  let parameters := ParameterDecl.object m.parameters :: m.parameters
  match ParameterDecl.bind? parameters arguments keywords with
  | some values => runFunction (caller .other) m (ParameterDecl.named parameters values)
  | none => Traced.fail (.runtime "TypeError")

/-- Calls a function that is given a receiver in the place of its object. -/
def callBound (caller : Receiver → Caller) (receiver : Receiver) (m : MethodDecl)
    (arguments : List Value) (keywords : Keywords) : Traced Reply := do
  let values ← Traced.lift (ParameterDecl.bindCall m.parameters arguments keywords)
  runFunction (caller receiver) m (ParameterDecl.named m.parameters values)

/-- Calls what an attribute comes to, which is no function: it fails at the latest when called. -/
def callComputed (caller : Receiver → Caller) (m : MethodDecl) : Traced Reply := do
  let _ ← callBound caller .client m [] []
  Traced.fail (.runtime "TypeError")

/-- What a name that is no method of the client comes to when it is called. -/
def callMember (caller : Receiver → Caller) (receiver : Receiver) (arguments : List Value)
    (keywords : Keywords) : Option Member → Traced Reply
  | none => Traced.fail (.runtime "AttributeError")
  | some (.method m) =>
    if receiver = .client then callBound caller .client m arguments keywords
    else callFree caller m arguments keywords
  | some (.static m) => callFree caller m arguments keywords
  | some (.classwide m) => callBound caller .clientClass m arguments keywords
  | some (.computed m) =>
    if receiver = .client then callComputed caller m else Traced.fail (.runtime "TypeError")
  | some (.attribute _) => Traced.fail (.runtime "TypeError")

variable [Charsets]

/-- Sends requests for a call, at once or when the result is waited for. -/
def send (handler : Handler) (network : Network) (n : Nat) (values : List Value) : Traced Reply :=
  let run := handler.call network n values
  if handler.transport.isAsync then Traced.ofValue (.pending run)
  else run.andThen fun result => Traced.ofValue (.value result)

/--
Calls a method of a client whose class is asked for it: without an object there is no call,
and an argument in its place is none that sends requests.
-/
def callUnbound (m : MethodDecl) (keywords : Keywords) : List Value → Traced Reply
  | [] => Traced.fail (.runtime "TypeError")
  | _ :: arguments => do
    let _ ← Traced.lift (ParameterDecl.bindCall m.parameters arguments keywords)
    Traced.fail (.runtime "AttributeError")

/--
Calls a method of a receiver; the first request is sent as number `n`. Methods with a
body may call each other only so deep.
-/
def callWithin (client : Client) (network : Network) (n : Nat) : Nat → Receiver → Caller
  | 0, _, _, _, _ => Traced.fail (.runtime "RecursionError")
  | depth + 1, receiver, name, arguments, keywords =>
    let inner := client.callWithin network n depth
    match receiver, client.table.lookup name with
    | .other, _ => Traced.fail (.runtime "AttributeError")
    | receiver, none => callMember inner receiver arguments keywords (client.members.lookup name)
    | .clientClass, some entry => callUnbound entry.method keywords arguments
    | .client, some entry => do
      let values ← Traced.lift (ParameterDecl.bindCall entry.method.parameters arguments keywords)
      match entry.route with
      | .sends handler => send handler network n values
      | .runs method => runMethod (inner .client) method values
      | .refuses key => Traced.fail (refusal key)

/--
Calls a method of a client and waits for the result. A body calls at most one method, so
that a call which goes deeper than there are methods of clients and of their classes would
never end.
-/
def call (client : Client) (network : Network) (n : Nat) (name : String) (arguments : List Value)
    (keywords : Keywords) : Traced Value :=
  (client.callWithin network n (2 * (client.members.length + client.table.length) + 2) .client name
    arguments keywords).andThen Reply.await

end Client

end HttpBinding
