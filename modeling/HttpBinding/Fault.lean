import HttpBinding.Message.Request
import HttpBinding.Moment.Basic

/-!
# Faults

A fault is what ends an operation without a result. It has a family, which
decides how the library treats it, a wording, the attributes that go with its
family, and the chain of faults it was raised from. What the run-time system and
foreign code fail with is known by the name of its class and by its kin, which
says who catches it. The wording of faults that the run-time system raises on its
own account is not part of this library; where such a fault is quoted, a mark
stands for its wording.
-/

namespace HttpBinding

/-- The kinds of foreign faults, by what catches them. -/
inductive Kin where
  | ordinary
  /-- A fault that the operating system reports. -/
  | os
  /-- The sign that nothing more follows. -/
  | stop
  /-- What ends the program, or a part of it, and is no error. -/
  | exit
  deriving DecidableEq, Repr

namespace Kin

/-- The classes of the run-time system for faults that the operating system reports. -/
def osNames : List String :=
  ["OSError", "ConnectionError", "ConnectionResetError",
    "ConnectionRefusedError", "ConnectionAbortedError", "BrokenPipeError", "TimeoutError",
    "FileNotFoundError", "FileExistsError", "PermissionError", "InterruptedError",
    "BlockingIOError", "ChildProcessError", "ProcessLookupError", "IsADirectoryError",
    "NotADirectoryError"]

/-- The classes of what is no error. -/
def exitNames : List String :=
  ["BaseException", "BaseExceptionGroup", "CancelledError", "GeneratorExit", "KeyboardInterrupt",
    "SystemExit"]

/-- The kin of a class of the run-time system. -/
def ofName (name : String) : Kin :=
  if osNames.contains name then os
  else if exitNames.contains name then exit
  else if name = "StopIteration" then stop
  else ordinary

end Kin

/-- The families of faults. -/
inductive Family where
  /-- A fault of this library of no special kind. -/
  | library
  /-- An interface that no client can be made for. -/
  | build
  /-- A body or query that cannot be encoded. -/
  | encode
  /-- A response that cannot be decoded. -/
  | decode
  /-- A fault that may be retried. -/
  | retryable
  /-- A request without a response. -/
  | transport
  /-- A request that failed above the network. -/
  | exchange
  /-- A response that reports an error. -/
  | response
  /-- A response that reports an error and asks to be retried. -/
  | retryableResponse
  /-- A fault of the run-time system or of foreign code, by the name and the kin of its class. -/
  | foreign (name : String) (kin : Kin)
  deriving DecidableEq, Repr

namespace Family

/-- The name of a family. -/
def name : Family → String
  | library => "ReqlineError"
  | build => "BuildError"
  | encode => "EncodeError"
  | decode => "DecodeError"
  | retryable => "RetryableError"
  | transport => "TransportError"
  | exchange => "ExchangeError"
  | response => "ResponseError"
  | retryableResponse => "RetryableResponseError"
  | foreign name _ => name

/-- The families of this library. -/
def own : List Family :=
  [library, build, encode, decode, retryable, transport, exchange, response, retryableResponse]

/-- The names that some classes of faults have besides. -/
def synonyms : List (String × String) :=
  [("IOError", "OSError"), ("EnvironmentError", "OSError")]

/-- The family of a class of the run-time system. -/
def ofRuntime (name : String) : Family :=
  foreign name (.ofName name)

/-- The family with a name. -/
def ofName (name : String) : Family :=
  (own.find? (·.name == name)).getD (ofRuntime ((synonyms.lookup name).getD name))

/-- Whether a family is of this library. -/
def isOwn : Family → Bool
  | foreign .. => false
  | _ => true

/-- Whether the retry policy may act on a family. -/
def isRetryable : Family → Bool
  | retryable | transport | retryableResponse => true
  | _ => false

/-- Whether a family reports an error response. -/
def isResponse : Family → Bool
  | response | retryableResponse => true
  | _ => false

/-- The kin of a family; that of the families of this library is ordinary. -/
def kin : Family → Kin
  | foreign _ kin => kin
  | _ => .ordinary

/-- Whether a family is a fault of the operating system. -/
def isOs (family : Family) : Bool :=
  family.kin = .os

/-- Whether a family is of errors. What is no error is caught only to go on its way. -/
def isError (family : Family) : Bool :=
  family.kin != .exit

end Family

/-- A fault apart from what it was raised from. -/
structure Trouble where
  family : Family
  /-- The wording, or nothing when it belongs to the run-time system. -/
  message : Option String := none
  status : Int := -1
  reason : String := ""
  request : Option Request := none
  body : Octets := []
  headers : Entries String (List String) := []
  retryAfter : Option Moment := none
  deriving DecidableEq, Repr

/-- A fault and, nearest first, the faults it was raised from. -/
structure Fault extends Trouble where
  causes : List Trouble := []
  deriving DecidableEq, Repr

namespace Fault

/-- The mark for a wording that is not part of this library. -/
def unworded : String := "<detail>"

/-- The wording of a fault, or its mark. -/
def wording (f : Fault) : String :=
  f.message.getD unworded

/-- The name of the family of a fault. -/
def name (f : Fault) : String :=
  f.family.name

/-- The fault that a fault was raised from. -/
def cause? (f : Fault) : Option Fault :=
  match f.causes with
  | [] => none
  | trouble :: rest => some { trouble with causes := rest }

/-- The same fault, raised from another one. -/
def raisedFrom (f cause : Fault) : Fault :=
  { f with causes := cause.toTrouble :: cause.causes }

@[simp]
theorem cause?_raisedFrom (f cause : Fault) : (f.raisedFrom cause).cause? = some cause := rfl

/-- A fault whose wording belongs to the run-time system. -/
def runtime (name : String) : Fault :=
  { family := .ofRuntime name }

/-- A fault of foreign code with its wording. -/
def foreign (name message : String) : Fault :=
  { family := .ofRuntime name, message := some message }

/-- An interface that no client can be made for. -/
def build (message : String) : Fault :=
  { family := .build, message := some message }

/-- A value that cannot be encoded. -/
def encode (message : String) : Fault :=
  { family := .encode, message := some message }

end Fault

/-- What foreign code that is asked for something fails with. -/
structure Failure where
  name : String
  kin : Kin := .ordinary
  /-- The wording, or nothing when it belongs to the run-time system. -/
  message : Option String := none
  deriving DecidableEq, Repr

namespace Failure

/-- A failure of a class of the run-time system. -/
def runtime (name : String) : Failure :=
  { name := name, kin := .ofName name }

/-- The fault that a failure leads to. -/
def fault (failure : Failure) : Fault :=
  { family := .foreign failure.name failure.kin, message := failure.message }

end Failure

end HttpBinding
