import HttpBinding.Exchange.Trace

/-!
# Logging exchanges

A log has a level: nothing, one line for each thing that happens, the headers
as well, or the bodies as well. Every line begins with the key of the method. To
log the body of a response it has to be read, so that the response goes on with
a copy of its body.
-/

namespace HttpBinding

/-- How much of an exchange is logged. -/
inductive LogLevel where
  | none
  | basic
  | headers
  | full
  deriving DecidableEq, Repr

namespace LogLevel

/-- The name of a level. -/
def name : LogLevel → String
  | none => "none"
  | basic => "basic"
  | headers => "headers"
  | full => "full"

/-- The place of a level among the levels. -/
def rank : LogLevel → Nat
  | none => 0
  | basic => 1
  | headers => 2
  | full => 3

/-- All levels. -/
def all : List LogLevel :=
  [none, basic, headers, full]

/-- The level with a name. -/
def ofName? (text : String) : Option LogLevel :=
  all.find? (·.name == text)

end LogLevel

/-- Where and how much is logged. -/
structure ExchangeLog where
  level : LogLevel
  logger : Option String := none
  deriving DecidableEq, Repr

namespace ExchangeLog

variable [Charsets]

/-- The logger of a log that has been given none. -/
def usualLogger : String :=
  "reqline.client.log"

/-- Whether a log covers a level. -/
def covers (log : ExchangeLog) (level : LogLevel) : Bool :=
  log.level != .none && level.rank ≤ log.level.rank

/-- A line about a method. -/
def line (log : ExchangeLog) (key text : String) : Event :=
  .logged (log.logger.getD usualLogger) ("[" ++ key ++ "] " ++ text)

/-- A line about a method at a level. -/
def lineAt (log : ExchangeLog) (level : LogLevel) (key text : String) : List Event :=
  if log.covers level then [log.line key text] else []

/-- A line for each header. -/
def headerLines (log : ExchangeLog) (key : String) (pairs : List (String × String)) : List Event :=
  if log.covers .headers then
    pairs.map fun (name, value) => log.line key (name ++ ": " ++ value)
  else []

/-- The line that ends a request or response with a body of the given size. -/
def sizeText (arrow : String) (size : Nat) : String :=
  arrow ++ " END HTTP (" ++ Number.natText size ++ "-byte body)"

/-- A line with octets as text, unless there are none. -/
def bodyLine (log : ExchangeLog) (key charset : String) (octets : Octets) : Traced Unit :=
  if log.covers .full && !octets.isEmpty then do
    let text ← Traced.lift (decodeOctets charset octets)
    Traced.note [log.line key text]
  else Traced.note []

/-- Logs a request. -/
def request (log : ExchangeLog) (key : String) (r : Request) : Traced Unit := do
  Traced.note (log.lineAt .basic key ("---> " ++ r.line))
  Traced.note (log.headerLines key r.headerItems)
  bodyLine log key r.charset (r.body.getD [])
  Traced.note (log.lineAt .headers key (sizeText "--->" (r.body.getD []).length))

/-- The time between a request and its answer, in words. -/
def elapsedText (millis : Nat) : String :=
  " (" ++ Number.natText millis ++ "ms)"

/-- The first line about a response. -/
def statusText (r : Response) (millis : Nat) : String :=
  let reason := if r.reason.isEmpty then "" else " " ++ r.reason
  "<--- HTTP/1.1 " ++ Number.intText r.status ++ reason ++ elapsedText millis

/-- The pairs of a header name and one value of a response. -/
def headerItems (r : Response) : List (String × String) :=
  r.headers.flatMap fun (name, values) => values.map fun value => (name, value)

/-- The response with its body read into memory under the name of a holder. Its body is closed. -/
def bufferAs (holder : Holder) (r : Response) : Traced Response :=
  ⟨r.bufferedIn holder, r.holders.map Event.closed⟩

/-- Logs the body of a response, which goes on with a copy of it. -/
def responseBody (log : ExchangeLog) (key : String) (n : Nat) (r : Response) : Traced Response :=
  if log.covers .full && r.body.isSome then do
    let copy ← bufferAs (.copy n) r
    let octets ← Traced.lift copy.read
    bodyLine log key copy.charset octets
    Traced.note (log.lineAt .headers key (sizeText "<---" octets.length))
    return copy
  else do
    Traced.note (log.lineAt .headers key (sizeText "<---" 0))
    return r

/-- Logs the response to the request that was sent as number `n`. -/
def response (log : ExchangeLog) (key : String) (n millis : Nat) (r : Response) :
    Traced Response := do
  Traced.note (log.lineAt .basic key (statusText r millis))
  Traced.note (log.headerLines key (headerItems r))
  responseBody log key n r

/-- Logs that there was no response. -/
def transportFault (log : ExchangeLog) (key : String) (fault : Fault) (millis : Nat) :
    List Event :=
  log.lineAt .basic key
    ("<--- ERROR " ++ fault.name ++ ": " ++ fault.wording ++ elapsedText millis)

/-- Logs that another attempt follows after some seconds. -/
def retry (log : ExchangeLog) (key : String) (fault : Fault) (seconds : Quantity) : List Event :=
  log.lineAt .basic key
    ("---> RETRYING in " ++ seconds.fixed 3 ++ "s after " ++ fault.name ++ ": " ++ fault.wording)

end ExchangeLog

end HttpBinding
