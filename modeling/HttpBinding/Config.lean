import HttpBinding.Fault
import HttpBinding.Message.Options
import HttpBinding.Number.Numeral
import HttpBinding.Text.Case
import HttpBinding.Text.Quoted

/-!
# Client configuration

The settings shared by all methods of a client can be written down in one place
or read from environment variables. A variable is a common start followed by
the name of a setting in any case; what it holds is read as the kind of value
that the setting has by default. Other variables are ignored.
-/

namespace HttpBinding

/-- The settings of a client. They are not checked before a client is built. -/
structure ClientConfig where
  connectTimeout : Value := .decimal 10 0
  readTimeout : Value := .decimal 60 0
  followRedirects : Value := .bool true
  retryPeriod : Value := .decimal 1 (-1)
  retryMaxPeriod : Value := .decimal 1 0
  retryMaxAttempts : Value := .int 5
  decode404 : Value := .bool false
  closeAfterDecode : Value := .bool true
  errorStatusThreshold : Value := .int 400
  logLevel : Value := .text "none"
  propagationPolicy : Value := .text "none"

namespace ClientConfig

/-- The settings by name, in order. -/
def entries (c : ClientConfig) : Entries String Value :=
  [("connect_timeout", c.connectTimeout), ("read_timeout", c.readTimeout),
    ("follow_redirects", c.followRedirects), ("retry_period", c.retryPeriod),
    ("retry_max_period", c.retryMaxPeriod), ("retry_max_attempts", c.retryMaxAttempts),
    ("decode404", c.decode404), ("close_after_decode", c.closeAfterDecode),
    ("error_status_threshold", c.errorStatusThreshold), ("log_level", c.logLevel),
    ("propagation_policy", c.propagationPolicy)]

/-- Sets one setting by name. -/
def set? (c : ClientConfig) (name : String) (value : Value) : Option ClientConfig :=
  match name with
  | "connect_timeout" => some { c with connectTimeout := value }
  | "read_timeout" => some { c with readTimeout := value }
  | "follow_redirects" => some { c with followRedirects := value }
  | "retry_period" => some { c with retryPeriod := value }
  | "retry_max_period" => some { c with retryMaxPeriod := value }
  | "retry_max_attempts" => some { c with retryMaxAttempts := value }
  | "decode404" => some { c with decode404 := value }
  | "close_after_decode" => some { c with closeAfterDecode := value }
  | "error_status_threshold" => some { c with errorStatusThreshold := value }
  | "log_level" => some { c with logLevel := value }
  | "propagation_policy" => some { c with propagationPolicy := value }
  | _ => none

/-- A configuration with some settings given by name. A name must be that of a setting. -/
def ofEntries (given : Entries String Value) : Except Fault ClientConfig :=
  given.foldlM (fun config (name, value) =>
    match config.set? name value with
    | some config => .ok config
    | none => .error (.runtime "TypeError")) {}

/-- The transport options of a configuration. -/
def options (c : ClientConfig) : Options :=
  ⟨c.connectTimeout, c.readTimeout, c.followRedirects⟩

/-- The words for true. -/
def trueWords : List String :=
  ["1", "true", "yes", "on"]

/-- The words for false, among them no word at all. -/
def falseWords : List String :=
  ["0", "false", "no", "off", ""]

/-- A text without the blanks around it. -/
def trimmed (text : String) : String :=
  String.ofList (Text.trim text.toList)

/-- Reads what a variable with the given key holds as the kind of value that a default is. -/
def coerce (key raw : String) : Value → Except Fault Value
  | .bool _ =>
    let word := String.ofList (Text.lower (Text.trim raw.toList))
    if trueWords.contains word then .ok (.bool true)
    else if falseWords.contains word then .ok (.bool false)
    else .error (.foreign "ValueError" (key ++ ": expected a boolean, got " ++ Text.quoted raw))
  | .int _ =>
    match Number.readInt? raw with
    | some n => .ok (.int n)
    | none => .error (.runtime "ValueError")
  | .float _ =>
    match Number.readFloat? raw with
    | some x => .ok (.float x)
    | none => .error (.runtime "ValueError")
  | _ => .ok (.text (trimmed raw))

/-- Whether a key begins with one of several texts; one that is no text must not be reached. -/
def beginsWithAny (key : String) : List Value → Except Fault Bool
  | [] => .ok false
  | .text start :: rest =>
    if start.toList.isPrefixOf key.toList then .ok true else beginsWithAny key rest
  | _ => .error (.runtime "TypeError")

/-- Whether a key begins with a start, which is a text or several texts. -/
def begins (key : String) : Value → Except Fault Bool
  | .text start => beginsWithAny key [.text start]
  | .tuple starts => beginsWithAny key starts
  | _ => .error (.runtime "TypeError")

/-- How many characters of a key are its start: of several texts, as many as there are. -/
def startLength : Value → Nat
  | .text start => start.length
  | .tuple starts => starts.length
  | _ => 0

/-- Puts what one variable says over the settings given beforehand. -/
def loadVariable (start : Value) (settings : Entries String Value) (key raw : String) :
    Except Fault (Entries String Value) := do
  if ← begins key start then
    let name := String.ofList (Text.lower (key.toList.drop (startLength start)))
    match (entries {}).lookup name with
    | none => .ok settings
    | some default => do
      let value ← coerce key raw default
      .ok (settings.put name value)
  else .ok settings

/-- Puts what the variables of an environment say over the settings given beforehand. -/
def loadFrom (start : Value) (given : Entries String Value) (environment : Entries String String) :
    Except Fault (Entries String Value) :=
  environment.foldlM (fun settings (key, raw) => loadVariable start settings key raw) given

/-- The start of variables unless another one is given. -/
def usualStart : String :=
  "REQLINE_"

/-- The name under which a start is given among settings. -/
def startName : String :=
  "prefix"

/-- A name that no setting can be given under. -/
def reservedName : String :=
  "cls"

/--
Puts what the variables of an environment say over the settings given beforehand.
The common start of the variables may be one of these settings, but is given once.
-/
def load (start : Option String) (given : Entries String Value)
    (environment : Entries String String) : Except Fault (Entries String Value) :=
  if (given.lookup reservedName).isSome then .error (.runtime "TypeError")
  else
    match start, given.lookup startName with
    | some _, some _ => .error (.runtime "TypeError")
    | none, some start => loadFrom start (given.erase startName) environment
    | start, none => loadFrom (.text (start.getD usualStart)) given environment

end ClientConfig

end HttpBinding
