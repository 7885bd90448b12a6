import HttpBinding.Value

/-!
# Transport options

Options are handed to the transport with every request. They are not checked:
a setting is whatever value the caller gave, and the transport makes of it what
it can. As a value, options are a record of their own kind.
-/

namespace HttpBinding

/-- The number with the given decimal notation `coefficient · 10 ^ exponent`. -/
def Value.decimal (coefficient : Nat) (exponent : Int) : Value :=
  .float (.ofDecimal false coefficient exponent)

/-- What a transport is told about one request. -/
structure Options where
  connectTimeout : Value := .decimal 10 0
  readTimeout : Value := .decimal 60 0
  followRedirects : Value := .bool true

namespace Options

/-- The shape of options as a record. -/
def shape : Shape :=
  ⟨"Options", .options, []⟩

/-- The settings by name, in order. -/
def fields (o : Options) : List (String × Value) :=
  [("connect_timeout", o.connectTimeout), ("read_timeout", o.readTimeout),
    ("follow_redirects", o.followRedirects)]

/-- Options as a value. -/
def toValue (o : Options) : Value :=
  .record shape o.fields

/-- Options from the first settings in order; those left out have their default. -/
def ofList : List Value → Options
  | [] => {}
  | [connect] => { connectTimeout := connect }
  | [connect, read] => { connectTimeout := connect, readTimeout := read }
  | connect :: read :: follow :: _ => ⟨connect, read, follow⟩

/-- Options from settings in order, of which there are at most three. -/
def make (settings : List Value) : Except Fault Options :=
  if settings.length ≤ 3 then .ok (ofList settings) else .error (.runtime "TypeError")

/-- The options that a value is. -/
def ofValue? : Value → Option Options
  | .record shape fields =>
    match shape.kind with
    | .options => some (ofList (fields.map Prod.snd))
    | _ => none
  | _ => none

end Options

end HttpBinding
