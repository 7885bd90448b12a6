import HttpBinding.Exchange.Suspended
import HttpBinding.Proofs.Template.Resolving
import HttpBinding.Schema.Adapters

/-!
# Methods without parameters

The simplest method has no parameters and a fixed address, so that all its calls
prepare the same request unless an interceptor changes it. Its handler is what
statements about handlers can be tried on.
-/

namespace HttpBinding

/-- Settings of a client that closes every response and never makes a second attempt. -/
def plainSettings (level : LogLevel) : HandlerSettings where
  transport := { name := "Transport" }
  retryer := .never
  interceptors := []
  log := { level := level }
  decode404 := .bool false
  closeAfterDecode := .bool true
  policy := .none
  errorThreshold := .int 300
  clock := .still ⟨0, some 0⟩

namespace Handler

/-- The handler of a method that has no parameters and reads from a fixed address. -/
def fetching [Charsets] (settings : HandlerSettings) (returns : Ty) : Handler :=
  { settings with
    target := .fixed "Api" "http://api.test" "api"
    plan :=
      { key := "Api#data()", api := "Api", method := { name := "data" }, returns := returns
        template := { method := some .get } }
    encoder := .usual
    queryMapEncoder := .usual (Schema.adapters [])
    options := {}
    decoder := .usual
    errorDecoder := .usual }

/-- The request of a call of such a method that no interceptor changes. -/
def fetchingRequest : Request :=
  { method := .get, url := "http://api.test" }

variable {settings : HandlerSettings} {returns : Ty}

theorem fill_fetching [Charsets] (arguments : List Value) :
    (fetching settings returns).plan.fill (fetching settings returns).encoder
        (fetching settings returns).queryMapEncoder arguments =
      .ok { method := some .get, resolved := true } := by
  change (Plan.resolveWith [] { method := some .get }).bind _ = _
  have hresolve := Template.resolve_of_path (t := { method := some .get }) (fill_empty [] _) rfl rfl rfl
  unfold Plan.resolveWith
  rw [hresolve]
  rfl

/-- Only interceptors decide what request such a method sends. -/
theorem prepare_fetching [Charsets] (arguments : List Value) :
    (fetching settings returns).prepare arguments =
      ((fetching settings returns).intercept { method := some .get, resolved := true }).bind fun t =>
        ((fetching settings returns).target.apply t).2.map fun request =>
          (request, Options.toValue {}) := by
  unfold prepare
  rw [fill_fetching]
  change ((fetching settings returns).intercept _).bind _ = _
  cases (fetching settings returns).intercept { method := some .get, resolved := true } with
  | error fault => rfl
  | ok t =>
      change Except.bind ((fetching settings returns).target.apply t).2 _ =
        ((fetching settings returns).target.apply t).2.map _
      cases ((fetching settings returns).target.apply t).2 <;> rfl

theorem intercept_of_applyAll {h : Handler} {t t' : Template}
    (happlied : Interceptor.applyAll h.interceptors t = (t', none)) : h.intercept t = .ok t' := by
  unfold intercept
  rw [happlied]

theorem prepare_fetching_of_unchanged [Charsets] (hinterceptors : settings.interceptors = [])
    (arguments : List Value) :
    (fetching settings returns).prepare arguments =
      .ok (fetchingRequest, Options.toValue {}) := by
  have happlied : Interceptor.applyAll (fetching settings returns).interceptors
      { method := some .get, resolved := true } =
        ({ method := some .get, resolved := true }, none) := by
    change Interceptor.applyAll settings.interceptors _ = _
    rw [hinterceptors]
    rfl
  rw [prepare_fetching, intercept_of_applyAll happlied]
  rfl

end Handler

end HttpBinding
