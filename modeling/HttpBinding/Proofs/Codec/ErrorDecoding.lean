import HttpBinding.Codec.ErrorDecoder
import HttpBinding.Octets.Charset
import HttpBinding.Proofs.Exchange.Logging
import HttpBinding.Proofs.Number.DigitWords
import HttpBinding.Proofs.Success

/-!
# When an error response is decoded

The usual error decoder quotes the beginning of a body, for which it needs a charset, and
reads a header that tells when to try again. Both are up to the server: a name of no charset
that reads the body, digits that are no numeral and times outside the calendar end decoding
with a fault that is not about the response any more. Everything else is decoded, and then the fault
tells all of the response.
-/

namespace HttpBinding

/-- Octets can be read by the charset of a name. -/
def IsLegible [Charsets] (charset : String) (octets : Octets) : Prop :=
  ∃ text, Charsets.decode charset octets = .ok text

/-- A moment of the calendar by a clock whose offset is known. -/
structure Moment.IsCurrent (now : Moment) : Prop where
  offset : now.offset.isSome = true
  begun : 0 ≤ now.reading

theorem decodeOctets_succeeds_iff [Charsets] {charset : String} {octets : Octets} :
    (∃ text, decodeOctets charset octets = .ok text) ↔ IsLegible charset octets := by
  unfold decodeOctets IsLegible
  cases Charsets.decode charset octets <;> simp [Except.mapError]

theorem isLegible_utf8 [Charsets] (octets : Octets) : IsLegible "utf-8" octets :=
  ⟨_, Charsets.decode_utf8 octets⟩

namespace ErrorDecoder

open Number

variable {now m : Moment} {fault : Fault} {value : String} {values : List String} {key : String}
  {r : Response} {octets : Octets}

/-! ## Times to try again -/

section RetryAfter

/-- A header value that tells when to try again, or nothing, but no impossible time. -/
inductive IsUsable (now : Moment) (value : String) : Prop where
  | seconds (hdigits : Text.isDigits (Text.trim value.toList) = true)
      (hpositional : isPositional (Text.trim value.toList) = true)
      (hlength : (Text.trim value.toList).length ≤ maxDigits)
      (hduration : (wordValue (Text.trim value.toList) : Int) < HttpDate.maxDuration)
      (hcalendar : now.reading + wordValue (Text.trim value.toList) * Moment.second <
        Moment.calendarEnd)
  | date (hword : Text.isDigits (Text.trim value.toList) = false)
      (hdate : HttpDate.read (String.ofList (Text.trim value.toList)) ≠ .outOfRange)

theorem momentAfter_succeeds_iff (hnow : now.IsCurrent) {seconds : Nat} :
    (∃ m, momentAfter now seconds = .ok m) ↔
      (seconds : Int) < HttpDate.maxDuration ∧
        now.reading + seconds * Moment.second < Moment.calendarEnd := by
  have hlater : 0 ≤ now.reading + seconds * Moment.second :=
    Int.add_nonneg hnow.begun (Int.mul_nonneg (Int.natCast_nonneg _) (by decide))
  unfold momentAfter Moment.addSeconds?
  by_cases hduration : HttpDate.maxDuration ≤ (seconds : Int)
  · simp [hduration, Int.not_lt.mpr hduration]
  · by_cases hcalendar : now.reading + seconds * Moment.second < Moment.calendarEnd
    · simp [hduration, hlater, hcalendar, Int.not_le.mp hduration]
    · simp [hduration, hcalendar]

theorem momentAfter_eq_ok {seconds : Int} (hmoment : momentAfter now seconds = .ok m) :
    m.offset = now.offset := by
  unfold momentAfter Moment.addSeconds? at hmoment
  split at hmoment
  · cases hmoment
  · split at hmoment
    next hsome =>
      dsimp only at hsome
      split at hsome
      · obtain rfl := Option.some.inj hsome
        obtain rfl := Except.ok.inj hmoment
        rfl
      · cases hsome
    next => cases hmoment

theorem momentAfter_eq_error {seconds : Int} (hmoment : momentAfter now seconds = .error fault) :
    fault = .runtime "OverflowError" := by
  unfold momentAfter at hmoment
  split at hmoment
  · exact (Except.error.inj hmoment).symm
  · split at hmoment
    · cases hmoment
    · exact (Except.error.inj hmoment).symm

/-- A first value that is a word of digits is seconds from now, if it is a numeral. -/
theorem retryAfter_of_isDigits (hdigits : Text.isDigits (Text.trim value.toList) = true) :
    retryAfter now (value :: values) =
      if isPositional (Text.trim value.toList) &&
          decide ((Text.trim value.toList).length ≤ maxDigits) then
        (momentAfter now (wordValue (Text.trim value.toList))).map some
      else .error (.runtime "ValueError") := by
  unfold retryAfter
  simp only [hdigits, if_true, readInt?_of_isDigits hdigits]
  generalize (isPositional (Text.trim value.toList) &&
    decide ((Text.trim value.toList).length ≤ maxDigits)) = isNumeral
  cases isNumeral <;> rfl

/-- Every other first value is a date, or else it tells nothing. -/
theorem retryAfter_of_not_isDigits (hword : Text.isDigits (Text.trim value.toList) = false) :
    retryAfter now (value :: values) =
      match HttpDate.read (String.ofList (Text.trim value.toList)) with
      | .moment m => .ok (some (withOffset m))
      | .notADate => .ok none
      | .outOfRange => .error (.runtime "OverflowError") := by
  unfold retryAfter
  cases hread : HttpDate.read (String.ofList (Text.trim value.toList)) <;>
    simp only [hword, Bool.false_eq_true, if_false, hread]

/-- The first value of the header is the one that is read, and it must be usable. -/
theorem retryAfter_succeeds_iff (hnow : now.IsCurrent) :
    (∃ moment, retryAfter now values = .ok moment) ↔ ∀ value ∈ values.head?, IsUsable now value := by
  cases values with
  | nil => simp [retryAfter]
  | cons value rest =>
      rw [List.head?_cons]
      simp only [Option.mem_some, forall_eq']
      cases hdigits : Text.isDigits (Text.trim value.toList) with
      | false =>
          rw [retryAfter_of_not_isDigits hdigits]
          constructor
          · intro hread
            refine .date hdigits ?_
            intro hrange
            rw [hrange] at hread
            obtain ⟨moment, hmoment⟩ := hread
            cases hmoment
          · intro husable
            cases husable with
            | seconds hword =>
                rw [hdigits] at hword
                cases hword
            | date _ hdate =>
                split
                · exact ⟨_, rfl⟩
                · exact ⟨_, rfl⟩
                next hrange => exact absurd hrange hdate
      | true =>
          rw [retryAfter_of_isDigits hdigits]
          constructor
          · rintro ⟨moment, hmoment⟩
            split at hmoment
            next hnumeral =>
              rw [Bool.and_eq_true, decide_eq_true_iff] at hnumeral
              obtain ⟨m, hm, -⟩ := map_eq_ok.mp hmoment
              obtain ⟨hduration, hcalendar⟩ := (momentAfter_succeeds_iff hnow).mp ⟨m, hm⟩
              exact .seconds hdigits hnumeral.1 hnumeral.2 hduration hcalendar
            next => cases hmoment
          · intro husable
            cases husable with
            | seconds _ hpositional hlength hduration hcalendar =>
                rw [hpositional, decide_eq_true hlength, Bool.and_self, if_pos rfl]
                obtain ⟨m, hm⟩ := (momentAfter_succeeds_iff hnow).mpr ⟨hduration, hcalendar⟩
                exact ⟨some m, map_eq_ok.mpr ⟨m, hm, rfl⟩⟩
            | date hword =>
                rw [hdigits] at hword
                cases hword

/-- A time to try again comes from the header, and its clock is known. -/
theorem retryAfter_eq_ok_some (hnow : now.IsCurrent)
    (hmoment : retryAfter now values = .ok (some m)) : values ≠ [] ∧ m.offset.isSome = true := by
  cases values with
  | nil => cases hmoment
  | cons value rest =>
      refine ⟨List.cons_ne_nil _ _, ?_⟩
      cases hdigits : Text.isDigits (Text.trim value.toList) with
      | false =>
          rw [retryAfter_of_not_isDigits hdigits] at hmoment
          split at hmoment
          · obtain rfl := Option.some.inj (Except.ok.inj hmoment)
            rfl
          · cases hmoment
          · cases hmoment
      | true =>
          rw [retryAfter_of_isDigits hdigits] at hmoment
          split at hmoment
          · obtain ⟨later, hlater, hsome⟩ := map_eq_ok.mp hmoment
            obtain rfl := Option.some.inj hsome
            rw [momentAfter_eq_ok hlater]
            exact hnow.offset
          · cases hmoment

theorem retryAfter_eq_error (hmoment : retryAfter now values = .error fault) :
    fault = .runtime "ValueError" ∨ fault = .runtime "OverflowError" := by
  cases values with
  | nil => cases hmoment
  | cons value rest =>
      cases hdigits : Text.isDigits (Text.trim value.toList) with
      | false =>
          rw [retryAfter_of_not_isDigits hdigits] at hmoment
          split at hmoment
          · cases hmoment
          · cases hmoment
          · exact Or.inr (Except.error.inj hmoment).symm
      | true =>
          rw [retryAfter_of_isDigits hdigits] at hmoment
          split at hmoment
          · cases hlater : momentAfter now (wordValue (Text.trim value.toList)) with
            | ok later =>
                rw [hlater] at hmoment
                cases hmoment
            | error why =>
                rw [hlater] at hmoment
                obtain rfl := Except.error.inj hmoment
                exact Or.inr (momentAfter_eq_error hlater)
          · exact Or.inl (Except.error.inj hmoment).symm

end RetryAfter

/-! ## Faults -/

section Faults

/-- A fault that tells all of a response, and only by its header that it may be retried. -/
structure Reports (fault : Fault) (r : Response) (octets : Octets) : Prop where
  family : fault.family = .response ∨ fault.family = .retryableResponse
  status : fault.status = r.status
  reason : fault.reason = r.reason
  request : fault.request = r.request
  body : fault.body = octets
  headers : fault.headers = r.headers
  retryable : fault.family = .retryableResponse →
    r.header "Retry-After" ≠ [] ∧ ∃ m, fault.retryAfter = some m ∧ m.offset.isSome = true

/-- The fault that a response reports with a quoted text and a time to try again. -/
def reported (key : String) (r : Response) (octets : Octets) (snippet : String)
    (moment : Option Moment) : Fault where
  family := if moment.isSome then .retryableResponse else .response
  message := some ("[" ++ intText r.status ++ "] " ++ r.reason ++ requestPart r.request
    ++ " [" ++ key ++ "]: [" ++ snippet ++ "]")
  status := r.status
  reason := r.reason
  request := r.request
  body := octets
  headers := r.headers
  retryAfter := moment

theorem decodeUsual_of_read [Charsets] (hread : r.read = .ok octets) :
    decodeUsual now key r =
      (decodeOctets r.charset (octets.take quotedOctets) >>= fun snippet =>
        retryAfter now (r.header "Retry-After") >>= fun moment =>
          .ok (reported key r octets snippet moment)) := by
  unfold decodeUsual
  rw [hread]
  rfl

theorem reports_reported (hnow : now.IsCurrent) {snippet : String} {moment : Option Moment}
    (hmoment : retryAfter now (r.header "Retry-After") = .ok moment) :
    Reports (reported key r octets snippet moment) r octets := by
  cases moment with
  | none => exact ⟨Or.inl rfl, rfl, rfl, rfl, rfl, rfl, nofun⟩
  | some m =>
      obtain ⟨hheader, hoffset⟩ := retryAfter_eq_ok_some hnow hmoment
      exact ⟨Or.inr rfl, rfl, rfl, rfl, rfl, rfl, fun _ => ⟨hheader, m, rfl, hoffset⟩⟩

/--
The usual error decoder decodes a response whose body can be read exactly when the quoted part
of the body is legible and the header for trying again is usable. What it makes of it tells
all of the response; otherwise it fails with what the charset fails with or with a fault of
the run-time system.
-/
theorem decodeUsual_succeeds_iff [Charsets] (hnow : now.IsCurrent) (hread : r.read = .ok octets)
    (key : String) :
    ((∃ fault, decodeUsual now key r = .ok fault) ↔
      IsLegible r.charset (octets.take quotedOctets) ∧
        ∀ value ∈ (r.header "Retry-After").head?, IsUsable now value) ∧
    (∀ fault, decodeUsual now key r = .ok fault → Reports fault r octets) ∧
    ∀ fault, decodeUsual now key r = .error fault →
      (∃ failure, Charsets.decode r.charset (octets.take quotedOctets) = .error failure ∧
        fault = failure.fault) ∨
      fault = .runtime "ValueError" ∨ fault = .runtime "OverflowError" := by
  rw [decodeUsual_of_read hread, ← decodeOctets_succeeds_iff, ← retryAfter_succeeds_iff hnow]
  refine ⟨?_, ?_, ?_⟩
  · constructor
    · rintro ⟨fault, hdecode⟩
      obtain ⟨snippet, hsnippet, hdecode⟩ := bind_eq_ok.mp hdecode
      obtain ⟨moment, hmoment, -⟩ := bind_eq_ok.mp hdecode
      exact ⟨⟨snippet, hsnippet⟩, moment, hmoment⟩
    · rintro ⟨⟨snippet, hsnippet⟩, moment, hmoment⟩
      refine ⟨reported key r octets snippet moment, bind_eq_ok.mpr ⟨snippet, hsnippet, ?_⟩⟩
      exact bind_eq_ok.mpr ⟨moment, hmoment, rfl⟩
  · intro fault hdecode
    obtain ⟨snippet, -, hdecode⟩ := bind_eq_ok.mp hdecode
    obtain ⟨moment, hmoment, hfault⟩ := bind_eq_ok.mp hdecode
    obtain rfl := Except.ok.inj hfault
    exact reports_reported hnow hmoment
  · intro fault hdecode
    rcases bind_eq_error.mp hdecode with hsnippet | ⟨snippet, -, hdecode⟩
    · obtain ⟨failure, hfailure, hfault⟩ := decodeOctets_eq_error hsnippet
      exact Or.inl ⟨failure, hfailure, hfault⟩
    rcases bind_eq_error.mp hdecode with hmoment | ⟨moment, -, hdone⟩
    · exact Or.inr (retryAfter_eq_error hmoment)
    · cases hdone

/-- A response that asks to be tried again. -/
def busy (advice : String) : Response where
  status := 503
  reason := "Busy"
  headers := [("Retry-After", [advice])]

open scoped CommonCharsets

theorem decodeUsual_succeeds_iff_busy : ∃ fault,
    decodeUsual ⟨0, some 0⟩ "Api#ping()" (busy "120") = .ok fault ∧ Reports fault (busy "120") [] := by
  have hnow : Moment.IsCurrent ⟨0, some 0⟩ := ⟨rfl, Int.le_refl 0⟩
  have hread : (busy "120").read = .ok [] := rfl
  obtain ⟨hsucceeds, hreports, -⟩ := decodeUsual_succeeds_iff hnow hread "Api#ping()"
  have husable : ∀ value ∈ ((busy "120").header "Retry-After").head?,
      IsUsable ⟨0, some 0⟩ value := by
    intro value hvalue
    obtain rfl : "120" = value := Option.some.inj hvalue
    exact .seconds rfl rfl (by decide) (by decide) (by decide)
  obtain ⟨fault, hfault⟩ := hsucceeds.mpr ⟨isLegible_utf8 _, husable⟩
  exact ⟨fault, hfault, hreports fault hfault⟩

/-- The superscript counts as a digit, but no number can be read from it. -/
theorem decodeUsual_fails_busySquare :
    (busy "²").read = .ok [] ∧
      decodeUsual ⟨0, some 0⟩ "Api#ping()" (busy "²") = .error (.runtime "ValueError") :=
  ⟨rfl, rfl⟩

end Faults

end ErrorDecoder

end HttpBinding
