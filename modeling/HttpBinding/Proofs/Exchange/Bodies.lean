import HttpBinding.Octets.Charset
import HttpBinding.Proofs.Exchange.Fetching
import HttpBinding.Proofs.Exchange.Succession

/-!
# What becomes of a body

A response below the error threshold is given to the decoder, and a decoder of this library
looks at the status once more before it looks at the body. So the outcome of a call is what
its last body says only if that status is not one of the two that stand for no result. One of
them is below every useful threshold; the other is below a threshold that is set high enough,
and then its body is discarded even though the client did not ask for that.
-/

namespace HttpBinding

section Bodies

variable [Charsets]

namespace Decoder

/-! ## Reading a body -/

/-- A body as octets, or as text in the charset of its response. -/
def readPlain (response : Response) (octets : Octets) (declared : Ty) : Except Fault Value :=
  if declared.isOctets then .ok (.octets octets)
  else if takesText declared then (decodeOctets response.charset octets).map Value.text
  else .error (refusal response (declared.resultName ++ " is not a type supported by this decoder."))

/-- A body as octets, or as a value of a type that is written in JSON. -/
def readTyped (adapters : Adapters) (response : Response) (octets : Octets) (declared : Ty) :
    Except Fault Value :=
  if declared.isOctets then .ok (.octets octets) else readJson adapters response declared octets

/-- The decoders that read bodies, each with what it reads a body that is not blank as. -/
inductive ReadsBy : Decoder → (Response → Octets → Ty → Except Fault Value) → Prop where
  | usual : ReadsBy usual readPlain
  | json (adapters : Adapters) : ReadsBy (json adapters) (readTyped adapters)

variable {decoder : Decoder} {read : Response → Octets → Ty → Except Fault Value}
  {response : Response} {octets : Octets} {declared : Ty}

/-- A body is read unless the status of its response says that there is nothing to decode. -/
theorem ReadsBy.decode_eq (hreads : decoder.ReadsBy read) (hnull : declared.isNull = false)
    (hread : response.read = .ok octets) (hblank : areBlank octets = false) :
    decoder.decode response declared =
      if isEmptyStatus response.status then .ok declared.emptyValue
      else read response octets declared := by
  cases hreads with
  | usual =>
      have hbody : response.body.isNone = false := by
        cases hnone : response.body with
        | some body => rfl
        | none =>
            -- Without a body there are no octets, and none are blank.
            unfold Response.read at hread
            rw [hnone] at hread
            rw [← Except.ok.inj hread] at hblank
            cases hblank
      change decodeUsual response declared = _
      unfold decodeUsual readPlain decodeText Response.text
      rw [hnull, hbody, hread]
      rfl
  | json adapters =>
      change decodeJson adapters response declared = _
      unfold decodeJson readTyped
      rw [hnull, hread]
      change (if false then _ else if _ then _ else if areBlank octets = true then _ else _) = _
      rw [hblank]
      rfl

/-- Of a response a body is read with its headers, and with its status and request for a refusal. -/
theorem ReadsBy.read_withBody (hreads : decoder.ReadsBy read) (body : Option Body) (octets : Octets)
    (declared : Ty) :
    read { response with body := body } octets declared = read response octets declared := by
  cases hreads <;> rfl

omit [Charsets] in
/-- What adapters refuse is a refusal, and what they fail with otherwise is their own failure. -/
theorem family_readJson_of_error {adapters : Adapters} {fault : Fault}
    (herror : readJson adapters response declared octets = .error fault) :
    fault.family = .decode ∨ fault.family.isOwn = false := by
  unfold readJson at herror
  cases hload : adapters.load declared octets with
  | ok value =>
      rw [hload] at herror
      cases herror
  | error failure =>
      rw [hload] at herror
      obtain rfl : unread response declared failure = fault := Except.error.inj herror
      unfold unread
      split
      · exact Or.inl rfl
      · exact Or.inr rfl

/-- What reading a body fails with is a refusal or belongs to the run-time system. -/
theorem ReadsBy.family_of_error (hreads : decoder.ReadsBy read) {fault : Fault}
    (herror : read response octets declared = .error fault) :
    fault.family = .decode ∨ fault.family.isOwn = false := by
  cases hreads with
  | usual =>
      unfold readPlain at herror
      split at herror
      · cases herror
      · split at herror
        · cases htext : decodeOctets response.charset octets with
          | ok text =>
              rw [htext] at herror
              cases herror
          | error other =>
              rw [htext] at herror
              obtain ⟨failure, -, rfl⟩ := decodeOctets_eq_error htext
              rw [← Except.error.inj herror]
              exact Or.inr rfl
        · rw [← Except.error.inj herror]
          exact Or.inl rfl
  | json adapters =>
      unfold readTyped at herror
      split at herror
      · cases herror
      · exact family_readJson_of_error herror

end Decoder

namespace Handler

/-! ## The outcome of a response -/

/--
How a fault of reading a body is told: as one of decoding, unless the client unwraps faults. What
is no error is told as it is.
-/
def told (h : Handler) (request : Request) (response : Response) :
    Except Fault Value → Except Fault Value
  | .ok value => .ok value
  | .error fault =>
    if fault.family.isOwn || !fault.family.isError || h.policy = .unwrap then .error fault
    else .error (decodeFault response (response.request.getD request) fault)

/-- What a body comes to at last, given what it is read as: one of a missing resource is discarded. -/
def bodyOutcome (h : Handler) (request : Request) (response : Response)
    (reading : Except Fault Value) : Except Fault Value :=
  if response.status = 404 then .ok h.plan.returns.emptyValue else h.told request response reading

/--
A response whose body is to be decoded: it is below the error threshold and has a body that
is not blank, and the method has a result that is not the response itself.
-/
structure IsToDecode (h : Handler) (response : Response) (octets : Octets) : Prop where
  read : response.read = .ok octets
  notBlank : Decoder.areBlank octets = false
  below : isBelow response.status h.errorThreshold = .ok true
  hasContent : response.status ≠ 204
  returnsValue : h.plan.returns.isNull = false
  returnsNoResponse : h.plan.returns.isResponse = false

/-- The response that answers the request that a call sends as number `k`. -/
structure Answers (h : Handler) (network : Network) (n : Nat) (arguments : List Value) (k : Nat)
    (request : Request) (response : Response) : Prop where
  answered : ∃ options, h.prepare arguments = .ok (request, options) ∧
    network k (h.transport.relay request) options = .ok response
  received : .received k true ∈ (h.call network n arguments).events

variable {h : Handler} {sight : Sight} {now : Moment} {wait : Waiting} {network : Network}
  {request : Request} {options : Value} {n k : Nat} {response : Response} {octets : Octets}
  {read : Response → Octets → Ty → Except Fault Value}

omit [Charsets] in
theorem decode_eq_told (request : Request) (response : Response) :
    h.decode request response = h.told request response (h.decoder.decode response h.plan.returns) := by
  unfold decode told
  cases h.decoder.decode response h.plan.returns <;> rfl

/-- A fault of reading a body does not let the call go on. -/
theorem mayRetry_told (hreads : h.decoder.ReadsBy read) :
    mayRetry (h.told request response (read response octets h.plan.returns)) = false := by
  cases hreading : read response octets h.plan.returns with
  | ok value => rfl
  | error fault =>
      unfold told
      dsimp only
      split
      · rcases hreads.family_of_error hreading with hfamily | hfamily
        · exact congrArg Family.isRetryable hfamily
        · change fault.family.isRetryable = false
          cases hname : fault.family <;> simp_all [Family.isOwn, Family.isRetryable]
      · rfl

theorem mayRetry_bodyOutcome (hreads : h.decoder.ReadsBy read) :
    mayRetry (h.bodyOutcome request response (read response octets h.plan.returns)) = false := by
  unfold bodyOutcome
  split
  · rfl
  · exact mayRetry_told hreads

theorem judge_of_isToDecode (hreads : h.decoder.ReadsBy read) (hdecode : h.IsToDecode response octets) :
    (h.judge now request response).1 =
      h.bodyOutcome request response (read response octets h.plan.returns) := by
  have hdecodes : h.decodes response.status = .ok true := by
    unfold decodes
    rw [hdecode.below]
    rfl
  have hempty : Decoder.isEmptyStatus response.status = decide (response.status = 404) := by
    unfold Decoder.isEmptyStatus
    rw [beq_false_of_ne hdecode.hasContent, Bool.or_false]
    rfl
  have hjudged : (h.judge now request response).1 = h.decode request response := by
    unfold judge
    rw [hdecode.returnsNoResponse, hdecodes, hdecode.returnsValue]
    dsimp only
    cases h.decode request response <;> rfl
  rw [hjudged, decode_eq_told, hreads.decode_eq hdecode.returnsValue hdecode.read hdecode.notBlank,
    hempty]
  unfold bodyOutcome
  by_cases hstatus : response.status = 404
  · simp [hstatus, told]
  · simp [hstatus]

/-- It does not matter where a body is held while it is decoded. -/
theorem judge_withBody (hreads : h.decoder.ReadsBy read) (hdecode : h.IsToDecode response octets)
    {body : Body} (hbody : body.read = .ok octets) :
    (h.judge now request { response.answering request with body := some body }).1 =
      h.bodyOutcome request (response.answering request)
        (read (response.answering request) octets h.plan.returns) := by
  have hheld : h.IsToDecode { response.answering request with body := some body } octets :=
    { hdecode with read := hbody }
  rw [judge_of_isToDecode hreads hheld, hreads.read_withBody]
  rfl

omit [Charsets] in
theorem IsToDecode.exists_body (hdecode : h.IsToDecode response octets) :
    ∃ body, response.body = some body ∧ body.read = .ok octets := by
  cases hbody : response.body with
  | some body =>
      refine ⟨body, rfl, ?_⟩
      rw [← hdecode.read, Response.read, hbody]
  | none =>
      have hread := hdecode.read
      have hblank := hdecode.notBlank
      unfold Response.read at hread
      rw [hbody] at hread
      rw [← Except.ok.inj hread] at hblank
      cases hblank

/-- A response is logged, which reads its body at the full level, and then its body is decoded. -/
theorem outcomeOfAnswer_of_isToDecode (hreads : h.decoder.ReadsBy read)
    (hdecode : h.IsToDecode response octets) :
    h.outcomeOfAnswer sight request n (.ok response) =
      (if h.log.covers .full then legibility response.charset octets else .ok ()).bind fun _ =>
        h.bodyOutcome request (response.answering request)
          (read (response.answering request) octets h.plan.returns) := by
  obtain ⟨body, hbody, hread⟩ := hdecode.exists_body
  have hheld : heldBy n response = { response with body := some { body with holder := .stream n } } := by
    unfold heldBy
    rw [hbody]
    rfl
  rw [outcomeOfAnswer_ok, ExchangeLog.outcome_response, read_heldBy, hdecode.read, hheld]
  cases h.log.covers .full with
  | true =>
      change Except.bind (Except.bind (legibility response.charset octets) _) _ =
        Except.bind (legibility response.charset octets) _
      cases legibility response.charset octets with
      | error fault => rfl
      | ok _ =>
          have hcopied : Body.read ⟨.copy n, .octets octets⟩ = .ok octets := rfl
          exact judge_withBody hreads hdecode hcopied
  | false =>
      have hstreamed : ({ body with holder := .stream n } : Body).read = .ok octets := hread
      exact judge_withBody hreads hdecode hstreamed

/-! ## The outcome of a call -/

/-- What a call comes to once a response is there whose body is to be decoded. -/
def decodedOutcome (h : Handler) (request : Request) (response : Response) (octets : Octets)
    (read : Response → Octets → Ty → Except Fault Value) : Except Fault Value :=
  (if h.log.covers .full then legibility response.charset octets else .ok ()).bind fun _ =>
    h.bodyOutcome request (response.answering request)
      (read (response.answering request) octets h.plan.returns)

theorem mayRetry_decodedOutcome (hreads : h.decoder.ReadsBy read) :
    mayRetry (h.decodedOutcome request response octets read) = false := by
  unfold decodedOutcome
  split
  · cases hlegible : legibility response.charset octets with
    | ok _ => exact mayRetry_bodyOutcome hreads
    | error fault =>
        obtain ⟨failure, -, rfl⟩ := legibility_eq_error hlegible
        rfl
  · exact mayRetry_bodyOutcome hreads

/-- An attempt receives nothing but the answer to its own request. -/
theorem received_of_mem_attempt
    (hreceived : .received k true ∈ (h.attempt network request options n).events) :
    k = n ∧ (h.log.request h.key request).outcome = .ok () := by
  cases hlog : (h.log.request h.key request).outcome with
  | error fault =>
      rw [attempt_of_unlogged h network request options n hlog] at hreceived
      exact absurd (ExchangeLog.isLine_of_mem_request hreceived) (by simp [Event.isLine])
  | ok _ =>
      refine ⟨?_, rfl⟩
      rw [attempt_of_logged h network request options n hlog, Traced.events_after] at hreceived
      rcases List.mem_append.mp hreceived with hbefore | hreceived
      · rcases List.mem_append.mp hbefore with hline | hsent
        · exact absurd (ExchangeLog.isLine_of_mem_request hline) (by simp [Event.isLine])
        · cases List.mem_singleton.mp hsent
      · cases hanswer : network n (h.transport.relay request) options with
        | error fault =>
            rw [hanswer] at hreceived
            exact absurd (h.isLine_of_mem_receive_error _ request n hreceived) (by simp [Event.isLine])
        | ok other =>
            rw [hanswer, receive_ok, Traced.events_after] at hreceived
            rcases List.mem_cons.mp hreceived with heq | hlater
            · exact (Event.received.inj heq).1
            · rcases h.mem_answered_events _ request n hlater with hline | ⟨holder, heq⟩
              · exact absurd hline (by simp [Event.isLine])
              · cases heq

theorem outcomeOfAttempt_of_isToDecode (hreads : h.decoder.ReadsBy read)
    (hlogged : (h.log.request h.key request).outcome = .ok ())
    (hanswer : network n (h.transport.relay request) options = .ok response)
    (hdecode : h.IsToDecode response octets) :
    h.outcomeOfAttempt network request options n = h.decodedOutcome request response octets read := by
  unfold outcomeOfAttempt
  rw [hlogged, hanswer]
  exact outcomeOfAnswer_of_isToDecode hreads hdecode

theorem outcomeOfAttempt_of_received (hreads : h.decoder.ReadsBy read)
    (hanswer : network k (h.transport.relay request) options = .ok response)
    (hdecode : h.IsToDecode response octets)
    (hreceived : .received k true ∈ (h.attempt network request options n).events) :
    h.outcomeOfAttempt network request options n = h.decodedOutcome request response octets read := by
  obtain ⟨rfl, hlogged⟩ := received_of_mem_attempt hreceived
  exact outcomeOfAttempt_of_isToDecode hreads hlogged hanswer hdecode

/-- The response whose body is decoded is the last one, and it decides attempts. -/
theorem outcome_attempts_of_received (hreads : h.decoder.ReadsBy read)
    (hanswer : network k (h.transport.relay request) options = .ok response)
    (hdecode : h.IsToDecode response octets) (n : Nat) (retryer : Retryer) :
    .received k true ∈ (h.attempts wait network request options n retryer).events →
      (h.attempts wait network request options n retryer).outcome =
        h.decodedOutcome request response octets read := by
  -- The attempt that receives the response comes to its outcome, after which there is no other.
  have hnone : ∀ {n fault}, h.outcomeOfAttempt network request options n = .error fault →
      fault.family.isRetryable = true →
      .received k true ∉ (h.attempt network request options n).events := by
    intro n fault hfault hretryable hreceived
    have hfinal : mayRetry (h.decodedOutcome request response octets read) = false :=
      mayRetry_decodedOutcome hreads
    rw [← outcomeOfAttempt_of_received hreads hanswer hdecode hreceived, hfault] at hfinal
    rw [mayRetry, hretryable] at hfinal
    cases hfinal
  have hnoneBefore : ∀ {n fault seconds},
      h.outcomeOfAttempt network request options n = .error fault →
      fault.family.isRetryable = true →
      .received k true ∉
        (h.attempt network request options n).events ++ h.pause fault seconds := by
    intro n fault seconds hfault hretryable hreceived
    rcases List.mem_append.mp hreceived with hattempt | hpause
    · exact hnone hfault hretryable hattempt
    · rcases h.mem_pause hpause with hline | hwaited
      · exact absurd hline (by simp [Event.isLine])
      · cases hwaited
  refine h.attempts_induction wait network request options
    (motive := fun _ _ x => .received k true ∈ x.events →
      x.outcome = h.decodedOutcome request response octets read)
    ?final ?exhausted ?unrested ?retry n retryer
  case final =>
    intro n retryer _ hreceived
    rw [outcome_attempt]
    exact outcomeOfAttempt_of_received hreads hanswer hdecode hreceived
  case exhausted =>
    intro n retryer fault last retryer' hfault hretryable _ hreceived
    exact absurd hreceived (hnone hfault hretryable)
  case unrested =>
    intro n retryer fault seconds retryer' failure hfault hretryable _ _ hreceived
    exact absurd hreceived (hnoneBefore hfault hretryable)
  case retry =>
    intro n retryer fault seconds retryer' hfault hretryable _ _ ih hreceived
    rw [Traced.events_after] at hreceived
    exact ih ((List.mem_append.mp hreceived).resolve_left (hnoneBefore hfault hretryable))

/-- A call comes to what the response says whose body is decoded. -/
theorem outcome_call_eq_decodedOutcome {arguments : List Value} (hreads : h.decoder.ReadsBy read)
    (hanswers : h.Answers network n arguments k request response)
    (hdecode : h.IsToDecode response octets) :
    (h.call network n arguments).outcome = h.decodedOutcome request response octets read := by
  obtain ⟨options, hprepare, hanswer⟩ := hanswers.answered
  have hreceived := hanswers.received
  rw [call_of_prepared hprepare] at hreceived ⊢
  exact outcome_attempts_of_received hreads hanswer hdecode n h.retryer.fresh hreceived

/--
A call that is answered by a response below the error threshold with a body that is not blank
comes to what the body is read as, told as a fault of decoding if it cannot be read and faults are
not unwrapped. There are two exceptions: at the full level of the log a body that its charset does
not read ends the call, and the body of a missing resource is discarded for the empty value, whether
or not the client asked for missing resources to be decoded.
-/
theorem outcome_call_of_answers {arguments : List Value} (hreads : h.decoder.ReadsBy read)
    (hanswers : h.Answers network n arguments k request response)
    (hdecode : h.IsToDecode response octets) :
    (h.call network n arguments).outcome =
        ((if h.log.covers .full then legibility response.charset octets else .ok ()).bind fun _ =>
          if response.status = 404 then .ok h.plan.returns.emptyValue
          else h.told request (response.answering request)
            (read (response.answering request) octets h.plan.returns)) ∧
      ∀ fault, h.policy = .none →
        h.told request (response.answering request)
          (read (response.answering request) octets h.plan.returns) = .error fault →
        fault.family.isError = true → fault.family = .decode := by
  refine ⟨outcome_call_eq_decodedOutcome hreads hanswers hdecode, ?_⟩
  intro fault hpolicy htold hisError
  cases hreading : read (response.answering request) octets h.plan.returns with
  | ok value =>
      rw [hreading] at htold
      cases htold
  | error reason =>
      rw [hreading, told, hpolicy] at htold
      split at htold
      next hown =>
        obtain rfl : reason = fault := Except.error.inj htold
        refine (hreads.family_of_error hreading).resolve_right fun hforeign => ?_
        simp [hforeign, hisError] at hown
      next =>
        rw [← Except.error.inj htold]
        rfl

end Handler

end Bodies

namespace Handler

open scoped CommonCharsets

/-! ## A method that reads text -/

/-- The handler of a method that reads text from responses below 500. -/
def textFetching : Handler :=
  fetching { plainSettings .none with errorThreshold := .int 500 } .text

/-- A response of two octets of text. -/
def brief (status : Int) : Response :=
  { status := status, body := some (.ofOctets [0x6f, 0x6b]) }

/-- The network that answers every request with a status and two octets of text. -/
def answering (status : Int) : Network := fun _ _ _ => .ok (brief status)

theorem readPlain_brief (status : Int) :
    Decoder.readPlain ((brief status).answering fetchingRequest) [0x6f, 0x6b] .text =
      .ok (.text "ok") := by
  have hcharset : ((brief status).answering fetchingRequest).charset = "utf-8" := rfl
  have htext : decodeOctets "utf-8" [0x6f, 0x6b] = .ok "ok" := by decide +kernel
  unfold Decoder.readPlain
  rw [hcharset, htext]
  rfl

theorem isToDecode_brief {status : Int} (hstatus : status = 200 ∨ status = 404) :
    textFetching.IsToDecode (brief status) [0x6f, 0x6b] where
  read := rfl
  notBlank := rfl
  below := by rcases hstatus with rfl | rfl <;> decide +kernel
  hasContent := by rcases hstatus with rfl | rfl <;> decide
  returnsValue := rfl
  returnsNoResponse := rfl

theorem answers_brief {status : Int} (hstatus : status = 200 ∨ status = 404) :
    textFetching.Answers (answering status) 0 [] 0 fetchingRequest (brief status) where
  answered := ⟨_, prepare_fetching_of_unchanged rfl [], rfl⟩
  received := by
    have hprepare : textFetching.prepare [] = .ok (fetchingRequest, Options.toValue {}) :=
      prepare_fetching_of_unchanged rfl []
    have hreads : textFetching.decoder.ReadsBy Decoder.readPlain := .usual
    have hlogged : (textFetching.log.request textFetching.key fetchingRequest).outcome = .ok () := by
      rw [ExchangeLog.outcome_request]
      rfl
    have hfinal : mayRetry (textFetching.outcomeOfAttempt (answering status) fetchingRequest
        (Options.toValue {}) 0) = false := by
      rw [outcomeOfAttempt_of_isToDecode hreads hlogged rfl (isToDecode_brief hstatus)]
      exact mayRetry_decodedOutcome hreads
    rw [call_of_prepared hprepare, attempts_of_final hfinal,
      attempt_of_logged _ _ _ _ _ hlogged, Traced.events_after]
    exact List.mem_append_right _ List.mem_cons_self

/-- A response below the threshold whose body is decoded. -/
theorem outcome_call_of_answers_found :
    (textFetching.call (answering 200) 0 []).outcome = .ok (.text "ok") := by
  have hreads : textFetching.decoder.ReadsBy Decoder.readPlain := .usual
  obtain ⟨houtcome, -⟩ := outcome_call_of_answers hreads (answers_brief (Or.inl rfl))
    (isToDecode_brief (Or.inl rfl))
  have htold : textFetching.told fetchingRequest ((brief 200).answering fetchingRequest)
      (Decoder.readPlain ((brief 200).answering fetchingRequest) [0x6f, 0x6b] .text) =
        .ok (.text "ok") := by
    rw [readPlain_brief]
    rfl
  exact houtcome.trans htold

/-- The body of a missing resource is discarded, although its status is below the threshold. -/
theorem discards_missing :
    textFetching.decode404.isOn = false ∧
      textFetching.IsToDecode (brief 404) [0x6f, 0x6b] ∧
      textFetching.Answers (answering 404) 0 [] 0 fetchingRequest (brief 404) ∧
      Decoder.readPlain ((brief 404).answering fetchingRequest) [0x6f, 0x6b] .text =
        .ok (.text "ok") ∧
      (textFetching.call (answering 404) 0 []).outcome = .ok .null := by
  refine ⟨rfl, isToDecode_brief (Or.inr rfl), answers_brief (Or.inr rfl), readPlain_brief 404, ?_⟩
  have hreads : textFetching.decoder.ReadsBy Decoder.readPlain := .usual
  rw [outcome_call_eq_decodedOutcome hreads (answers_brief (Or.inr rfl)) (isToDecode_brief (Or.inr rfl))]
  rfl

end Handler

end HttpBinding
