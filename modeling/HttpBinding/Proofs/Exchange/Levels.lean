import HttpBinding.Octets.Charset
import HttpBinding.Proofs.Exchange.Bodies
import HttpBinding.Proofs.Exchange.Transcript

/-!
# What the levels of a log show

At every level the log of a call tells of the same exchanges, so a level shows what the levels
below it show and more. The exception is the number of octets in the line that ends a
response: it is true at the full level, whereas the headers level names none.
-/

namespace HttpBinding

namespace Handler

section Calls

variable [Charsets] {h : Handler} {wait : Waiting} {network : Network} {request : Request}
  {options : Value} {n : Nat} {level : LogLevel}

/-! ## What is logged of attempts -/

/--
Attempts with a request all of whose bodies can be logged as text, by a handler that takes
the copies for the bodies themselves.
-/
structure LogsBodies (h : Handler) (network : Network) (request : Request) (options : Value) :
    Prop where
  ignoresHolders : h.IgnoresHolders
  legible : legibility request.charset (request.body.getD []) = .ok ()
  answers : ∀ n response, network n (h.transport.relay request) options = .ok response →
    response.legibility = .ok ()

/-- The times that the answers take of the network to a request that is sent again and again. -/
def elapsedFrom (h : Handler) (n : Nat) : Nat → Nat :=
  fun i => (h.clock.sightOf (n + i)).elapsed

omit [Charsets] in
theorem elapsedFrom_succ (n : Nat) :
    (fun i => h.elapsedFrom n (i + 1)) = h.elapsedFrom (n + 1) := by
  funext i
  unfold elapsedFrom
  rw [Nat.add_assoc, Nat.add_comm 1 i]

/-- The exchange with the network of the attempt that sends the request as number `n`. -/
def exchangeAt (h : Handler) (network : Network) (request : Request) (options : Value) (n : Nat)
    (retried : Option (Fault × Quantity)) : Exchange :=
  ⟨h.answersFrom network request options n 0, h.elapsedFrom n 0, retried⟩

/-- The lines that a level of the log has of attempts, if it names these numbers of octets. -/
def linesAt (h : Handler) (level : LogLevel) (request : Request) (size : Response → Nat)
    (exchanges : List Exchange) : List Event :=
  Remark.lines (h.atLevel level).log h.key (Remark.transcript request size exchanges)

theorem linesAt_cons (size : Response → Nat) (exchange : Exchange) (rest : List Exchange) :
    h.linesAt level request size (exchange :: rest) =
      Remark.lines (h.atLevel level).log h.key (Remark.ofExchange request size exchange) ++
        h.linesAt level request size rest := by
  unfold linesAt Remark.transcript
  rw [List.flatMap_cons, Remark.lines_append]

theorem lines_attempt_atLevel (hlogs : level = .full → h.LogsBodies network request options)
    (retried : Option (Fault × Quantity)) :
    ((h.atLevel level).attempt network request options n).lines ++
        Remark.lines (h.atLevel level).log h.key (Remark.ofRetry retried) =
      Remark.lines (h.atLevel level).log h.key (Remark.ofExchange request
        (h.atLevel level).log.shownSize (h.exchangeAt network request options n retried)) := by
  have hfull : (h.atLevel level).log.covers .full = true →
      h.LogsBodies network request options :=
    fun hcovers => hlogs ((ExchangeLog.covers_full_iff _).mp hcovers)
  have hanswers : (h.atLevel level).log.covers .full = true → ∀ response,
      network n ((h.atLevel level).transport.relay request) options = .ok response →
        response.legibility = .ok () :=
    fun hcovers => (hfull hcovers).answers n
  rw [lines_attempt (fun hcovers => (hfull hcovers).legible) hanswers, Remark.ofExchange,
    ← List.append_assoc (Remark.ofRequest request), Remark.lines_append (_ ++ _)]
  rfl

/-- What an attempt at a level comes to is what it comes to without a log. -/
theorem LogsBodies.outcomeOfAttempt (hlogs : level = .full → h.LogsBodies network request options) :
    (h.atLevel level).outcomeOfAttempt network request options n =
      (h.atLevel .none).outcomeOfAttempt network request options n :=
  outcomeOfAttempt_of_legible (fun hfull => (hlogs hfull).ignoresHolders)
    (fun hfull => (hlogs hfull).legible) (fun hfull => (hlogs hfull).answers n)

/-- The lines of an attempt that no other follows are those of an exchange of its own. -/
theorem lines_lastAttempt (hlogs : level = .full → h.LogsBodies network request options) :
    ((h.atLevel level).attempt network request options n).lines =
      h.linesAt level request (h.atLevel level).log.shownSize
        [h.exchangeAt network request options n none] := by
  rw [linesAt_cons, ← lines_attempt_atLevel hlogs none, List.append_assoc]
  exact (List.append_nil _).symm

/-- The lines of an attempt and of the pause after it. -/
theorem lines_before_next (hlogs : level = .full → h.LogsBodies network request options)
    (fault : Fault) (seconds : Quantity) :
    (((h.atLevel level).attempt network request options n).events ++
        (h.atLevel level).pause fault seconds).filter Event.isLine =
      Remark.lines (h.atLevel level).log h.key (Remark.ofExchange request
        (h.atLevel level).log.shownSize
        (h.exchangeAt network request options n (some (fault, seconds)))) := by
  rw [List.filter_append, lines_pause, ← lines_attempt_atLevel hlogs (some (fault, seconds))]
  rfl

/-- Exchanges that are answered as the requests of an action are by the network, in order. -/
structure AreOf (exchanges : List Exchange) (h : Handler) (network : Network) (request : Request)
    (options : Value) (n sends : Nat) : Prop where
  answers : exchanges.map Exchange.answer =
    (List.range sends).map (h.answersFrom network request options n)
  millis : exchanges.map Exchange.millis = (List.range sends).map (h.elapsedFrom n)

omit [Charsets] in
theorem areOf_single {sends : Nat} (hsends : sends = 1) (retried : Option (Fault × Quantity)) :
    AreOf [h.exchangeAt network request options n retried] h network request options n sends where
  answers := by
    rw [hsends]
    rfl
  millis := by
    rw [hsends]
    rfl

omit [Charsets] in
theorem AreOf.cons {exchanges : List Exchange} {sends more : Nat} (hsends : sends = 1 + more)
    (hrest : AreOf exchanges h network request options (n + 1) more)
    (retried : Option (Fault × Quantity)) :
    AreOf (h.exchangeAt network request options n retried :: exchanges) h network request options n
      sends where
  answers := by
    rw [hsends, Nat.add_comm, List.range_succ_eq_map, List.map_cons,
      List.map_cons, List.map_map, hrest.answers, ← answersFrom_succ]
    rfl
  millis := by
    rw [hsends, Nat.add_comm, List.range_succ_eq_map, List.map_cons,
      List.map_cons, List.map_map, hrest.millis, ← elapsedFrom_succ]
    rfl

/--
Whatever the level, the log of attempts tells of the same exchanges: as many as there are
requests without a log, with the answers of the network in order and the times that they take.
-/
theorem lines_attempts (h : Handler) (wait : Waiting) (network : Network) (request : Request)
    (options : Value) (n : Nat) (retryer : Retryer) :
    ∃ exchanges : List Exchange,
      AreOf exchanges h network request options n
        ((h.atLevel .none).attempts wait network request options n retryer).sends ∧
      ∀ level, (level = .full → h.LogsBodies network request options) →
        ((h.atLevel level).attempts wait network request options n retryer).lines =
          h.linesAt level request (h.atLevel level).log.shownSize exchanges := by
  have hone : ∀ n, ((h.atLevel .none).attempt network request options n).sends = 1 := by
    intro n
    rw [Traced.sends_eq_countP_outward, outward_attempt_quiet]
    rfl
  have hquiet : ∀ n fault seconds,
      (((h.atLevel .none).attempt network request options n).events ++
        (h.atLevel .none).pause fault seconds).countP Event.isSent = 1 :=
    (h.atLevel .none).countP_before_next network request options logged_quiet
  refine (h.atLevel .none).attempts_induction wait network request options
    (motive := fun n retryer x => ∃ exchanges : List Exchange,
      AreOf exchanges h network request options n x.sends ∧
      ∀ level, (level = .full → h.LogsBodies network request options) →
        ((h.atLevel level).attempts wait network request options n retryer).lines =
          h.linesAt level request (h.atLevel level).log.shownSize exchanges)
    ?final ?exhausted ?unrested ?retry n retryer
  case final =>
    intro n retryer hfinal
    refine ⟨_, areOf_single (hone n) none, fun level hlogs => ?_⟩
    rw [attempts_of_final (by rw [LogsBodies.outcomeOfAttempt hlogs]; exact hfinal)]
    exact lines_lastAttempt hlogs
  case exhausted =>
    intro n retryer fault last retryer' hfault hretryable hnext
    refine ⟨[h.exchangeAt network request options n none], ?_, fun level hlogs => ?_⟩
    · exact areOf_single (hone n) none
    rw [attempts_of_exhausted ((LogsBodies.outcomeOfAttempt hlogs).trans hfault) hretryable hnext]
    exact lines_lastAttempt hlogs
  case unrested =>
    intro n retryer fault seconds retryer' failure hfault hretryable hnext hunrested
    refine ⟨[h.exchangeAt network request options n (some (fault, seconds))], ?_,
      fun level hlogs => ?_⟩
    · exact areOf_single (hquiet n fault seconds) (some (fault, seconds))
    rw [attempts_of_unrested ((LogsBodies.outcomeOfAttempt hlogs).trans hfault) hretryable hnext
      hunrested, linesAt_cons, ← lines_before_next hlogs fault seconds]
    exact (List.append_nil _).symm
  case retry =>
    rintro n retryer fault seconds retryer' hfault hretryable hnext hrested
      ⟨exchanges, hrest, hlines⟩
    refine ⟨h.exchangeAt network request options n (some (fault, seconds)) :: exchanges, ?_,
      fun level hlogs => ?_⟩
    · rw [Traced.sends_after, hquiet]
      exact hrest.cons rfl (some (fault, seconds))
    rw [attempts_of_retry ((LogsBodies.outcomeOfAttempt hlogs).trans hfault) hretryable hnext
      hrested, Traced.lines_after, lines_before_next hlogs, hlines level hlogs, linesAt_cons]

/-- Only the level at which ends of responses are logged and bodies are not can miscount. -/
theorem linesAt_shownSize_eq_iff {request : Request} {exchanges : List Exchange} :
    h.linesAt level request (h.atLevel level).log.shownSize exchanges =
        h.linesAt level request Response.size exchanges ↔
      (level = .headers → ∀ exchange ∈ exchanges, ∀ response, exchange.answer = .ok response →
        response.size = 0) := by
  unfold linesAt
  rw [Remark.lines_transcript_eq_iff]
  cases level with
  | none => simp [ExchangeLog.covers, atLevel]
  | basic => simp [ExchangeLog.covers, atLevel, LogLevel.rank]
  | headers =>
      have hsize : (h.atLevel .headers).log.shownSize = fun _ => 0 := rfl
      have hcovers : (h.atLevel .headers).log.covers .headers = true := rfl
      rw [hsize, hcovers]
      simp only [forall_const, eq_comm]
  | full =>
      have hsize : (h.atLevel .full).log.shownSize = Response.size := rfl
      simp [hsize]

theorem linesAt_basic_eq (request : Request) (exchanges : List Exchange)
    (size size' : Response → Nat) :
    h.linesAt .basic request size exchanges = h.linesAt .basic request size' exchanges :=
  Remark.lines_transcript_eq_iff.mpr fun habsurd => absurd habsurd Bool.false_ne_true

/-! ## What levels of a log have in common -/

/--
All levels of a log tell of the same exchanges of a call, each of them what the levels below it
tell and more, except that the octets of the bodies of responses are not counted at the
headers level. The counts are true at that level exactly when no response has any octets.
-/
theorem lines_call (h : Handler) (network : Network) (n : Nat) (arguments : List Value) :
    match h.prepare arguments with
    | .error _ => ∀ level, ((h.atLevel level).call network n arguments).lines = []
    | .ok (request, options) =>
      ∃ exchanges : List Exchange,
        AreOf exchanges h network request options n
          ((h.atLevel .none).call network n arguments).sends ∧
        (∀ level, (level = .full → h.LogsBodies network request options) →
          ((h.atLevel level).call network n arguments).lines =
              h.linesAt level request (h.atLevel level).log.shownSize exchanges ∧
            (((h.atLevel level).call network n arguments).lines =
                h.linesAt level request Response.size exchanges ↔
              (level = .headers → ∀ exchange ∈ exchanges, ∀ response,
                exchange.answer = .ok response → response.size = 0))) ∧
        (((h.atLevel .basic).call network n arguments).lines.Sublist
          ((h.atLevel .headers).call network n arguments).lines) ∧
        (h.LogsBodies network request options →
          (h.linesAt .headers request Response.size exchanges).Sublist
            ((h.atLevel .full).call network n arguments).lines) := by
  rcases hprepare : h.prepare arguments with fault | ⟨request, options⟩
  · intro level
    rw [call_of_unprepared (h := h.atLevel level) hprepare]
    rfl
  obtain ⟨exchanges, hanswers, hlines⟩ :=
    lines_attempts h h.waits network request options n h.retryer.fresh
  have hcall : ∀ level, (h.atLevel level).call network n arguments =
      (h.atLevel level).attempts h.waits network request options n h.retryer.fresh := by
    intro level
    rw [call_of_prepared (h := h.atLevel level) hprepare]
    rfl
  simp only [hcall]
  refine ⟨exchanges, hanswers, fun level hlogs => ?_, ?_, fun hlogs => ?_⟩
  · rw [hlines level hlogs]
    exact ⟨rfl, linesAt_shownSize_eq_iff⟩
  · rw [hlines .basic LogLevel.noConfusion, hlines .headers LogLevel.noConfusion,
      linesAt_basic_eq request exchanges _ (h.atLevel .headers).log.shownSize]
    exact Remark.lines_sublist (by decide) _
  · rw [hlines .full fun _ => hlogs]
    exact Remark.lines_sublist (by decide) _

end Calls

open scoped CommonCharsets

/-! ## A response with two octets -/

theorem readsOwn_textFetching (status : Int) : textFetching.ReadsOwn (answering status) where
  decoder := .usual
  errorDecoder := rfl
  bodies n request options response hanswer := by
    rw [← Except.ok.inj hanswer]
    exact ⟨_, rfl⟩

theorem logsBodies_textFetching :
    textFetching.LogsBodies (answering 200) fetchingRequest (Options.toValue {}) where
  ignoresHolders := (readsOwn_textFetching 200).ignoresHolders
  legible := rfl
  answers n response hanswer := by
    rw [← Except.ok.inj hanswer]
    decide +kernel

theorem call_textFetching (level : LogLevel) :
    (textFetching.atLevel level).call (answering 200) 0 [] =
      (textFetching.atLevel level).attempt (answering 200) fetchingRequest (Options.toValue {})
        0 := by
  have hprepare : (textFetching.atLevel level).prepare [] =
      .ok (fetchingRequest, Options.toValue {}) :=
    prepare_fetching_of_unchanged rfl []
  have hreads : textFetching.decoder.ReadsBy Decoder.readPlain := .usual
  have hlogged : (textFetching.log.request textFetching.key fetchingRequest).outcome = .ok () :=
    logged_quiet (h := textFetching)
  have hquiet : (textFetching.atLevel .none).outcomeOfAttempt (answering 200) fetchingRequest
      (Options.toValue {}) 0 = textFetching.decodedOutcome fetchingRequest (brief 200) [0x6f, 0x6b]
        Decoder.readPlain :=
    outcomeOfAttempt_of_isToDecode hreads hlogged rfl (isToDecode_brief (Or.inl rfl))
  have hfinal : mayRetry ((textFetching.atLevel level).outcomeOfAttempt (answering 200)
      fetchingRequest (Options.toValue {}) 0) = false := by
    rw [LogsBodies.outcomeOfAttempt fun _ => logsBodies_textFetching, hquiet]
    exact mayRetry_decodedOutcome hreads
  rw [call_of_prepared hprepare, attempts_of_final hfinal]

theorem lines_textFetching (level : LogLevel) :
    ((textFetching.atLevel level).call (answering 200) 0 []).lines =
      textFetching.linesAt level fetchingRequest (textFetching.atLevel level).log.shownSize
        [⟨.ok (brief 200), 0, none⟩] := by
  rw [call_textFetching]
  exact lines_lastAttempt fun _ => logsBodies_textFetching

theorem ofBody_brief :
    Remark.ofBody (brief 200).charset ((brief 200).read.toOption.getD []) = [⟨.full, "ok"⟩] := by
  have hcharset : (brief 200).charset = "utf-8" := rfl
  have hread : (brief 200).read = .ok [0x6f, 0x6b] := rfl
  have htext : decodeOctets "utf-8" [0x6f, 0x6b] = .ok "ok" := by decide +kernel
  rw [hcharset, hread, Remark.ofBody]
  change [(⟨.full, (decodeOctets "utf-8" [0x6f, 0x6b]).toOption.getD ""⟩ : Remark)] = _
  rw [htext]
  rfl

theorem linesAt_textFetching_headers :
    textFetching.linesAt .headers fetchingRequest (textFetching.atLevel .headers).log.shownSize
        [⟨.ok (brief 200), 0, none⟩] =
      ["[Api#data()] ---> GET http://api.test HTTP/1.1",
        "[Api#data()] ---> END HTTP (0-byte body)",
        "[Api#data()] <--- HTTP/1.1 200 (0ms)",
        "[Api#data()] <--- END HTTP (0-byte body)"].map (.logged ExchangeLog.usualLogger) := by
  rfl

theorem linesAt_textFetching_full :
    textFetching.linesAt .full fetchingRequest (textFetching.atLevel .full).log.shownSize
        [⟨.ok (brief 200), 0, none⟩] =
      ["[Api#data()] ---> GET http://api.test HTTP/1.1",
        "[Api#data()] ---> END HTTP (0-byte body)",
        "[Api#data()] <--- HTTP/1.1 200 (0ms)",
        "[Api#data()] ok",
        "[Api#data()] <--- END HTTP (2-byte body)"].map (.logged ExchangeLog.usualLogger) := by
  rw [linesAt_cons, Remark.ofExchange, Remark.ofAnswer, Remark.ofResponse, ofBody_brief]
  rfl

/-- At the headers level two octets are told to be none, in a line that the full level has not. -/
theorem headers_level_miscounts :
    textFetching.LogsBodies (answering 200) fetchingRequest (Options.toValue {}) ∧
      (brief 200).size = 2 ∧
      ((textFetching.atLevel .headers).call (answering 200) 0 []).lines =
        ["[Api#data()] ---> GET http://api.test HTTP/1.1",
          "[Api#data()] ---> END HTTP (0-byte body)",
          "[Api#data()] <--- HTTP/1.1 200 (0ms)",
          "[Api#data()] <--- END HTTP (0-byte body)"].map (.logged ExchangeLog.usualLogger) ∧
      ¬((textFetching.atLevel .headers).call (answering 200) 0 []).lines.Sublist
        ((textFetching.atLevel .full).call (answering 200) 0 []).lines := by
  rw [lines_textFetching, lines_textFetching, linesAt_textFetching_headers,
    linesAt_textFetching_full]
  refine ⟨logsBodies_textFetching, rfl, rfl, fun hsublist => ?_⟩
  have hline : Event.logged ExchangeLog.usualLogger "[Api#data()] <--- END HTTP (0-byte body)" ∈ _ :=
    hsublist.subset (by simp)
  simp at hline

/-- With the same two octets the full level counts right and the headers level does not. -/
theorem lines_call_twoOctets :
    textFetching.LogsBodies (answering 200) fetchingRequest (Options.toValue {}) ∧
      ∃ exchanges : List Exchange,
        exchanges.map Exchange.answer = [.ok (brief 200)] ∧
        ((textFetching.atLevel .full).call (answering 200) 0 []).lines =
          textFetching.linesAt .full fetchingRequest Response.size exchanges ∧
        ((textFetching.atLevel .headers).call (answering 200) 0 []).lines ≠
          textFetching.linesAt .headers fetchingRequest Response.size exchanges ∧
        (textFetching.linesAt .headers fetchingRequest Response.size exchanges).Sublist
          ((textFetching.atLevel .full).call (answering 200) 0 []).lines := by
  have hprepare : textFetching.prepare [] = .ok (fetchingRequest, Options.toValue {}) :=
    prepare_fetching_of_unchanged rfl []
  have hcall := lines_call textFetching (answering 200) 0 []
  rw [hprepare] at hcall
  obtain ⟨exchanges, hof, hlevels, -, hfull⟩ := hcall
  have hsends : ((textFetching.atLevel .none).call (answering 200) 0 []).sends = 1 := by
    rw [call_textFetching, Traced.sends_eq_countP_outward, outward_attempt_quiet]
    rfl
  rw [hsends] at hof
  have hanswers : exchanges.map Exchange.answer = [.ok (brief 200)] := hof.answers
  obtain ⟨exchange, hexchange, hanswer⟩ :
      ∃ exchange ∈ exchanges, exchange.answer = .ok (brief 200) := by
    refine List.mem_map.mp ?_
    rw [hanswers]
    exact List.mem_cons_self
  refine ⟨logsBodies_textFetching, exchanges, hanswers, ?_, fun hcounts => ?_,
    hfull logsBodies_textFetching⟩
  · exact (hlevels .full fun _ => logsBodies_textFetching).2.mpr LogLevel.noConfusion
  · have hnone := (hlevels .headers LogLevel.noConfusion).2.mp hcounts rfl exchange hexchange _
      hanswer
    cases hnone

end Handler

end HttpBinding
