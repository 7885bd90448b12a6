import HttpBinding.Octets.Charset
import HttpBinding.Proofs.Codec.Unheld
import HttpBinding.Proofs.Exchange.Fetching
import HttpBinding.Proofs.Exchange.Succession

/-!
# What logging changes

Two clients that differ in the level of their logs only send the same requests,
wait the same times and come to the same end, with one exception: at the full level
a body is read as text on behalf of the log. A body that its charset does not read then
ends the call, whatever the decoder would have made of it. So the full level goes
unnoticed exactly when every body is legible, or when an illegible one ends the call
in the same way without the log.
-/

namespace HttpBinding

/-- Two outcomes with the same value, or with faults of the same class and wording. -/
def SameEnding : Except Fault Value → Except Fault Value → Prop
  | .ok value, .ok value' => value = value'
  | .error fault, .error fault' => fault.name = fault'.name ∧ fault.message = fault'.message
  | _, _ => False

theorem SameEnding.refl (outcome : Except Fault Value) : SameEnding outcome outcome := by
  cases outcome with
  | ok value => rfl
  | error fault => exact ⟨rfl, rfl⟩

theorem SameEnding.symm {first second : Except Fault Value} (h : SameEnding first second) :
    SameEnding second first := by
  cases first with
  | ok value =>
      cases second with
      | ok value' => exact Eq.symm h
      | error fault => exact h
  | error fault =>
      cases second with
      | ok value => exact h
      | error fault' => exact ⟨h.1.symm, h.2.symm⟩

theorem SameEnding.trans {first second third : Except Fault Value} (h : SameEnding first second)
    (h' : SameEnding second third) : SameEnding first third := by
  cases first <;> cases second <;> cases third
  all_goals first | exact h.elim | exact h'.elim | skip
  · exact ⟨h.1.trans h'.1, h.2.trans h'.2⟩
  · exact Eq.trans h h'

/-- Two calls that other parties cannot tell apart and that come to the same end. -/
structure Agree (x y : Traced Value) : Prop where
  outward : x.outward = y.outward
  ending : SameEnding x.outcome y.outcome

namespace Agree

variable {x y z : Traced Value}

theorem refl (x : Traced Value) : Agree x x :=
  ⟨rfl, .refl _⟩

theorem symm (h : Agree x y) : Agree y x :=
  ⟨h.outward.symm, h.ending.symm⟩

theorem trans (h : Agree x y) (h' : Agree y z) : Agree x z :=
  ⟨h.outward.trans h'.outward, h.ending.trans h'.ending⟩

theorem after_iff {first second : List Event}
    (hfirst : first.filter Event.isOutward = second.filter Event.isOutward) :
    Agree (x.after first) (y.after second) ↔ Agree x y := by
  constructor
  · intro h
    refine ⟨?_, h.ending⟩
    have houtward := h.outward
    rw [Traced.outward_after, Traced.outward_after, hfirst] at houtward
    exact List.append_cancel_left houtward
  · intro h
    refine ⟨?_, h.ending⟩
    rw [Traced.outward_after, Traced.outward_after, hfirst, h.outward]

end Agree

/-- Whether the last thing that other parties see of an action is a request. -/
def Traced.endsSending (x : Traced Value) : Bool :=
  x.outward.getLast?.any Event.isSent

/-- Where one request is sent first, nothing follows it if it is also last. -/
theorem Traced.endsSending_iff {x : Traced Value} {first : Event} {rest : List Event}
    (houtward : x.outward = first :: rest) (hfirst : first.isSent = true)
    (hrest : ∀ e ∈ rest, e.isSent = false) : x.endsSending = true ↔ rest = [] := by
  unfold endsSending
  rw [houtward]
  cases hlast : rest.getLast? with
  | none =>
      obtain rfl := List.getLast?_eq_none_iff.mp hlast
      simp [hfirst]
  | some last =>
      have hmem : last ∈ rest := List.mem_of_getLast? hlast
      simp [List.getLast?_cons, hlast, hrest last hmem, List.ne_nil_of_mem hmem]

section Harmless

variable [Charsets]

/-- What reading the body of a response as text comes to. Without octets it is always legible. -/
def Response.legibility (r : Response) : Except Fault Unit := do
  let octets ← r.read
  HttpBinding.legibility r.charset octets

/--
An action none of whose requests is answered by an illegible body, except that the last one
may be if the action ends with it, and as it would when that body is logged.
-/
def Harmless (answers : Nat → Except Fault Response) (x : Traced Value) : Prop :=
  ∀ i < x.sends, ∀ response, answers i = .ok response →
    response.legibility = .ok () ∨
      i + 1 = x.sends ∧ x.endsSending = true ∧ ∃ fault, response.legibility = .error fault ∧
        SameEnding (.error fault) x.outcome

namespace Harmless

variable {answers : Nat → Except Fault Response} {x : Traced Value}

theorem single_iff (hsends : x.sends = 1) :
    Harmless answers x ↔ ∀ response, answers 0 = .ok response →
      response.legibility = .ok () ∨
        x.endsSending = true ∧ ∃ fault, response.legibility = .error fault ∧
          SameEnding (.error fault) x.outcome := by
  constructor
  · intro h response hanswer
    exact (h 0 (by omega) response hanswer).imp_right And.right
  · intro h i hi response hanswer
    obtain rfl : i = 0 := by omega
    exact (h response hanswer).imp_right fun hfault => ⟨hsends.symm, hfault⟩

omit [Charsets] in
theorem endsSending_after {events : List Event} (hmore : 1 ≤ x.sends) :
    (x.after events).endsSending = x.endsSending := by
  have hsome : x.outward ≠ [] := by
    intro hnil
    rw [Traced.sends_eq_countP_outward, hnil] at hmore
    exact Nat.not_succ_le_zero 0 hmore
  unfold Traced.endsSending
  rw [Traced.outward_after, List.getLast?_append_of_ne_nil _ hsome]

/-- Of attempts that are not the last one every body has to be legible. -/
theorem after_iff {events : List Event} (hone : events.countP Event.isSent = 1)
    (hmore : 1 ≤ x.sends) :
    Harmless answers (x.after events) ↔
      (∀ response, answers 0 = .ok response → response.legibility = .ok ()) ∧
        Harmless (fun i => answers (i + 1)) x := by
  have hsends : (x.after events).sends = x.sends + 1 := by
    rw [Traced.sends_after, hone, Nat.add_comm]
  unfold Harmless
  rw [hsends, endsSending_after hmore]
  constructor
  · intro h
    refine ⟨?_, ?_⟩
    · intro response hanswer
      rcases h 0 (Nat.succ_pos _) response hanswer with hlegible | ⟨hlast, -⟩
      · exact hlegible
      · omega
    · intro i hi response hanswer
      refine (h (i + 1) (Nat.succ_lt_succ hi) response hanswer).imp_right fun hlast => ?_
      exact ⟨Nat.succ.inj hlast.1, hlast.2⟩
  · rintro ⟨hfirst, hrest⟩ i hi response hanswer
    cases i with
    | zero => exact Or.inl (hfirst response hanswer)
    | succ i =>
        refine (hrest i (Nat.lt_of_succ_lt_succ hi) response hanswer).imp_right fun hlast => ?_
        exact ⟨congrArg (· + 1) hlast.1, hlast.2⟩

end Harmless

end Harmless

namespace Handler

/-- The handler with another level of its log. -/
def atLevel (h : Handler) (level : LogLevel) : Handler :=
  { h with log := { h.log with level := level } }

variable {h : Handler} {sight : Sight} {wait : Waiting} {network : Network} {request : Request}
  {options : Value} {n : Nat} {level : LogLevel}

/-! ## Judging responses -/

theorem unheld_copy {r : Response} {octets : Octets} {holder : Holder}
    (hread : r.read = .ok octets) (hbody : r.body.isSome = true) :
    ({ r with body := some ⟨holder, .octets octets⟩ } : Response).unheld = r.unheld := by
  obtain ⟨body, hsome⟩ := Option.isSome_iff_exists.mp hbody
  have hcontent : body.content = .octets octets := by
    unfold Response.read Body.read at hread
    rw [hsome] at hread
    dsimp only at hread
    split at hread
    next other hother => rw [hother, Except.ok.inj hread]
    next => cases hread
  unfold Response.unheld
  rw [hsome]
  dsimp only [Option.map]
  rw [hcontent]

/-- A handler with decoders of this library, on a network whose bodies can be read. -/
structure ReadsOwn [Charsets] (h : Handler) (network : Network) : Prop where
  decoder : h.decoder.IsOwn
  errorDecoder : h.errorDecoder = .usual
  bodies : ∀ n request options response, network n request options = .ok response →
    ∃ octets, response.read = .ok octets

/-- A handler whose decoders make no difference between bodies that are held in different places. -/
structure IgnoresHolders (h : Handler) : Prop where
  decode_unheld : ∀ response declared,
    h.decoder.decode response.unheld declared = h.decoder.decode response declared
  decodeError_unheld : ∀ now response,
    h.errorDecoder.decode now h.key response.unheld = h.errorDecoder.decode now h.key response

theorem ReadsOwn.ignoresHolders [Charsets] (hown : h.ReadsOwn network) : h.IgnoresHolders where
  decode_unheld := hown.decoder.decode_unheld
  decodeError_unheld now response := by
    rw [hown.errorDecoder]
    exact ErrorDecoder.decodeUsual_unheld ..

/-- The outcome of a response does not depend on where its body is held. -/
theorem judge_unheld (hignores : h.IgnoresHolders) (now : Moment) (response : Response) :
    (h.judge now request response.unheld).1 = (h.judge now request response).1 := by
  have hdecode : h.decode request response.unheld = h.decode request response := by
    unfold decode
    rw [hignores.decode_unheld]
    rfl
  have hdecodeError : h.decodeError now response.unheld = h.decodeError now response := by
    unfold decodeError
    rw [hignores.decodeError_unheld]
  unfold judge
  rw [Response.buffered_unheld, Response.status_unheld, hdecode, hdecodeError]

section Levels

variable [Charsets]

/-- A response that can be logged is judged as it is without a log. -/
theorem outcomeOfAnswer_of_legible (hignores : level = .full → h.IgnoresHolders)
    {response : Response}
    (hlegible : level = .full → response.legibility = .ok ()) :
    (h.atLevel level).outcomeOfAnswer sight request n (.ok response) =
      (h.judge sight.now request ((heldBy n response).answering request)).1 := by
  rw [outcomeOfAnswer_ok, ExchangeLog.outcome_response]
  split
  next hfull =>
    obtain ⟨hcovers, hbody⟩ := Bool.and_eq_true_iff.mp hfull
    have hlevel : level = .full := (ExchangeLog.covers_full_iff _).mp hcovers
    have hsame := hignores hlevel
    have htext := hlegible hlevel
    unfold Response.legibility at htext
    cases hread : response.read with
    | error fault =>
        rw [hread] at htext
        cases htext
    | ok octets =>
        rw [hread] at htext
        change legibility response.charset octets = .ok () at htext
        have hheld : (heldBy n response).read = .ok octets := by rw [read_heldBy, hread]
        have hcharset : (heldBy n response).charset = response.charset := rfl
        rw [hheld, hcharset]
        change Except.bind (Except.bind (legibility response.charset octets) _) _ = _
        rw [htext]
        -- Both responses have the same octets, one in a copy and one on the stream.
        change (h.judge sight.now request (Response.answering { heldBy n response with
          body := some ⟨.copy n, .octets octets⟩ } request)).1 = _
        rw [← judge_unheld hsame, ← judge_unheld hsame _ ((heldBy n response).answering request)]
        congr 2
        exact unheld_copy (r := (heldBy n response).answering request) hheld hbody
  next => rfl

theorem outcomeOfAnswer_quiet (response : Response) :
    (h.atLevel .none).outcomeOfAnswer sight request n (.ok response) =
      (h.judge sight.now request ((heldBy n response).answering request)).1 :=
  outcomeOfAnswer_of_legible (fun habsurd => LogLevel.noConfusion habsurd)
    fun habsurd => LogLevel.noConfusion habsurd

/-- A response that cannot be logged ends the attempt. -/
theorem outcomeOfAnswer_of_illegible {response : Response} {fault : Fault}
    (hillegible : response.legibility = .error fault) :
    (h.atLevel .full).outcomeOfAnswer sight request n (.ok response) = .error fault := by
  have hbody : (heldBy n response).body.isSome = true := by
    cases hnone : response.body with
    | none =>
        unfold Response.legibility Response.read at hillegible
        rw [hnone] at hillegible
        cases hillegible
    | some body =>
        unfold heldBy
        rw [hnone]
        rfl
  have hcovers : (h.atLevel .full).log.covers .full = true :=
    (ExchangeLog.covers_full_iff _).mpr rfl
  rw [outcomeOfAnswer_ok, ExchangeLog.outcome_response,
    if_pos (by rw [hcovers, hbody]; rfl), read_heldBy]
  unfold Response.legibility at hillegible
  cases hread : response.read with
  | error other =>
      rw [hread] at hillegible
      obtain rfl : other = fault := Except.error.inj hillegible
      rfl
  | ok octets =>
      rw [hread] at hillegible
      change legibility response.charset octets = .error fault at hillegible
      change Except.bind (Except.bind (legibility response.charset octets) _) _ = _
      rw [hillegible]
      rfl

/-! ## Attempts at a level -/

theorem logged_atLevel
    (hrequest : level = .full → legibility request.charset (request.body.getD []) = .ok ()) :
    ((h.atLevel level).log.request (h.atLevel level).key request).outcome = .ok () := by
  rw [ExchangeLog.outcome_request]
  split
  next hcovers => exact hrequest ((ExchangeLog.covers_full_iff _).mp hcovers)
  next => rfl

theorem outward_attempt_atLevel
    (hrequest : level = .full → legibility request.charset (request.body.getD []) = .ok ()) :
    ((h.atLevel level).attempt network request options n).outward =
      [.sent (h.transport.relay request) options] :=
  outward_attempt_of_logged _ _ _ _ _ (logged_atLevel hrequest)

theorem logged_quiet :
    ((h.atLevel .none).log.request (h.atLevel .none).key request).outcome = .ok () :=
  logged_atLevel fun habsurd => LogLevel.noConfusion habsurd

theorem outward_attempt_quiet :
    ((h.atLevel .none).attempt network request options n).outward =
      [.sent (h.transport.relay request) options] :=
  outward_attempt_atLevel fun habsurd => LogLevel.noConfusion habsurd

theorem outcomeOfAttempt_of_legible (hignores : level = .full → h.IgnoresHolders)
    (hrequest : level = .full → legibility request.charset (request.body.getD []) = .ok ())
    (hlegible : level = .full → ∀ response,
      network n (h.transport.relay request) options = .ok response → response.legibility = .ok ()) :
    (h.atLevel level).outcomeOfAttempt network request options n =
      (h.atLevel .none).outcomeOfAttempt network request options n := by
  unfold outcomeOfAttempt
  rw [logged_atLevel hrequest, logged_quiet]
  change (h.atLevel level).outcomeOfAnswer (h.clock.sightOf n) request n
      (network n (h.transport.relay request) options) =
    (h.atLevel .none).outcomeOfAnswer (h.clock.sightOf n) request n
      (network n (h.transport.relay request) options)
  cases hanswer : network n (h.transport.relay request) options with
  | error fault => rfl
  | ok response =>
      rw [outcomeOfAnswer_of_legible hignores fun hfull => hlegible hfull response hanswer,
        outcomeOfAnswer_quiet]

/-- Attempts end with an illegible body when bodies are logged. -/
theorem attempts_of_illegible (wait : Waiting) (n : Nat) (hown : h.ReadsOwn network)
    (hrequest : legibility request.charset (request.body.getD []) = .ok ())
    {response : Response} {fault : Fault}
    (hanswer : network n (h.transport.relay request) options = .ok response)
    (hillegible : response.legibility = .error fault) (retryer : Retryer) :
    ((h.atLevel .full).attempts wait network request options n retryer).outward =
        [.sent (h.transport.relay request) options] ∧
      ((h.atLevel .full).attempts wait network request options n retryer).outcome = .error fault := by
  have hlogged : ((h.atLevel .full).log.request (h.atLevel .full).key request).outcome = .ok () :=
    logged_atLevel fun _ => hrequest
  have houtcome : (h.atLevel .full).outcomeOfAttempt network request options n = .error fault := by
    unfold outcomeOfAttempt
    rw [hlogged]
    change (h.atLevel .full).outcomeOfAnswer (h.clock.sightOf n) request n
      (network n (h.transport.relay request) options) = _
    rw [hanswer, outcomeOfAnswer_of_illegible hillegible]
  have hfinal : mayRetry ((h.atLevel .full).outcomeOfAttempt network request options n) = false := by
    obtain ⟨octets, hread⟩ := hown.bodies _ _ _ _ hanswer
    unfold Response.legibility at hillegible
    rw [hread] at hillegible
    -- The body can be read, so only its charset is at fault.
    obtain ⟨failure, -, rfl⟩ := legibility_eq_error hillegible
    rw [houtcome]
    rfl
  rw [attempts_of_final hfinal]
  refine ⟨outward_attempt_of_logged _ _ _ _ _ hlogged, ?_⟩
  rw [outcome_attempt, houtcome]

/-! ## Calls at two levels -/

/-- The answers of the network to a request that is sent again and again. -/
def answersFrom (h : Handler) (network : Network) (request : Request) (options : Value) (n : Nat) :
    Nat → Except Fault Response :=
  fun i => network (n + i) (h.transport.relay request) options

omit [Charsets] in
theorem answersFrom_succ (n : Nat) :
    (fun i => h.answersFrom network request options n (i + 1)) =
      h.answersFrom network request options (n + 1) := by
  funext i
  unfold answersFrom
  rw [Nat.add_assoc, Nat.add_comm 1 i]

/-- The first answer is illegible at a level, or it is not. -/
theorem legible_or_illegible (level : LogLevel) (answer : Except Fault Response) :
    (level = .full → ∀ response, answer = .ok response → response.legibility = .ok ()) ∨
      level = .full ∧ ∃ response fault,
        answer = .ok response ∧ response.legibility = .error fault := by
  by_cases hfull : level = .full
  · rcases answer with fault | response
    · refine Or.inl fun _ _ habsurd => ?_
      cases habsurd
    · cases hlegible : response.legibility with
      | ok _ =>
          refine Or.inl fun _ other hother => ?_
          rw [← Except.ok.inj hother]
          exact hlegible
      | error fault => exact Or.inr ⟨hfull, response, fault, rfl, hlegible⟩
  · exact Or.inl fun habsurd => absurd habsurd hfull

/--
An attempt that is the last one without a log, be it final, the last allowed or the last for
want of a wait.
-/
theorem agree_iff_of_last (hown : h.ReadsOwn network)
    (hrequest : level = .full → legibility request.charset (request.body.getD []) = .ok ())
    {retryer : Retryer} {x : Traced Value} {rest : List Event}
    (houtward : x.outward = .sent (h.transport.relay request) options :: rest)
    (hrest : ∀ e ∈ rest, e.isSent = false)
    (hsame : (h.atLevel level).outcomeOfAttempt network request options n =
        (h.atLevel .none).outcomeOfAttempt network request options n →
      ((h.atLevel level).attempts wait network request options n retryer).outward = x.outward ∧
        ((h.atLevel level).attempts wait network request options n retryer).outcome = x.outcome) :
    Agree ((h.atLevel level).attempts wait network request options n retryer) x ↔
      (level = .full → Harmless (h.answersFrom network request options n) x) := by
  have hsends : x.sends = 1 := by
    have hunsent : rest.countP Event.isSent = 0 :=
      List.countP_eq_zero.mpr fun e he => by simp [hrest e he]
    rw [Traced.sends_eq_countP_outward, houtward, List.countP_cons, hunsent]
    rfl
  have hends : x.endsSending = true ↔ rest = [] := Traced.endsSending_iff houtward rfl hrest
  rw [Harmless.single_iff hsends, hends]
  rcases legible_or_illegible level (h.answersFrom network request options n 0) with
    hlegible | ⟨rfl, response, fault, hanswer, hillegible⟩
  · obtain ⟨houtward, houtcome⟩ := hsame
      (outcomeOfAttempt_of_legible (n := n) (fun _ => hown.ignoresHolders) hrequest hlegible)
    refine iff_of_true ⟨houtward, by rw [houtcome]; exact .refl _⟩ ?_
    exact fun hfull response hanswer => Or.inl (hlegible hfull response hanswer)
  · obtain ⟨hshort, houtcome⟩ :=
      attempts_of_illegible _ n hown (hrequest rfl) hanswer hillegible retryer
    constructor
    · intro hagree _ other hother
      obtain rfl : response = other := Except.ok.inj (hanswer.symm.trans hother)
      have hnothing : [.sent (h.transport.relay request) options] =
          .sent (h.transport.relay request) options :: rest :=
        (hshort.symm.trans hagree.outward).trans houtward
      refine Or.inr ⟨(List.cons.inj hnothing).2.symm, fault, hillegible, ?_⟩
      rw [← houtcome]
      exact hagree.ending
    · intro hharmless
      rcases hharmless rfl response hanswer with hlegible | ⟨rfl, other, hother, hending⟩
      · rw [hillegible] at hlegible
        cases hlegible
      · obtain rfl : fault = other := Except.error.inj (hillegible.symm.trans hother)
        exact ⟨hshort.trans houtward.symm, by rw [houtcome]; exact hending⟩

/-- What other parties see of an attempt at a level and of the pause after it. -/
theorem outward_before_next_atLevel
    (hrequest : level = .full → legibility request.charset (request.body.getD []) = .ok ())
    (n : Nat) (fault : Fault) (seconds : Quantity) :
    (((h.atLevel level).attempt network request options n).events ++
        (h.atLevel level).pause fault seconds).filter Event.isOutward =
      .sent (h.transport.relay request) options ::
        if (Quantity.whole 0).lt seconds then [.waited seconds] else [] :=
  (h.atLevel level).outward_before_next network request options (logged_atLevel hrequest) n fault
    seconds

theorem outward_before_next_quiet (n : Nat) (fault : Fault) (seconds : Quantity) :
    (((h.atLevel .none).attempt network request options n).events ++
        (h.atLevel .none).pause fault seconds).filter Event.isOutward =
      .sent (h.transport.relay request) options ::
        if (Quantity.whole 0).lt seconds then [.waited seconds] else [] :=
  outward_before_next_atLevel (fun habsurd => LogLevel.noConfusion habsurd) n fault seconds

/-- Attempts that an illegible body breaks off send too little to agree with a second request. -/
theorem not_agree_of_illegible (wait : Waiting) (n : Nat) (hown : h.ReadsOwn network)
    (hrequest : legibility request.charset (request.body.getD []) = .ok ())
    {response : Response} {fault : Fault}
    (hanswer : network n (h.transport.relay request) options = .ok response)
    (hillegible : response.legibility = .error fault) (retryer : Retryer) {x : Traced Value}
    (hsecond : 1 < x.sends) :
    ¬ Agree ((h.atLevel .full).attempts wait network request options n retryer) x := by
  intro hagree
  obtain ⟨hshort, -⟩ := attempts_of_illegible wait n hown hrequest hanswer hillegible retryer
  have hsingle : x.sends = 1 := by
    rw [Traced.sends_eq_countP_outward, ← hagree.outward, hshort]
    rfl
  omega

/--
Attempts at a level are those without a log, unless the level is full and a body that is
not harmless is illegible.
-/
theorem attempts_agree_iff (hown : h.ReadsOwn network)
    (hrequest : level = .full → legibility request.charset (request.body.getD []) = .ok ())
    (n : Nat) (retryer : Retryer) :
    Agree ((h.atLevel level).attempts wait network request options n retryer)
        ((h.atLevel .none).attempts wait network request options n retryer) ↔
      (level = .full → Harmless (h.answersFrom network request options n)
        ((h.atLevel .none).attempts wait network request options n retryer)) := by
  -- On the attempts without a log: those at the level follow them or break off early.
  refine (h.atLevel .none).attempts_induction wait network request options
    (motive := fun n retryer x =>
      Agree ((h.atLevel level).attempts wait network request options n retryer) x ↔
        (level = .full → Harmless (h.answersFrom network request options n) x))
    ?final ?exhausted ?unrested ?retry n retryer
  case final =>
    intro n retryer hfinal
    refine agree_iff_of_last hown hrequest outward_attempt_quiet (fun e he => nomatch he) ?_
    intro hsame
    rw [attempts_of_final (by rw [hsame]; exact hfinal), outcome_attempt, outcome_attempt, hsame,
      outward_attempt_atLevel hrequest, outward_attempt_quiet]
    exact ⟨rfl, rfl⟩
  case exhausted =>
    intro n retryer fault last retryer' hfault hretryable hnext
    refine agree_iff_of_last hown hrequest outward_attempt_quiet (fun e he => nomatch he) ?_
    intro hsame
    rw [attempts_of_exhausted (hsame.trans hfault) hretryable hnext]
    exact ⟨(outward_attempt_atLevel hrequest).trans outward_attempt_quiet.symm, rfl⟩
  case unrested =>
    intro n retryer fault seconds retryer' failure hfault hretryable hnext hunrested
    refine agree_iff_of_last hown hrequest (outward_before_next_quiet n fault seconds) ?_ ?_
    · intro e he
      split at he
      · rw [List.mem_singleton.mp he]
        rfl
      · cases he
    · intro hsame
      rw [attempts_of_unrested (hsame.trans hfault) hretryable hnext hunrested]
      exact ⟨(outward_before_next_atLevel hrequest n fault seconds).trans
        (outward_before_next_quiet n fault seconds).symm, rfl⟩
  case retry =>
    intro n retryer fault seconds retryer' hfault hretryable hnext hrested ih
    have hone := (h.atLevel .none).countP_before_next network request options logged_quiet n fault
      seconds
    have hmore := (h.atLevel .none).one_le_sends_attempts wait network request options logged_quiet
      (n + 1) retryer'
    rw [Harmless.after_iff hone hmore, answersFrom_succ]
    rcases legible_or_illegible level (h.answersFrom network request options n 0) with
      hlegible | ⟨rfl, response, trouble, hanswer, hillegible⟩
    · have hsame := outcomeOfAttempt_of_legible (n := n) (fun _ => hown.ignoresHolders) hrequest
        hlegible
      rw [attempts_of_retry (hsame.trans hfault) hretryable hnext hrested,
        Agree.after_iff ((outward_before_next_atLevel hrequest n fault seconds).trans
          (outward_before_next_quiet n fault seconds).symm), ih]
      exact ⟨fun hrest hfull => ⟨hlegible hfull, hrest hfull⟩, fun hall hfull => (hall hfull).2⟩
    · refine iff_of_false ?_ ?_
      · -- Without the log at least two requests are sent, with it a single one.
        refine not_agree_of_illegible wait n hown (hrequest rfl) hanswer hillegible retryer ?_
        rw [Traced.sends_after, hone]
        omega
      · intro hall
        have hlegible := (hall rfl).1 response hanswer
        rw [hillegible] at hlegible
        cases hlegible

/--
A call that is not changed by logging bodies: its request is legible and what answers it
without a log is harmless.
-/
def LogsHarmlessly (h : Handler) (network : Network) (n : Nat) (arguments : List Value) : Prop :=
  ∀ request options, h.prepare arguments = .ok (request, options) →
    legibility request.charset (request.body.getD []) = .ok () ∧
      Harmless (h.answersFrom network request options n)
        ((h.atLevel .none).call network n arguments)

theorem call_agree_none_iff (hown : h.ReadsOwn network) (level : LogLevel) (n : Nat)
    (arguments : List Value) :
    Agree ((h.atLevel level).call network n arguments) ((h.atLevel .none).call network n arguments) ↔
      (level = .full → h.LogsHarmlessly network n arguments) := by
  unfold LogsHarmlessly
  rcases hprepare : h.prepare arguments with fault | ⟨request, options⟩
  · rw [call_of_unprepared (h := h.atLevel level) hprepare,
      call_of_unprepared (h := h.atLevel .none) hprepare]
    refine iff_of_true (.refl _) fun _ _ _ habsurd => ?_
    cases habsurd
  rw [call_of_prepared (h := h.atLevel level) hprepare,
    call_of_prepared (h := h.atLevel .none) hprepare]
  change Agree ((h.atLevel level).attempts h.waits network request options n h.retryer.fresh)
    ((h.atLevel .none).attempts h.waits network request options n h.retryer.fresh) ↔ _
  by_cases hrequest : level = .full → legibility request.charset (request.body.getD []) = .ok ()
  · rw [attempts_agree_iff hown hrequest]
    constructor
    · intro hharmless hfull request' options' heq
      obtain ⟨rfl, rfl⟩ := Prod.mk.inj (Except.ok.inj heq)
      exact ⟨hrequest hfull, hharmless hfull⟩
    · intro hharmless hfull
      exact (hharmless hfull request options rfl).2
  -- A request that cannot be logged is not sent at the full level, and without a log it is.
  · obtain ⟨rfl, hillegible⟩ := Classical.not_imp.mp hrequest
    cases hlegibility : legibility request.charset (request.body.getD []) with
    | ok _ => exact absurd hlegibility hillegible
    | error fault =>
        have hunlogged : ((h.atLevel .full).log.request (h.atLevel .full).key request).outcome =
            .error fault := by
          rw [ExchangeLog.outcome_request, if_pos ((ExchangeLog.covers_full_iff _).mpr rfl),
            hlegibility]
        obtain ⟨later, hsent⟩ := (h.atLevel .none).outward_attempts_of_logged h.waits network
          request options logged_quiet n h.retryer.fresh
        refine iff_of_false ?_ ?_
        · intro hagree
          have houtward := hagree.outward
          rw [attempts_of_unlogged hunlogged, hsent] at houtward
          cases houtward
        · intro hharmless
          obtain ⟨hlegible, -⟩ := hharmless rfl request options rfl
          rw [hlegibility] at hlegible
          cases hlegible

/--
Two levels of a log make no difference to a call if neither or both are full. If one of
them is, they make no difference exactly when bodies are logged harmlessly.
-/
theorem call_agree_iff (hown : h.ReadsOwn network) (level level' : LogLevel) (n : Nat)
    (arguments : List Value) :
    Agree ((h.atLevel level).call network n arguments)
        ((h.atLevel level').call network n arguments) ↔
      (level = .full ↔ level' = .full) ∨ h.LogsHarmlessly network n arguments := by
  have hnone := call_agree_none_iff hown level n arguments
  have hnone' := call_agree_none_iff hown level' n arguments
  by_cases hfull : level = .full
  · by_cases hfull' : level' = .full
    · rw [hfull, hfull']
      exact iff_of_true (.refl _) (Or.inl Iff.rfl)
    · have hquiet := hnone'.mpr fun habsurd => absurd habsurd hfull'
      have hdiffer : ¬(level = .full ↔ level' = .full) := fun hiff => hfull' (hiff.mp hfull)
      rw [or_iff_right hdiffer]
      exact ⟨fun h => hnone.mp (h.trans hquiet) hfull,
        fun h => (hnone.mpr fun _ => h).trans hquiet.symm⟩
  · have hquiet := hnone.mpr fun habsurd => absurd habsurd hfull
    by_cases hfull' : level' = .full
    · have hdiffer : ¬(level = .full ↔ level' = .full) := fun hiff => hfull (hiff.mpr hfull')
      rw [or_iff_right hdiffer]
      exact ⟨fun h => hnone'.mp (h.symm.trans hquiet) hfull',
        fun h => hquiet.trans (hnone'.mpr fun _ => h).symm⟩
    · have hquiet' := hnone'.mpr fun habsurd => absurd habsurd hfull'
      exact iff_of_true (hquiet.trans hquiet'.symm)
        (Or.inl (iff_of_false hfull hfull'))

end Levels

open scoped CommonCharsets

/-- A response of octets that claims a charset which is not known. -/
def mislabelled : Response where
  status := 200
  headers := [("Content-Type", ["text/plain; charset=nope"])]
  body := some (.ofOctets [0x6f, 0x6b])

theorem legibility_mislabelled : mislabelled.legibility = .error (.runtime "LookupError") := by
  have hread : mislabelled.read = .ok [0x6f, 0x6b] := rfl
  have hname : mislabelled.charset = "nope" := by rfl
  have hcharset : Charset.decodeNamed "nope" [0x6f, 0x6b] = .error (.runtime "LookupError") := rfl
  unfold Response.legibility
  rw [hread, hname]
  change (decodeOctets "nope" [0x6f, 0x6b]).map (fun _ => ()) = _
  unfold decodeOctets
  change ((Charset.decodeNamed "nope" [0x6f, 0x6b]).mapError Failure.fault).map _ = _
  rw [hcharset]
  rfl

/-- The handler of a method that reads octets. -/
def octetFetching : Handler :=
  fetching (plainSettings .none) .octets

/-- The network that answers every request with mislabelled octets. -/
def mislabellingNetwork : Network := fun _ _ _ => .ok mislabelled

theorem readsOwn_octetFetching : octetFetching.ReadsOwn mislabellingNetwork where
  decoder := .usual
  errorDecoder := rfl
  bodies n request options response hanswer := by
    rw [← Except.ok.inj hanswer]
    exact ⟨_, rfl⟩

theorem call_octetFetching :
    (octetFetching.atLevel .none).call mislabellingNetwork 0 [] =
      (octetFetching.atLevel .none).attempt mislabellingNetwork fetchingRequest
        (Options.toValue {}) 0 := by
  have hprepare : (octetFetching.atLevel .none).prepare [] =
      .ok (fetchingRequest, Options.toValue {}) := prepare_fetching_of_unchanged rfl []
  rw [call_of_prepared hprepare]
  exact attempts_of_final rfl

/-- Octets that nobody reads as text make a difference once bodies are logged. -/
theorem not_agree_octetFetching :
    ¬Agree ((octetFetching.atLevel .headers).call mislabellingNetwork 0 [])
      ((octetFetching.atLevel .full).call mislabellingNetwork 0 []) := by
  rw [call_agree_iff readsOwn_octetFetching]
  rintro (hiff | hharmless)
  · cases hiff.mpr rfl
  · obtain ⟨-, hharmless⟩ := hharmless _ _ (prepare_fetching_of_unchanged rfl [])
    rw [call_octetFetching] at hharmless
    have hsends : ((octetFetching.atLevel .none).attempt mislabellingNetwork fetchingRequest
        (Options.toValue {}) 0).sends = 1 := rfl
    rcases (Harmless.single_iff hsends).mp hharmless mislabelled rfl with
      hlegible | ⟨-, fault, -, hending⟩
    · rw [legibility_mislabelled] at hlegible
      cases hlegible
    · exact hending

end Handler

end HttpBinding
