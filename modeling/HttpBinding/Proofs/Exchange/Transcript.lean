import HttpBinding.Proofs.Exchange.Transparency
import HttpBinding.Proofs.Json.RoundTrip

/-!
# What is told of an attempt

What a log may say of an attempt is a list of remarks, each with the lowest level of the log that
has it: the request, its answer and the wait before the next attempt. A log writes down
the remarks that its level covers. The remark that ends a response names a number of
octets, which is that of the body only at the full level; below it the body is not looked at,
and none is counted. The octets of a request are counted wherever they are mentioned.
-/

namespace HttpBinding

/-- Something that may be logged: the lowest level of a log that has it, and what it says. -/
structure Remark where
  level : LogLevel
  text : String

/-- The lines of a log among the events of an action. -/
def Traced.lines {α : Type} (x : Traced α) : List Event :=
  x.events.filter Event.isLine

/-- The number of octets of the body of a response, none if it has no body. -/
def Response.size (r : Response) : Nat :=
  (r.read.toOption.getD []).length

/-- The number of octets that a log names at the end of a response. -/
def ExchangeLog.shownSize (log : ExchangeLog) (r : Response) : Nat :=
  if log.covers .full then r.size else 0

/--
What an attempt is answered and after how long, and the fault and the wait for which another one
is to follow.
-/
structure Exchange where
  answer : Except Fault Response
  millis : Nat
  retried : Option (Fault × Quantity) := none

namespace Remark

/-- The lines that a log has of remarks about a method. -/
def lines (log : ExchangeLog) (key : String) (remarks : List Remark) : List Event :=
  (remarks.filter fun remark => log.covers remark.level).map fun remark => log.line key remark.text

/-- Remarks on headers. -/
def ofHeaders (pairs : List (String × String)) : List Remark :=
  pairs.map fun pair => ⟨.headers, pair.1 ++ ": " ++ pair.2⟩

/-- The remark on a body, if it has octets. -/
def ofBody [Charsets] (charset : String) (octets : Octets) : List Remark :=
  if octets.isEmpty then [] else [⟨.full, (decodeOctets charset octets).toOption.getD ""⟩]

/-- Remarks on a request. -/
def ofRequest [Charsets] (r : Request) : List Remark :=
  ⟨.basic, "---> " ++ r.line⟩ :: (ofHeaders r.headerItems ++ (ofBody r.charset (r.body.getD []) ++
    [⟨.headers, ExchangeLog.sizeText "--->" (r.body.getD []).length⟩]))

/-- Remarks on a response, of which a number of octets is named. -/
def ofResponse [Charsets] (millis size : Nat) (r : Response) : List Remark :=
  ⟨.basic, ExchangeLog.statusText r millis⟩ :: (ofHeaders (ExchangeLog.headerItems r) ++
    (ofBody r.charset (r.read.toOption.getD []) ++ [⟨.headers, ExchangeLog.sizeText "<---" size⟩]))

/-- Remarks on an answer of the transport. A fault that is not of the way there is not told. -/
def ofAnswer [Charsets] (millis : Nat) (size : Response → Nat) :
    Except Fault Response → List Remark
  | .ok response => ofResponse millis (size response) response
  | .error fault =>
    if fault.family = .transport || fault.family.isOs then
      [⟨.basic, "<--- ERROR " ++ fault.name ++ ": " ++ fault.wording ++
        ExchangeLog.elapsedText millis⟩]
    else []

/-- The remark on a wait, if there is one. -/
def ofRetry : Option (Fault × Quantity) → List Remark
  | some (fault, seconds) =>
    [⟨.basic, "---> RETRYING in " ++ seconds.fixed 3 ++ "s after " ++ fault.name ++ ": " ++
      fault.wording⟩]
  | none => []

/-- Remarks on one attempt. -/
def ofExchange [Charsets] (request : Request) (size : Response → Nat) (e : Exchange) :
    List Remark :=
  ofRequest request ++ (ofAnswer e.millis size e.answer ++ ofRetry e.retried)

/-- Remarks on attempts with one request. -/
def transcript [Charsets] (request : Request) (size : Response → Nat)
    (exchanges : List Exchange) : List Remark :=
  exchanges.flatMap (ofExchange request size)

/-! ## Lines of remarks -/

section Lines

variable {log : ExchangeLog} {key : String} {level level' : LogLevel}

@[simp]
theorem lines_nil : lines log key [] = [] := rfl

theorem lines_append (remarks later : List Remark) :
    lines log key (remarks ++ later) = lines log key remarks ++ lines log key later := by
  simp [lines]

theorem lines_singleton (remark : Remark) :
    lines log key [remark] = log.lineAt remark.level key remark.text := by
  unfold lines ExchangeLog.lineAt
  cases hcovers : log.covers remark.level <;> simp [hcovers]

theorem lines_cons (remark : Remark) (rest : List Remark) :
    lines log key (remark :: rest) =
      log.lineAt remark.level key remark.text ++ lines log key rest := by
  rw [← lines_singleton, ← lines_append]
  rfl

theorem lines_ofHeaders (pairs : List (String × String)) :
    lines log key (ofHeaders pairs) = log.headerLines key pairs := by
  unfold lines ofHeaders ExchangeLog.headerLines
  rw [List.filter_map, List.map_map]
  cases hcovers : log.covers .headers with
  | true =>
      rw [if_pos rfl]
      exact congrArg _ (List.filter_eq_self.mpr fun _ _ => hcovers)
  | false =>
      have hnone : pairs.filter (fun _ => log.covers .headers) = [] :=
        List.filter_eq_nil_iff.mpr fun _ _ => by simp [hcovers]
      rw [if_neg Bool.false_ne_true]
      exact congrArg _ hnone

/-- A body is logged as its text, provided that it has one. -/
theorem lines_ofBody [Charsets] {charset : String} {octets : Octets}
    (hlegible : log.covers .full = true → legibility charset octets = .ok ()) :
    (log.bodyLine key charset octets).events = lines log key (ofBody charset octets) := by
  unfold ofBody
  unfold ExchangeLog.bodyLine
  cases hempty : octets.isEmpty with
  | true => cases log.covers .full <;> rfl
  | false =>
      rw [if_neg Bool.false_ne_true, lines_singleton]
      cases hcovers : log.covers .full with
      | false => simp [ExchangeLog.lineAt, hcovers, Traced.note]
      | true =>
          have hlegible := hlegible hcovers
          unfold legibility at hlegible
          rw [hempty, if_neg Bool.false_ne_true] at hlegible
          cases hdecode : decodeOctets charset octets with
          | error fault =>
              rw [hdecode] at hlegible
              cases hlegible
          | ok text => simp [ExchangeLog.lineAt, hcovers]; rfl

/-- A higher level of a log has all lines that a lower one has. -/
theorem lines_sublist (hle : level.rank ≤ level'.rank) (remarks : List Remark) :
    (lines { log with level := level } key remarks).Sublist
      (lines { log with level := level' } key remarks) := by
  refine List.Sublist.map _ (List.monotone_filter_right remarks ?_)
  intro remark hcovers
  simp only [ExchangeLog.covers, Bool.and_eq_true, decide_eq_true_eq, bne_iff_ne] at hcovers ⊢
  refine ⟨?_, hcovers.2.trans hle⟩
  rintro rfl
  have hrank : level.rank = 0 := Nat.le_zero.mp hle
  cases level <;> simp_all [LogLevel.rank]

/-! ## Counts in lines -/

theorem lineAt_inj {text text' : String} :
    log.lineAt level key text = log.lineAt level key text' ↔
      (log.covers level = true → text = text') := by
  unfold ExchangeLog.lineAt ExchangeLog.line
  cases log.covers level with
  | false => simp
  | true => simp [String.append_right_inj]

theorem sizeText_inj {arrow : String} {size size' : Nat} :
    ExchangeLog.sizeText arrow size = ExchangeLog.sizeText arrow size' ↔ size = size' := by
  refine ⟨fun heq => ?_, fun heq => by rw [heq]⟩
  unfold ExchangeLog.sizeText at heq
  rw [String.append_left_inj, String.append_right_inj] at heq
  have hdigits := congrArg (Number.digitsValue ∘ String.toList) heq
  simpa only [Function.comp, Number.natText, String.toList_ofList, Number.digitsValue_digits]
    using hdigits

/-- How many lines there are depends on the levels of the remarks only. -/
theorem length_lines (remarks : List Remark) :
    (lines log key remarks).length = (remarks.map Remark.level).countP log.covers := by
  rw [lines, List.length_map, List.countP_map, List.countP_eq_length_filter]
  rfl

variable {request : Request} {size size' : Response → Nat}

theorem level_ofExchange [Charsets] (exchange : Exchange) :
    (ofExchange request size exchange).map Remark.level =
      (ofExchange request size' exchange).map Remark.level := by
  have hanswer : (ofAnswer exchange.millis size exchange.answer).map Remark.level =
      (ofAnswer exchange.millis size' exchange.answer).map Remark.level := by
    cases exchange.answer with
    | error fault => rfl
    | ok response => simp only [ofAnswer, ofResponse, List.map_cons, List.map_append, List.map_nil]
  simp only [ofExchange, List.map_append, hanswer]

theorem lines_ofExchange_eq_iff [Charsets] {exchange : Exchange} :
    lines log key (ofExchange request size exchange) =
        lines log key (ofExchange request size' exchange) ↔
      (log.covers .headers = true →
        ∀ response, exchange.answer = .ok response → size response = size' response) := by
  unfold ofExchange
  rw [lines_append, lines_append _ (_ ++ _), lines_append, lines_append (ofAnswer _ size' _),
    List.append_cancel_left_eq, List.append_cancel_right_eq]
  cases exchange.answer with
  | error fault => simp [ofAnswer]
  | ok response =>
      simp only [ofAnswer, ofResponse, lines_cons, lines_append, lines_nil, List.append_nil,
        List.append_cancel_left_eq, lineAt_inj, sizeText_inj, Except.ok.injEq, forall_eq']

/-- Two ways to count the octets of responses show at the end of each response, if it is logged. -/
theorem lines_transcript_eq_iff [Charsets] {exchanges : List Exchange} :
    lines log key (transcript request size exchanges) =
        lines log key (transcript request size' exchanges) ↔
      (log.covers .headers = true →
        ∀ exchange ∈ exchanges, ∀ response, exchange.answer = .ok response →
          size response = size' response) := by
  unfold transcript
  induction exchanges with
  | nil => simp
  | cons exchange rest ih =>
      have hlength : (lines log key (ofExchange request size exchange)).length =
          (lines log key (ofExchange request size' exchange)).length := by
        rw [length_lines, length_lines, level_ofExchange]
      rw [List.flatMap_cons, List.flatMap_cons, lines_append, lines_append]
      constructor
      · intro heq hcovers
        obtain ⟨hfirst, hrest⟩ := List.append_inj heq hlength
        exact List.forall_mem_cons.mpr
          ⟨lines_ofExchange_eq_iff.mp hfirst hcovers, ih.mp hrest hcovers⟩
      · intro hsizes
        rw [lines_ofExchange_eq_iff.mpr fun hcovers => (List.forall_mem_cons.mp (hsizes hcovers)).1,
          ih.mpr fun hcovers => (List.forall_mem_cons.mp (hsizes hcovers)).2]

end Lines

end Remark

/-! ## What is logged of an attempt -/

namespace Traced

variable {α : Type}

theorem lines_after (events : List Event) (x : Traced α) :
    (x.after events).lines = events.filter Event.isLine ++ x.lines :=
  List.filter_append events x.events

theorem lines_bind_of_quiet {β : Type} {x : Traced α} {next : α → Traced β}
    (hquiet : ∀ a, (next a).lines = []) : (x >>= next).lines = x.lines := by
  cases houtcome : x.outcome with
  | ok a => rw [bind_of_ok houtcome, lines_after, hquiet, List.append_nil, lines]
  | error fault =>
      rw [bind_of_error houtcome]
      rfl

end Traced

namespace ExchangeLog

variable {log : ExchangeLog} {key : String}

theorem events_request [Charsets] {r : Request}
    (hlegible : log.covers .full = true → legibility r.charset (r.body.getD []) = .ok ()) :
    (log.request key r).events = Remark.lines log key (Remark.ofRequest r) := by
  have hbody : (log.bodyLine key r.charset (r.body.getD [])).outcome = .ok () := by
    rw [outcome_bodyLine]
    split
    next hcovers => exact hlegible hcovers
    next => rfl
  unfold request Remark.ofRequest
  rw [Traced.note_bind, Traced.note_bind, Traced.bind_of_ok hbody, Traced.events_after,
    Traced.events_after, Traced.events_after, Remark.lines_ofBody hlegible, Remark.lines_cons,
    Remark.lines_append, Remark.lines_append, Remark.lines_ofHeaders, Remark.lines_singleton]
  rfl

theorem filter_isLine_lineAt (level : LogLevel) (text : String) :
    (log.lineAt level key text).filter Event.isLine = log.lineAt level key text :=
  List.filter_eq_self.mpr fun _ => isLine_of_mem_lineAt

theorem filter_isLine_headerLines (pairs : List (String × String)) :
    (log.headerLines key pairs).filter Event.isLine = log.headerLines key pairs :=
  List.filter_eq_self.mpr fun _ => isLine_of_mem_headerLines

theorem filter_isLine_lines (remarks : List Remark) :
    (Remark.lines log key remarks).filter Event.isLine = Remark.lines log key remarks := by
  refine List.filter_eq_self.mpr fun e he => ?_
  obtain ⟨remark, -, rfl⟩ := List.mem_map.mp he
  rfl

theorem filter_isLine_closed (holders : List Holder) :
    (holders.map Event.closed).filter Event.isLine = [] := by
  refine List.filter_eq_nil_iff.mpr fun e he => ?_
  obtain ⟨holder, -, rfl⟩ := List.mem_map.mp he
  exact Bool.false_ne_true

theorem lines_bodyLine [Charsets] {charset : String} {octets : Octets}
    (hlegible : log.covers .full = true → legibility charset octets = .ok ()) :
    (log.bodyLine key charset octets).events.filter Event.isLine =
      Remark.lines log key (Remark.ofBody charset octets) := by
  rw [← Remark.lines_ofBody hlegible]
  exact List.filter_eq_self.mpr fun _ => isLine_of_mem_bodyLine

/-- Of a body that is not read no octets are counted, and no line has its text. -/
theorem lines_ofBody_of_unread [Charsets] {r : Response}
    (hunread : (log.covers .full && r.body.isSome) = false) (charset : String) :
    log.shownSize r = 0 ∧
      Remark.lines log key (Remark.ofBody charset (r.read.toOption.getD [])) = [] := by
  rcases Bool.and_eq_false_iff.mp hunread with hcovers | hnone
  · refine ⟨if_neg (by rw [hcovers]; exact Bool.false_ne_true), ?_⟩
    unfold Remark.ofBody
    split
    · rfl
    · rw [Remark.lines_singleton, lineAt, hcovers]
      rfl
  · have hread : r.read = .ok [] := by
      unfold Response.read
      rw [Option.isNone_iff_eq_none.mp (Option.isSome_eq_false_iff.mp hnone)]
    refine ⟨?_, ?_⟩
    · unfold shownSize Response.size
      rw [hread]
      exact ite_self 0
    · rw [hread]
      rfl

theorem lines_responseBody [Charsets] {n : Nat} {r : Response}
    (hlegible : log.covers .full = true → r.legibility = .ok ()) :
    (log.responseBody key n r).lines =
      Remark.lines log key (Remark.ofBody r.charset (r.read.toOption.getD []) ++
        [⟨.headers, sizeText "<---" (log.shownSize r)⟩]) := by
  rw [Remark.lines_append, Remark.lines_singleton]
  unfold responseBody
  cases hread : log.covers .full && r.body.isSome with
  | false =>
      obtain ⟨hsize, hbody⟩ := @lines_ofBody_of_unread log key _ r hread r.charset
      rw [if_neg Bool.false_ne_true, hsize, hbody, Traced.note_bind, Traced.lines_after,
        filter_isLine_lineAt]
      exact List.append_nil _
  | true =>
      have hcovers : log.covers .full = true := (Bool.and_eq_true_iff.mp hread).1
      have hlegible := hlegible hcovers
      unfold Response.legibility at hlegible
      cases hoctets : r.read with
      | error fault =>
          rw [hoctets] at hlegible
          cases hlegible
      | ok octets =>
          rw [hoctets] at hlegible
          change legibility r.charset octets = .ok () at hlegible
          have hcopy : (bufferAs (.copy n) r).outcome =
              .ok { r with body := some ⟨.copy n, .octets octets⟩ } := by
            unfold bufferAs Response.bufferedIn
            rw [hoctets]
            rfl
          have htext : (log.bodyLine key r.charset octets).outcome = .ok () := by
            rw [outcome_bodyLine, hcovers]
            exact hlegible
          have hsize : log.shownSize r = octets.length := by
            unfold shownSize Response.size
            rw [hcovers, hoctets]
            rfl
          rw [if_pos rfl, hsize, Traced.bind_of_ok hcopy, Traced.lines_after]
          unfold bufferAs
          rw [filter_isLine_closed]
          change (log.bodyLine key r.charset octets >>= _).lines = _
          rw [Traced.bind_of_ok htext, Traced.lines_after, lines_bodyLine fun _ => hlegible,
            Traced.note_bind, Traced.lines_after, filter_isLine_lineAt]
          exact congrArg _ (List.append_nil _)

theorem lines_response [Charsets] {n millis : Nat} {r : Response}
    (hlegible : log.covers .full = true → r.legibility = .ok ()) :
    (log.response key n millis r).lines =
      Remark.lines log key (Remark.ofResponse millis (log.shownSize r) r) := by
  unfold response Remark.ofResponse
  rw [Traced.note_bind, Traced.note_bind, Traced.lines_after, Traced.lines_after,
    lines_responseBody hlegible, Remark.lines_cons, Remark.lines_append (Remark.ofHeaders _),
    Remark.lines_ofHeaders, filter_isLine_lineAt, filter_isLine_headerLines]

end ExchangeLog

namespace Handler

variable {h : Handler} {sight : Sight} {network : Network} {request : Request} {options : Value}
  {n : Nat} {level : LogLevel}

theorem legibility_heldBy [Charsets] (response : Response) :
    (heldBy n response).legibility = response.legibility := by
  unfold Response.legibility
  rw [read_heldBy]
  rfl

/-- What is told of a response does not depend on where its body is held. -/
theorem ofResponse_heldBy [Charsets] (millis size : Nat) (response : Response) :
    Remark.ofResponse millis size (heldBy n response) = Remark.ofResponse millis size response := by
  unfold Remark.ofResponse
  rw [read_heldBy]
  rfl

theorem shownSize_heldBy (log : ExchangeLog) (response : Response) :
    log.shownSize (heldBy n response) = log.shownSize response := by
  unfold ExchangeLog.shownSize Response.size
  rw [read_heldBy]

theorem lines_settle (now : Moment) (response : Response) :
    (h.settle now request response).lines = [] := by
  unfold Traced.lines
  rw [events_settle]
  split
  next => rfl
  next => exact ExchangeLog.filter_isLine_closed _

theorem lines_receive [Charsets] {answer : Except Fault Response}
    (hlegible : h.log.covers .full = true →
      ∀ response, answer = .ok response → response.legibility = .ok ()) :
    (h.receive sight n request answer).lines =
      Remark.lines h.log h.key (Remark.ofAnswer sight.elapsed h.log.shownSize answer) := by
  cases answer with
  | error fault =>
      rw [receive_error]
      unfold Remark.ofAnswer
      dsimp only
      split
      next =>
        rw [Traced.lines_after, Remark.lines_singleton, ExchangeLog.transportFault,
          ExchangeLog.filter_isLine_lineAt]
        exact List.append_nil _
      next => rfl
  | ok response =>
      have hheld : h.log.covers .full = true → (heldBy n response).legibility = .ok () := by
        intro hcovers
        rw [legibility_heldBy]
        exact hlegible hcovers response rfl
      rw [receive_ok, Traced.lines_after, Traced.lines_bind_of_quiet (lines_settle _),
        ExchangeLog.lines_response hheld, shownSize_heldBy, ofResponse_heldBy]
      rfl

/-- The wait itself is no line. -/
theorem lines_pause (fault : Fault) (seconds : Quantity) :
    (h.pause fault seconds).filter Event.isLine =
      Remark.lines h.log h.key (Remark.ofRetry (some (fault, seconds))) := by
  have hwait : (if (Quantity.whole 0).lt seconds then [Event.waited seconds] else []).filter
      Event.isLine = [] := by
    split <;> rfl
  rw [pause, List.filter_append, hwait, List.append_nil, ExchangeLog.retry,
    ExchangeLog.filter_isLine_lineAt, Remark.ofRetry, Remark.lines_singleton]

theorem lines_attempt [Charsets]
    (hrequest : h.log.covers .full = true →
      legibility request.charset (request.body.getD []) = .ok ())
    (hanswer : h.log.covers .full = true → ∀ response,
      network n (h.transport.relay request) options = .ok response →
        response.legibility = .ok ()) :
    (h.attempt network request options n).lines =
      Remark.lines h.log h.key (Remark.ofRequest request ++
        Remark.ofAnswer (h.clock.sightOf n).elapsed h.log.shownSize
          (network n (h.transport.relay request) options)) := by
  have hlogged : (h.log.request h.key request).outcome = .ok () := by
    rw [ExchangeLog.outcome_request]
    split
    next hcovers => exact hrequest hcovers
    next => rfl
  have hsent : [Event.sent (h.transport.relay request) options].filter Event.isLine = [] := rfl
  rw [attempt_of_logged _ _ _ _ _ hlogged, Traced.lines_after, List.filter_append, hsent,
    List.append_nil, ExchangeLog.events_request hrequest, ExchangeLog.filter_isLine_lines,
    lines_receive hanswer, Remark.lines_append]

end Handler

end HttpBinding
