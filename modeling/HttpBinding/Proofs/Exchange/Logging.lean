import HttpBinding.Exchange.Log
import HttpBinding.Proofs.Exchange.Views

/-!
# What logging does

Below the full level a log only writes lines. At the full level it also reads
bodies as text, which can fail, and the body of a response is read into memory
and closed before that. Nothing else is done on behalf of a log at any level.
-/

namespace HttpBinding

variable [Charsets]

/-- What reading octets as text in a charset comes to. No octets are always readable. -/
def legibility (charset : String) (octets : Octets) : Except Fault Unit :=
  if octets.isEmpty then .ok () else (decodeOctets charset octets).map fun _ => ()

/-- What reading octets as text fails with is what the charset fails with. -/
theorem decodeOctets_eq_error {charset : String} {octets : Octets} {fault : Fault}
    (herror : decodeOctets charset octets = .error fault) :
    ∃ failure, Charsets.decode charset octets = .error failure ∧ fault = failure.fault := by
  unfold decodeOctets at herror
  cases hdecode : Charsets.decode charset octets with
  | ok text =>
      rw [hdecode] at herror
      cases herror
  | error failure =>
      rw [hdecode] at herror
      exact ⟨failure, rfl, (Except.error.inj herror).symm⟩

theorem legibility_eq_error {charset : String} {octets : Octets} {fault : Fault}
    (herror : legibility charset octets = .error fault) :
    ∃ failure, Charsets.decode charset octets = .error failure ∧ fault = failure.fault := by
  unfold legibility at herror
  split at herror
  · cases herror
  · cases hdecode : decodeOctets charset octets with
    | ok text => simp [hdecode, Except.map] at herror
    | error other =>
        simp only [hdecode, Except.map, Except.error.injEq] at herror
        exact herror ▸ decodeOctets_eq_error hdecode

namespace ExchangeLog

omit [Charsets] in
theorem covers_full_iff (log : ExchangeLog) : log.covers .full = true ↔ log.level = .full := by
  obtain ⟨level, logger⟩ := log
  cases level <;> simp [covers, LogLevel.rank]

variable {log : ExchangeLog} {key : String} {e : Event}

omit [Charsets] in
theorem isLine_of_mem_lineAt {level : LogLevel} {text : String}
    (he : e ∈ log.lineAt level key text) : e.isLine = true := by
  unfold lineAt at he
  split at he
  · rw [List.mem_singleton.mp he]
    rfl
  · cases he

omit [Charsets] in
theorem isLine_of_mem_headerLines {pairs : List (String × String)}
    (he : e ∈ log.headerLines key pairs) : e.isLine = true := by
  unfold headerLines at he
  split at he
  · obtain ⟨pair, -, rfl⟩ := List.mem_map.mp he
    rfl
  · cases he

theorem isLine_of_mem_bodyLine {charset : String} {octets : Octets}
    (he : e ∈ (log.bodyLine key charset octets).events) : e.isLine = true := by
  unfold bodyLine at he
  split at he
  · rcases Traced.mem_events_bind he with hlift | ⟨text, -, hnote⟩
    · cases hlift
    · rw [List.mem_singleton.mp hnote]
      rfl
  · cases he

theorem outcome_bodyLine (log : ExchangeLog) (key charset : String) (octets : Octets) :
    (log.bodyLine key charset octets).outcome =
      if log.covers .full then legibility charset octets else .ok () := by
  unfold bodyLine legibility
  cases log.covers .full <;> cases octets.isEmpty
  · rfl
  · rfl
  · simp only [Bool.not_false, Bool.and_self, if_true, Traced.outcome_bind, Bool.false_eq_true,
      if_false]
    cases decodeOctets charset octets <;> rfl
  · rfl

/-! ## Requests -/

theorem isLine_of_mem_request {r : Request} (he : e ∈ (log.request key r).events) :
    e.isLine = true := by
  rcases Traced.mem_events_bind he with hline | ⟨_, -, he⟩
  · exact isLine_of_mem_lineAt hline
  rcases Traced.mem_events_bind he with hheaders | ⟨_, -, he⟩
  · exact isLine_of_mem_headerLines hheaders
  rcases Traced.mem_events_bind he with hbody | ⟨_, -, hend⟩
  · exact isLine_of_mem_bodyLine hbody
  · exact isLine_of_mem_lineAt hend

/-- Logging a request fails when its body is logged and cannot be read as text. -/
theorem outcome_request (log : ExchangeLog) (key : String) (r : Request) :
    (log.request key r).outcome =
      if log.covers .full then legibility r.charset (r.body.getD []) else .ok () := by
  rw [← outcome_bodyLine log key]
  simp only [request, Traced.outcome_bind]
  cases (log.bodyLine key r.charset (r.body.getD [])).outcome <;> rfl

/-- A fault of logging a request is never one that may be retried. -/
theorem isRetryable_of_request_error {r : Request} {fault : Fault}
    (herror : (log.request key r).outcome = .error fault) :
    fault.family.isRetryable = false := by
  rw [outcome_request] at herror
  split at herror
  · obtain ⟨failure, -, rfl⟩ := legibility_eq_error herror
    rfl
  · cases herror

/-! ## Responses -/

/-- The response goes on as it is, or at the full level with a copy of its body. -/
theorem outcome_response (log : ExchangeLog) (key : String) (n millis : Nat) (r : Response) :
    (log.response key n millis r).outcome =
      if log.covers .full && r.body.isSome then do
        let octets ← r.read
        legibility r.charset octets
        return { r with body := some ⟨.copy n, .octets octets⟩ }
      else .ok r := by
  change (log.responseBody key n r).outcome = _
  unfold responseBody
  split
  next hfull =>
    have hcovers : log.covers .full = true := (Bool.and_eq_true _ _ ▸ hfull).1
    simp only [Traced.outcome_bind, bufferAs, Response.bufferedIn, outcome_bodyLine, hcovers,
      if_true]
    cases r.read with
    | error fault => rfl
    | ok octets =>
        change Except.bind (legibility r.charset octets) _ =
          Except.bind (legibility r.charset octets) _
        cases legibility r.charset octets <;> rfl
  next => rfl

/-- Beside the lines of the log there is only the closing of a body that was read. -/
theorem mem_response_events {n millis : Nat} {r : Response}
    (he : e ∈ (log.response key n millis r).events) :
    e.isLine = true ∨ ∃ holder ∈ r.holders, e = .closed holder := by
  rcases Traced.mem_events_bind he with hline | ⟨_, -, he⟩
  · exact Or.inl (isLine_of_mem_lineAt hline)
  rcases Traced.mem_events_bind he with hheaders | ⟨_, -, he⟩
  · exact Or.inl (isLine_of_mem_headerLines hheaders)
  unfold responseBody at he
  split at he
  · rcases Traced.mem_events_bind he with hclosed | ⟨copy, -, he⟩
    · obtain ⟨holder, hholder, rfl⟩ := List.mem_map.mp hclosed
      exact Or.inr ⟨holder, hholder, rfl⟩
    rcases Traced.mem_events_bind he with hlift | ⟨octets, -, he⟩
    · cases hlift
    rcases Traced.mem_events_bind he with hbody | ⟨_, -, he⟩
    · exact Or.inl (isLine_of_mem_bodyLine hbody)
    rcases Traced.mem_events_bind he with hend | ⟨_, -, hpure⟩
    · exact Or.inl (isLine_of_mem_lineAt hend)
    · cases hpure
  · rcases Traced.mem_events_bind he with hend | ⟨_, -, hpure⟩
    · exact Or.inl (isLine_of_mem_lineAt hend)
    · cases hpure

/-- At the full level the body of a response is closed whether or not it can be read. -/
theorem closed_mem_response {n millis : Nat} {r : Response} {holder : Holder}
    (hfull : log.covers .full = true) (hholder : holder ∈ r.holders) :
    .closed holder ∈ (log.response key n millis r).events := by
  have hsome : r.body.isSome = true := by
    cases hbody : r.body with
    | none => simp [Response.holders, hbody] at hholder
    | some body => rfl
  change _ ∈ log.lineAt .basic key (statusText r millis) ++
    (log.headerLines key (headerItems r) ++ (log.responseBody key n r).events)
  refine List.mem_append_right _ (List.mem_append_right _ ?_)
  unfold responseBody
  rw [if_pos (by rw [hfull, hsome]; rfl)]
  exact Traced.mem_events_bind_left _ (List.mem_map.mpr ⟨holder, hholder, rfl⟩)

end ExchangeLog

end HttpBinding
