import HttpBinding.Exchange.Trace

/-!
# Views of traces

A trace holds more than a single statement is about. What other parties see of a
call are the requests it sends and the time it waits; the lines of a log are seen
by nobody but the log. This module names these views and says how each way of
putting actions together acts on them.
-/

namespace HttpBinding

namespace Event

/-- Whether an event is seen by other parties: a request that is sent, or a wait. -/
def isOutward : Event → Bool
  | sent .. => true
  | waited _ => true
  | _ => false

/-- Whether an event is a line of a log. -/
def isLine : Event → Bool
  | logged .. => true
  | _ => false

theorem isOutward_of_isLine {e : Event} (hline : e.isLine = true) : e.isOutward = false := by
  cases e <;> simp_all [isLine, isOutward]

theorem isSent_of_isOutward {e : Event} (hinward : e.isOutward = false) : e.isSent = false := by
  cases e <;> simp_all [isSent, isOutward]

end Event

namespace Traced

variable {α β : Type}

@[ext]
theorem ext {x y : Traced α} (houtcome : x.outcome = y.outcome) (hevents : x.events = y.events) :
    x = y := by
  cases x
  cases y
  simp_all

/-- What other parties see of an action, in the order in which it happens. -/
def outward (x : Traced α) : List Event :=
  x.events.filter Event.isOutward

/-! ## Putting actions together -/

theorem bind_of_ok {x : Traced α} {a : α} (hok : x.outcome = .ok a) (next : α → Traced β) :
    x >>= next = (next a).after x.events := by
  change x.andThen next = _
  simp only [andThen, hok, after]

theorem bind_of_error {x : Traced α} {fault : Fault} (herror : x.outcome = .error fault)
    (next : α → Traced β) : x >>= next = ⟨.error fault, x.events⟩ := by
  change x.andThen next = _
  simp only [andThen, herror]

theorem outcome_bind (x : Traced α) (next : α → Traced β) :
    (x >>= next).outcome = x.outcome.bind fun a => (next a).outcome := by
  cases houtcome : x.outcome with
  | ok a => rw [bind_of_ok houtcome]; rfl
  | error fault => rw [bind_of_error houtcome]; rfl

theorem mem_events_bind {x : Traced α} {next : α → Traced β} {e : Event}
    (he : e ∈ (x >>= next).events) :
    e ∈ x.events ∨ ∃ a, x.outcome = .ok a ∧ e ∈ (next a).events := by
  cases houtcome : x.outcome with
  | ok a =>
      rw [bind_of_ok houtcome] at he
      rcases List.mem_append.mp he with hfirst | hnext
      · exact Or.inl hfirst
      · exact Or.inr ⟨a, rfl, hnext⟩
  | error fault =>
      rw [bind_of_error houtcome] at he
      exact Or.inl he

theorem mem_events_bind_left {x : Traced α} (next : α → Traced β) {e : Event}
    (he : e ∈ x.events) : e ∈ (x >>= next).events := by
  cases houtcome : x.outcome with
  | ok a =>
      rw [bind_of_ok houtcome]
      exact List.mem_append_left _ he
  | error fault =>
      rw [bind_of_error houtcome]
      exact he

theorem note_bind (events : List Event) (next : Unit → Traced β) :
    note events >>= next = (next ()).after events := rfl

@[simp]
theorem outcome_after (events : List Event) (x : Traced α) :
    (x.after events).outcome = x.outcome := rfl

@[simp]
theorem events_after (events : List Event) (x : Traced α) :
    (x.after events).events = events ++ x.events := rfl

@[simp]
theorem after_after (first second : List Event) (x : Traced α) :
    (x.after second).after first = x.after (first ++ second) := by
  ext1
  · rfl
  · exact (List.append_assoc first second x.events).symm

/-! ## What other parties see -/

@[simp]
theorem outward_after (events : List Event) (x : Traced α) :
    (x.after events).outward = events.filter Event.isOutward ++ x.outward :=
  List.filter_append events x.events

theorem outward_eq_nil {x : Traced α} (hinward : ∀ e ∈ x.events, e.isOutward = false) :
    x.outward = [] := by
  refine List.filter_eq_nil_iff.mpr ?_
  intro e he
  simp [hinward e he]

theorem sends_eq_countP_outward (x : Traced α) : x.sends = x.outward.countP Event.isSent := by
  have himp : ∀ e : Event, (e.isSent && e.isOutward) = e.isSent := by
    intro e
    cases e <;> rfl
  simp only [sends, outward, List.countP_filter, himp]

theorem sends_after (events : List Event) (x : Traced α) :
    (x.after events).sends = events.countP Event.isSent + x.sends :=
  List.countP_append

end Traced

end HttpBinding
