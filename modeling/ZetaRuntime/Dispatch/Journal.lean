import ZetaRuntime.Index.Event

/-!
# Journal operations

Every operation that records something does it through `appendRuntimeEvent` or
`appendTrustedEvent`: append, and if the append inserted the event, project it. The two differ in
what they make of a duplicate. `Recorded` is the one thing they can do to a store, and it is all
that the invariants need to know about an append.
-/

namespace Zeta

open Outcome

variable {outcome : AppendOutcome} {event : Event} {same : Event → Event → Bool} {s s' : Store}

section

variable [Platform]

/-- Project an event if it was inserted. -/
def indexIfInserted (outcome : AppendOutcome) (journal : List JournalEntry) (p : Projections) :
    Except DispatchError Projections :=
  if outcome.inserted then indexEvent journal outcome.event p else .ok p

/-- Append an event or resolve its id-first duplicate. -/
def appendTrustedEvent (s : Store) (event : Event) :
    Except DispatchError (AppendOutcome × Store) := do
  validateEventIdentity event
  let (outcome, journal) ← appendInTransaction s.journal event
  let projections ← indexIfInserted outcome journal s.projections
  return (outcome, { journal, projections })

/-- Accept one externally authored event and create its pending work item. -/
def ingestEvent (s : Store) (event : Event) : Except DispatchError (AppendOutcome × Store) :=
  if startsWith event.eventType "runtime." then .error (.reservedRuntimeEvent event.eventType)
  else appendTrustedEvent s event

/-- Append a runtime event; a duplicate must be the `same` in the sense of the caller. -/
def appendCandidate (same : Event → Event → Bool) (s : Store) (event : Event) :
    Except DispatchError (AppendOutcome × Store) := do
  validateEventIdentity event
  let (outcome, journal) ← appendLifecycleCandidate s.journal event
  ensure (outcome.inserted = true ∨ same event outcome.event = true)
    (.runtimeEventIdentityCollision event.id)
  let projections ← indexIfInserted outcome journal s.projections
  return (outcome, { journal, projections })

/-- Append a runtime event, or resolve it to one with the same intention. -/
def appendRuntimeEvent (s : Store) (event : Event) : Except DispatchError (AppendOutcome × Store) :=
  appendCandidate sameLifecycleIntention s event

/-- Append a batch of runtime events, in order. -/
def appendBatch (same : Event → Event → Bool) :
    Store → List Event → Except DispatchError (List Event × Store)
  | s, [] => .ok ([], s)
  | s, event :: events => do
    let (outcome, s) ← appendCandidate same s event
    let (retained, s) ← appendBatch same s events
    return (outcome.event :: retained, s)

/-- An event was inserted and projected. -/
structure Recorded (s : Store) (event : Event) (s' : Store) : Prop where
  intro ::
  step : ∃ projected, Inserted s.journal event projected s'.journal ∧
    indexEvent s'.journal projected s.projections = .ok s'.projections

omit [Platform] in
theorem validateEventIdentity_ok_iff {u : Unit} :
    validateEventIdentity event = .ok u ↔
      event.id ≠ "" ∧ event.eventType ≠ "" ∧ event.source ≠ "" := by
  simp [validateEventIdentity]

/-- An append that returned recorded the event, or found it retained and changed nothing. -/
theorem appendTrustedEvent_ok (h : appendTrustedEvent s event = .ok (outcome, s')) :
    (outcome.inserted = false ∧ s' = s ∧ Retained s.journal event outcome.event) ∨
      (outcome.inserted = true ∧ Recorded s event s') := by
  simp only [appendTrustedEvent, ok_iff, pair_iff] at h
  obtain ⟨_, -, outcome, journal, happend, p, hp, rfl, rfl⟩ := h
  rcases appendInTransaction_ok happend with ⟨hins, rfl, hret⟩ | ⟨hins, hinserted⟩
  · simp only [indexIfInserted, hins, Bool.false_eq_true, if_false, Except.ok.injEq] at hp
    exact .inl ⟨hins, by rw [← hp], hret⟩
  · simp only [indexIfInserted, hins, if_true] at hp
    exact .inr ⟨hins, outcome.event, hinserted, hp⟩

/-- A runtime append that returned recorded the event, or found the same one retained and changed
nothing. -/
theorem appendCandidate_ok (h : appendCandidate same s event = .ok (outcome, s')) :
    (outcome.inserted = false ∧ s' = s ∧ Retained s.journal event outcome.event ∧
        same event outcome.event = true) ∨
      (outcome.inserted = true ∧ Recorded s event s') := by
  simp only [appendCandidate, ok_iff, pair_iff, appendLifecycleCandidate_ok_iff] at h
  obtain ⟨_, -, outcome, journal, happend, _, hsame, p, hp, rfl, rfl⟩ := h
  rcases appendInTransaction_ok happend with ⟨hins, rfl, hret⟩ | ⟨hins, hinserted⟩
  · simp only [indexIfInserted, hins, Bool.false_eq_true, if_false, Except.ok.injEq] at hp
    simp only [hins, Bool.false_eq_true, false_or] at hsame
    exact .inl ⟨hins, by rw [← hp], hret, hsame⟩
  · simp only [indexIfInserted, hins, if_true] at hp
    exact .inr ⟨hins, outcome.event, hinserted, hp⟩

/-- What a runtime append returns if it inserted the event. -/
theorem appendCandidate_event (h : appendCandidate same s event = .ok (outcome, s'))
    (hinserted : outcome.inserted = true) :
    outcome.event = { event with cursor := some (nextCursor s.journal) } := by
  simp only [appendCandidate, ok_iff, pair_iff, appendLifecycleCandidate_ok_iff] at h
  obtain ⟨_, -, outcome, journal, happend, _, -, p, -, rfl, -⟩ := h
  rcases appendInTransaction_ok happend with ⟨hins, -⟩ | ⟨-, hins⟩
  · rw [hinserted] at hins
    cases hins
  · exact hins.projected_eq

end

end Zeta
