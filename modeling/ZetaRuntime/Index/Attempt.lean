import ZetaRuntime.Index.Queue

/-!
# Projecting attempt lifecycle facts

A started fact creates an attempt and raises the attempt count of its queue item; a completed,
failed or cancelled fact closes the attempt, and may only repeat what the started fact said about
it. The worker that holds the item's claim when the attempt starts is the one whose token the
attempt remembers. That token is coordination and not history: a terminal fact clears it and a
rebuild never sees it.
-/

namespace Zeta

open Outcome

variable {event : Event}

/-- The status in the payload, which defaults to the one in the event type. -/
def decodeAttemptStatus (error : DispatchError) (expected : AttemptStatus) :
    Option Value → Except DispatchError AttemptStatus
  | some (.string status) => require (AttemptStatus.fromStr status) error
  | some _ => .error error
  | none => .ok expected

/-- The status named by an event type: a started attempt is a running one. -/
def attemptStatusOfType (suffix : String) : Option AttemptStatus :=
  if suffix = "started" then some .running else AttemptStatus.fromStr suffix

/-- The status a lifecycle fact moves to. -/
def lifecycleAttemptStatus (event : Event) : Except DispatchError AttemptStatus := do
  let expected ← require (attemptStatusOfType (lastSegment event.eventType))
    (invalidLifecycle event "event_type")
  let actual ← decodeAttemptStatus (invalidLifecycle event "status") expected
    (event.payload.get "status")
  ensure (actual = expected) (invalidLifecycle event "status")
  return actual

/-- What an attempt lifecycle fact says. -/
structure AttemptFact where
  attemptId : String
  queueItemId : String
  eventId : String
  attemptNumber : ℕ
  targetAgent : String
  status : AttemptStatus
  startedAt : Option String
  sessionId : Option String
  runId : Option String
  projectRevision : Option String
  workerName : Option String
  finishedAt : Option String
  error : Option String
  timestampMs : Int
  deriving DecidableEq, Repr

/-- A supplied value does not contradict a retained one. -/
def agrees {α : Type} [DecidableEq α] (supplied retained : Option α) : Bool :=
  supplied = none || supplied = retained

/-- A fact about an existing attempt names the same attempt and repeats what is known of it. -/
def AttemptFact.sameAttempt (fact : AttemptFact) (previous : AttemptRow) : Bool :=
  (previous.queueItemId = fact.queueItemId && previous.eventId = fact.eventId
    && previous.attemptNumber = fact.attemptNumber && previous.targetAgent = fact.targetAgent)
  && (agrees fact.startedAt (some previous.startedAt) && agrees fact.sessionId previous.sessionId
    && agrees fact.runId previous.runId && agrees fact.projectRevision previous.projectRevision)

/-- Check the identity of an existing attempt; a new one must say when it started. -/
def checkAttemptIdentity (event : Event) (fact : AttemptFact) :
    Option AttemptRow → Except DispatchError Unit
  | some previous =>
    ensure (fact.sameAttempt previous) (invalidLifecycle event "attempt_identity")
  | none => ensure (fact.startedAt ≠ none) (invalidLifecycle event "started_at")

/-- The token of the claim under which an attempt starts. -/
def attemptClaimToken (fact : AttemptFact) (p : Projections) : Option String :=
  match fact.status, fact.workerName with
  | .running, some workerName =>
    ((p.queueClaims.find? fact.queueItemId).filter fun claim => claim.workerName = workerName).map
      (·.claimToken)
  | _, _ => none

/-- The row a fact leaves behind. -/
def AttemptFact.row (fact : AttemptFact) (claimToken : Option String) :
    Option AttemptRow → AttemptRow
  | none => {
      attemptId := fact.attemptId
      queueItemId := fact.queueItemId
      eventId := fact.eventId
      attemptNumber := fact.attemptNumber
      targetAgent := fact.targetAgent
      workerName := fact.workerName
      claimToken
      status := fact.status
      startedAt := fact.startedAt.getD ""
      heartbeatAt := some fact.timestampMs
      finishedAt := fact.finishedAt
      error := fact.error
      sessionId := fact.sessionId
      runId := fact.runId
      projectRevision := fact.projectRevision }
  | some row => {
      row with
      attemptId := fact.attemptId
      claimToken := if fact.status = .running then row.claimToken.or claimToken else none
      status := fact.status
      heartbeatAt := if fact.status = .running then some fact.timestampMs else none
      finishedAt := fact.finishedAt
      error := fact.error }

/-- The constraints on a new row. -/
def checkNewAttempt (journal : List JournalEntry) (fact : AttemptFact) (p : Projections) :
    Option AttemptRow → Except DispatchError Unit
  | some _ => .ok ()
  | none => ensure
      ((sqlText fact.attemptId ∧ sqlText fact.queueItemId ∧ sqlText fact.eventId ∧
        sqlText fact.targetAgent ∧ sqlText (fact.startedAt.getD "") ∧ 0 < fact.attemptNumber) ∧
        (∀ other ∈ p.attempts.rows,
          ¬(other.queueItemId = fact.queueItemId ∧ other.attemptNumber = fact.attemptNumber)) ∧
        (p.queueItems.find? fact.queueItemId).isSome ∧ journaled journal fact.eventId)
      (.database "project attempt lifecycle")

/-- Raise the attempt count of a queue item. -/
def raiseAttemptCount (fact : AttemptFact) (p : Projections) : Projections :=
  if fact.status = .running then
    { p with
      queueItems := p.queueItems.updateWhere (fun row => row.queueItemId = fact.queueItemId)
        (fun row => { row with attemptCount := max row.attemptCount fact.attemptNumber })
        (fun _ => rfl) }
  else p

/-- Put a row in the place of the one under its key, or at the end. -/
def Projections.upsertAttempt (p : Projections) (row : AttemptRow) : Projections :=
  { p with attempts := p.attempts.upsert row }

/-- What the payload of an attempt lifecycle event says. -/
def readAttemptFact (event : Event) : Except DispatchError AttemptFact := do
  let attemptId ← requiredRuntimeId event "attempt_id"
  let queueItemId ← requiredRuntimeId event "queue_item_id"
  let inputEventId ← requiredRuntimeId event "event_id"
  let attemptNumber ← requiredPositiveU32 event "attempt_number"
  let targetAgent ← requiredRuntimeId event "target_agent"
  let status ← lifecycleAttemptStatus event
  let startedAt ← optionalPayloadString event "started_at"
  let payloadSessionId ← optionalPayloadString event "session_id"
  let sessionId := payloadSessionId.or event.sessionId
  validateOptionalRuntimeId event "session_id" sessionId
  let payloadRunId ← optionalPayloadString event "run_id"
  let runId := payloadRunId.or event.runId
  validateOptionalRuntimeId event "run_id" runId
  let projectRevision ← optionalPayloadString event "project_revision"
  validateOptionalRuntimeId event "project_revision" projectRevision
  let workerName ← optionalPayloadString event "worker_name"
  let finishedAt ← optionalPayloadString event "finished_at"
  let error ← optionalPayloadString event "error"
  return {
    attemptId, queueItemId, eventId := inputEventId, attemptNumber, targetAgent, status, startedAt,
    sessionId, runId, projectRevision, workerName, finishedAt, error,
    timestampMs := event.timestampMs }

/-- Where the parts of an attempt fact come from. -/
structure AttemptFact.Says (fact : AttemptFact) (event : Event) : Prop where
  attemptId : event.payload.text "attempt_id" = some fact.attemptId
  queueItemId : event.payload.text "queue_item_id" = some fact.queueItemId
  eventId : event.payload.text "event_id" = some fact.eventId
  attemptNumber : requiredPositiveU32 event "attempt_number" = .ok fact.attemptNumber
  status : attemptStatusOfType (lastSegment event.eventType) = some fact.status
  sessionId : fact.sessionId = (event.payload.text "session_id").or event.sessionId

theorem lifecycleAttemptStatus_ok {status : AttemptStatus}
    (h : lifecycleAttemptStatus event = .ok status) :
    attemptStatusOfType (lastSegment event.eventType) = some status := by
  simp only [lifecycleAttemptStatus, ok_iff] at h
  obtain ⟨expected, hexpected, actual, -, -, rfl, rfl⟩ := h
  exact hexpected

theorem readAttemptFact_reads {fact : AttemptFact} (h : readAttemptFact event = .ok fact) :
    fact.Says event := by
  simp only [readAttemptFact, ok_iff] at h
  obtain ⟨a, ha, q, hq, e, he, n, hn, t, -, st, hst, sa, -, ss, hss, _, -, ri, -, _, -, pr, -, _, -,
    w, -, f, -, er, -, rfl⟩ := h
  exact {
    attemptId := (requiredRuntimeId_ok_iff.mp ha).1
    queueItemId := (requiredRuntimeId_ok_iff.mp hq).1
    eventId := (requiredRuntimeId_ok_iff.mp he).1
    attemptNumber := hn
    status := lifecycleAttemptStatus_ok hst
    sessionId := by rw [optionalPayloadString_eq_text hss] }

/-- Project one attempt lifecycle fact. The parts of the payload that only end up in the row are
read after the transition has been checked. -/
def indexAttempt (journal : List JournalEntry) (event : Event) (p : Projections) :
    Except DispatchError Projections := do
  let attemptId ← requiredRuntimeId event "attempt_id"
  let queueItemId ← requiredRuntimeId event "queue_item_id"
  let inputEventId ← requiredRuntimeId event "event_id"
  let attemptNumber ← requiredPositiveU32 event "attempt_number"
  let targetAgent ← requiredRuntimeId event "target_agent"
  let status ← lifecycleAttemptStatus event
  let startedAt ← optionalPayloadString event "started_at"
  let payloadSessionId ← optionalPayloadString event "session_id"
  let sessionId := payloadSessionId.or event.sessionId
  validateOptionalRuntimeId event "session_id" sessionId
  let payloadRunId ← optionalPayloadString event "run_id"
  let runId := payloadRunId.or event.runId
  validateOptionalRuntimeId event "run_id" runId
  let projectRevision ← optionalPayloadString event "project_revision"
  validateOptionalRuntimeId event "project_revision" projectRevision
  let identity : AttemptFact := {
    attemptId, queueItemId, eventId := inputEventId, attemptNumber, targetAgent, status, startedAt,
    sessionId, runId, projectRevision, workerName := none, finishedAt := none, error := none,
    timestampMs := event.timestampMs }
  let previous := p.attempts.find? attemptId
  checkAttemptIdentity event identity previous
  (AttemptStatus.validateTransition (previous.map (·.status)) status).mapError .transition
  let workerName ← optionalPayloadString event "worker_name"
  let finishedAt ← optionalPayloadString event "finished_at"
  let error ← optionalPayloadString event "error"
  let fact : AttemptFact := { identity with workerName, finishedAt, error }
  checkNewAttempt journal fact p previous
  return raiseAttemptCount fact (p.upsertAttempt (fact.row (attemptClaimToken fact p) previous))

/-! ### Reading and applying, separated -/

/-- What an attempt fact does to the tables when it is accepted. -/
structure AttemptFact.Applies (fact : AttemptFact) (journal : List JournalEntry)
    (p p' : Projections) : Prop where
  /-- A new attempt says when it started. -/
  started : p.attempts.find? fact.attemptId = none → fact.startedAt ≠ none
  /-- A fact about an existing attempt names the same attempt. -/
  same : ∀ row ∈ p.attempts.find? fact.attemptId, fact.sameAttempt row = true
  /-- The edge belongs to the state machine. -/
  allowed : AttemptStatus.canTransition ((p.attempts.find? fact.attemptId).map (·.status))
    fact.status = true
  /-- A new row satisfies the constraints of its table. -/
  new : p.attempts.find? fact.attemptId = none →
    (sqlText fact.attemptId ∧ sqlText fact.queueItemId ∧ sqlText fact.eventId ∧
      sqlText fact.targetAgent ∧ sqlText (fact.startedAt.getD "") ∧ 0 < fact.attemptNumber) ∧
    (∀ other ∈ p.attempts,
      ¬(other.queueItemId = fact.queueItemId ∧ other.attemptNumber = fact.attemptNumber)) ∧
    (p.queueItems.find? fact.queueItemId).isSome ∧ journaled journal fact.eventId = true
  /-- The row is written and the attempt count raised. -/
  result : p' = raiseAttemptCount fact (p.upsertAttempt
    (fact.row (attemptClaimToken fact p) (p.attempts.find? fact.attemptId)))

/-- An attempt fact is accepted exactly when its payload reads and the reading applies. -/
theorem indexAttempt_ok_iff {journal : List JournalEntry} {p p' : Projections} :
    indexAttempt journal event p = .ok p' ↔
      ∃ fact, readAttemptFact event = .ok fact ∧ fact.Applies journal p p' := by
  simp only [indexAttempt, readAttemptFact, ok_iff]
  constructor
  · rintro ⟨a, ha, q, hq, e, he, n, hn, t, ht, st, hst, sa, hsa, ss, hss, _, hsv, ri, hri, _, hrv,
      pr, hpr, _, hpv, _, hid, _, htr, w, hw, f, hf, er, her, _, hnew, rfl⟩
    refine ⟨⟨a, q, e, n, t, st, sa, ss.or event.sessionId, ri.or event.runId, pr, w, f, er,
      event.timestampMs⟩, ⟨a, ha, q, hq, e, he, n, hn, t, ht, st, hst, sa, hsa, ss, hss, (), hsv,
      ri, hri, (), hrv, pr, hpr, (), hpv, w, hw, f, hf, er, her, rfl⟩, ?_, ?_, ?_, ?_, rfl⟩
    · intro hnone
      simpa [hnone, checkAttemptIdentity] using hid
    · intro row hrow
      have hrow : p.attempts.find? a = some row := hrow
      simpa [hrow, checkAttemptIdentity, AttemptFact.sameAttempt] using hid
    · simpa [AttemptStatus.validateTransition] using htr
    · intro hnone
      simpa [hnone, checkNewAttempt, Table.mem_def] using hnew
  · rintro ⟨fact, ⟨a, ha, q, hq, e, he, n, hn, t, ht, st, hst, sa, hsa, ss, hss, _, hsv, ri, hri, _,
      hrv, pr, hpr, _, hpv, w, hw, f, hf, er, her, rfl⟩, hstarted, hsame, hallowed, hnew, rfl⟩
    refine ⟨a, ha, q, hq, e, he, n, hn, t, ht, st, hst, sa, hsa, ss, hss, (), hsv, ri, hri, (), hrv,
      pr, hpr, (), hpv, (), ?_, (), ?_, w, hw, f, hf, er, her, (), ?_, rfl⟩
    · cases hp : p.attempts.find? a with
      | none => simpa [checkAttemptIdentity] using hstarted hp
      | some row => simpa [checkAttemptIdentity, AttemptFact.sameAttempt] using hsame row hp
    · simpa [AttemptStatus.validateTransition] using hallowed
    · cases hp : p.attempts.find? a with
      | none => simpa [checkNewAttempt, Table.mem_def] using hnew hp
      | some row => rfl

/-! ### Reading back -/

namespace ReadsBack

variable [FloatText] {event event' : Event}

theorem lifecycleAttemptStatus_eq (h : ReadsBack event event') :
    lifecycleAttemptStatus event' = lifecycleAttemptStatus event := by
  have hstatus (expected : AttemptStatus) :=
    h.congr "status" (decodeAttemptStatus (invalidLifecycle event "status") expected)
      (fun _ _ _ => rfl) (fun _ _ _ => rfl) (fun _ _ _ => rfl)
  simp only [lifecycleAttemptStatus, h.invalidLifecycle_eq, h.eventType_eq, hstatus]

/-- An attempt fact says the same when it is read back. -/
theorem readAttemptFact_eq (h : ReadsBack event event') :
    readAttemptFact event' = readAttemptFact event := by
  simp only [readAttemptFact, h.requiredRuntimeId_eq, h.requiredPositiveU32_eq,
    h.lifecycleAttemptStatus_eq, h.optionalPayloadString_eq, h.sessionId_eq, h.runId_eq,
    h.validateOptionalRuntimeId_eq, h.timestampMs_eq]

end ReadsBack

end Zeta
