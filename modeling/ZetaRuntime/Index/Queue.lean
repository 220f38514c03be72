import ZetaRuntime.Index.Payload

/-!
# Projecting queue lifecycle facts

An ingress event opens one pending, unbound row, which holds back every later claim until the event
is routed. A lifecycle fact then moves a row along the state machine, or creates it, and closes the
unbound row of its input event when it names another one. A cancellation request is a mark on the
row and not a state.

The projection function follows the source, including the order in which it reads the payload and
consults the tables, because that order decides which error is reported. Proofs use it through
`indexQueueItem_ok_iff`, which separates the two: `readQueueFact` is what the payload says and
`QueueFact.Applies` is what that does to the tables.

## Main definitions

* `indexQueueItem` — the projection
* `readQueueFact`, `QueueFact.Applies` — what a payload says, and what that does

## Main results

* `indexQueueItem_ok_iff` — the projection is the two together
* `readQueueFact_eq` — a fact says the same when it is read back
-/

namespace Zeta

open Outcome

variable {event : Event} {journal : List JournalEntry} {previous : Option QueueItemRow}
  {p p' : Projections} {inputEventId queueItemId : String} {u : Unit} {cursor : ℕ}

/-! ### Deleting rows, with what refers to them -/

/-- Delete claims, and the locks they own. -/
def Projections.deleteClaimsWhere (p : Projections) (dead : QueueClaimRow → Bool) : Projections :=
  { p with
    queueClaims := p.queueClaims.deleteWhere dead
    locks := p.locks.deleteWhere fun lock =>
      p.queueClaims.rows.any fun claim => dead claim && claim.claimToken = lock.owner }

/-- Delete a queue item, and its claim. -/
def Projections.deleteQueueItem (p : Projections) (queueItemId : String) : Projections :=
  { p.deleteClaimsWhere (fun claim => claim.queueItemId = queueItemId) with
    queueItems := p.queueItems.deleteWhere fun row => row.queueItemId = queueItemId }

/-! ### The unbound row of an ingress event -/

/-- The unbound row of an ingress event. -/
def pendingRow (event : Event) (cursor : ℕ) : QueueItemRow where
  queueItemId := pendingQueueItemId event.id
  eventId := event.id
  targetAgent := ""
  projectRevision := none
  sessionId := none
  lockKeys := []
  inputCursor := cursor
  status := .pending
  availableAt := some event.timestampMs
  cancelRequestedEventId := none
  cancelRequestedAt := none
  cancelReason := none
  attemptCount := 0
  lastError := none
  updatedAt := event.timestampMs

/-- Open the unbound row of an ingress event, unless its identity is taken. -/
def indexPendingQueueItem (event : Event) (p : Projections) : Except DispatchError Projections := do
  let cursor ← require event.cursor (invalidLifecycle event "cursor")
  ensure ((cursor : Int) ≤ i64Max) (invalidLifecycle event "cursor")
  ensure (sqlText event.id ∧ 0 < cursor) (.database "project pending queue item")
  match p.queueItems.insert? (pendingRow event cursor) with
  | none => .ok p
  | some queueItems => do
    ensure (∀ other ∈ p.queueItems.rows, ¬(other.eventId = event.id ∧ other.targetAgent = ""))
      (.database "project pending queue item")
    return { p with queueItems }

/-- Close the unbound row of the input event of a fact that names another row. Attempts hold on to
their queue item; claims go with it. -/
def closePendingRouteBarrier (queueItemId inputEventId : String) (p : Projections) :
    Except DispatchError Projections :=
  let pendingId := pendingQueueItemId inputEventId
  if queueItemId = pendingId then .ok p
  else
    match p.queueItems.find? pendingId with
    | none => .ok p
    | some row =>
      if row.targetAgent = "" then do
        ensure (∀ attempt ∈ p.attempts.rows, attempt.queueItemId ≠ pendingId)
          (.database "close pending route barrier")
        return p.deleteQueueItem pendingId
      else .ok p

theorem indexPendingQueueItem_ok_iff :
    indexPendingQueueItem event p = .ok p' ↔
      ∃ cursor, event.cursor = some cursor ∧ (cursor : Int) ≤ i64Max ∧ sqlText event.id = true ∧
        0 < cursor ∧
        ((p.queueItems.find? (pendingQueueItemId event.id) ≠ none ∧ p' = p) ∨
          (p.queueItems.find? (pendingQueueItemId event.id) = none ∧
            (∀ other ∈ p.queueItems, ¬(other.eventId = event.id ∧ other.targetAgent = "")) ∧
            p' = { p with queueItems := p.queueItems.upsert (pendingRow event cursor) })) := by
  simp only [indexPendingQueueItem, ok_iff, exists_const]
  refine exists_congr fun cursor => and_congr_right fun _ => and_congr_right fun _ => ?_
  rw [and_assoc]
  refine and_congr_right fun _ => and_congr_right fun _ => ?_
  have hkey : (pendingRow event cursor).queueItemId = pendingQueueItemId event.id := rfl
  by_cases hfree : p.queueItems.find? (pendingQueueItemId event.id) = none
  · simp [Table.insert?, Table.upsert, hkey, hfree, Table.mem_def,
      @eq_comm _ (Projections.mk _ _ _ _ _ _ _ _) p']
  · simp [Table.insert?, hkey, hfree, @eq_comm _ p p']

/-- Whether a fact about an item closes the unbound row of its input event. -/
def Projections.Closes (p : Projections) (queueItemId inputEventId : String) : Prop :=
  queueItemId ≠ pendingQueueItemId inputEventId ∧
    ∃ row, p.queueItems.find? (pendingQueueItemId inputEventId) = some row ∧ row.targetAgent = ""

theorem closePendingRouteBarrier_ok_iff :
    closePendingRouteBarrier queueItemId inputEventId p = .ok p' ↔
      (¬p.Closes queueItemId inputEventId ∧ p' = p) ∨
      (p.Closes queueItemId inputEventId ∧
        (∀ attempt ∈ p.attempts, attempt.queueItemId ≠ pendingQueueItemId inputEventId) ∧
        p' = p.deleteQueueItem (pendingQueueItemId inputEventId)) := by
  unfold closePendingRouteBarrier Projections.Closes
  by_cases hid : queueItemId = pendingQueueItemId inputEventId
  · simp [hid, @eq_comm _ p p']
  · cases hrow : p.queueItems.find? (pendingQueueItemId inputEventId) with
    | none => simp [hid, hrow, @eq_comm _ p p']
    | some row =>
      by_cases htarget : row.targetAgent = ""
      · simp [hid, hrow, htarget, Table.mem_def, @eq_comm _ (p.deleteQueueItem _) p']
      · simp [hid, hrow, htarget, @eq_comm _ p p']

/-- Closing the unbound row leaves every other row alone. -/
theorem find?_of_closePendingRouteBarrier
    (h : closePendingRouteBarrier queueItemId inputEventId p = .ok p') (id : String) :
    p'.queueItems.find? id = p.queueItems.find? id ∨
      p.Closes queueItemId inputEventId ∧ id = pendingQueueItemId inputEventId ∧
        p'.queueItems.find? id = none := by
  rcases closePendingRouteBarrier_ok_iff.mp h with ⟨-, rfl⟩ | ⟨hcloses, -, rfl⟩
  · exact .inl rfl
  · simp only [Projections.deleteQueueItem, Table.find?_deleteWhere]
    cases hfind : p.queueItems.find? id with
    | none => exact .inl (by simp)
    | some row =>
      have hid := Table.key_of_find? hfind
      by_cases heq : id = pendingQueueItemId inputEventId
      · exact .inr ⟨hcloses, heq, by simp [Option.filter, hid, heq]⟩
      · exact .inl (by simp [Option.filter, hid, heq])

/-- A fact never closes the row it is about. -/
theorem find?_self_of_closePendingRouteBarrier
    (h : closePendingRouteBarrier queueItemId inputEventId p = .ok p') :
    p'.queueItems.find? queueItemId = p.queueItems.find? queueItemId := by
  rcases find?_of_closePendingRouteBarrier h queueItemId with heq | ⟨hcloses, heq, -⟩
  · exact heq
  · exact absurd heq hcloses.1

/-! ### Reading a lifecycle fact -/

/-- The status in the payload, which defaults to the one in the event type. -/
def decodeQueueStatus (error : DispatchError) (expected : QueueItemStatus) :
    Option Value → Except DispatchError QueueItemStatus
  | some (.string status) => require (QueueItemStatus.fromStr status) error
  | some _ => .error error
  | none => .ok expected

/-- The status a lifecycle fact moves to. -/
def lifecycleQueueStatus (event : Event) : Except DispatchError QueueItemStatus := do
  let expected ← require (QueueItemStatus.fromStr (lastSegment event.eventType))
    (invalidLifecycle event "event_type")
  let actual ← decodeQueueStatus (invalidLifecycle event "status") expected
    (event.payload.get "status")
  ensure (actual = expected) (invalidLifecycle event "status")
  return actual

/-- The message of a structured error. -/
def decodeLastError (error : DispatchError) : Option Value → Except DispatchError (Option String)
  | none => .ok none
  | some (.object lastError) => some <$> decodeString error true (Map.get lastError "message")
  | some _ => .error error

/-- The error in a payload, or the message of its structured error. -/
def errorOrElse (event : Event) : Option String → Except DispatchError (Option String)
  | some error => .ok (some error)
  | none => decodeLastError (invalidLifecycle event "last_error") (event.payload.get "last_error")

/-- The latest execution error a fact carries. -/
def queueLastError (event : Event) : Except DispatchError (Option String) := do
  let error ← optionalPayloadString event "error"
  errorOrElse event error

/-- The cursor of the event a fact is about. -/
def inputEventCursor (journal : List JournalEntry) (eventId : String) (lifecycleEvent : Event) :
    Except DispatchError ℕ := do
  let cursor ← require (cursorOf journal eventId) (invalidLifecycle lifecycleEvent "event_id")
  ensure (0 < cursor) (.corruptJournal none "cursor")
  return cursor

section Read

variable [FloatText]

/-- The binary64 number a token denotes. -/
def Number.asF64 : Number → Option Float
  | .int n => FloatText.parseF64 (toString n)
  | .float token => FloatText.parseF64 token

/-- A time in milliseconds, truncated if it has a fraction. -/
def numberMs (error : DispatchError) (number : Number) : Except DispatchError Int :=
  match number.asI64 with
  | some value => .ok value
  | none => do
    let value ← require number.asF64 error
    ensure (value.isFinite ∧ ¬(value < -9223372036854775808.0) ∧ ¬(value ≥ 9223372036854775807.0))
      error
    return value.toInt64.toInt

/-- The time before which an item must not run. -/
def decodeNotBefore (error : DispatchError) (timestampMs : Int) :
    Option Value → Except DispatchError Int
  | none => .ok timestampMs
  | some (.number number) => numberMs error number
  | some _ => .error error

/-- The earliest execution time of an available item. -/
def queueAvailableAt (event : Event) : Except DispatchError Int :=
  decodeNotBefore (invalidLifecycle event "not_before") event.timestampMs
    (event.payload.get "not_before")

/-- The availability a fact sets, if it makes its item available. -/
def factAvailableAt (event : Event) (status : QueueItemStatus) :
    Except DispatchError (Option Int) :=
  if status = .available then some <$> queueAvailableAt event else .ok none

/-- What a queue lifecycle fact says. -/
structure QueueFact where
  queueItemId : String
  eventId : String
  targetAgent : String
  status : QueueItemStatus
  sessionId : Option String
  projectRevision : Option String
  lockKeys : Option (List String)
  lastError : Option String
  availableAt : Option Int
  updatedAt : Int
  deriving DecidableEq, Repr

end Read

/-! ### Moving a row -/

/-- The row under the fact's identity must be about the same event, and bound to the same agent
unless it is still pending. -/
def checkQueueIdentity (event : Event) (inputEventId targetAgent : String) :
    Option QueueItemRow → Except DispatchError Unit
  | none => .ok ()
  | some previous => do
    ensure (previous.eventId = inputEventId) (invalidLifecycle event "event_id")
    ensure (previous.targetAgent = targetAgent ∨ previous.status = .pending)
      (invalidLifecycle event "target_agent")

/-- The two edges a pending row may take besides those of the state machine: a routed fan-out closes
it, and a requested cancellation ends it. -/
def pendingException (previous : Option QueueItemRow)
    (queueItemId inputEventId targetAgent : String) (status : QueueItemStatus) : Bool :=
  match previous with
  | none => false
  | some previous =>
    previous.status = .pending &&
      ((queueItemId = pendingQueueItemId inputEventId && targetAgent = "" && status = .completed) ||
        (status = .cancelled && previous.cancelRequestedEventId.isSome))

/-- Check the edge from the previous row's status, if there is one. -/
def checkQueueTransition (previous : Option QueueItemRow)
    (queueItemId inputEventId targetAgent : String) (status : QueueItemStatus) :
    Except DispatchError Unit :=
  if pendingException previous queueItemId inputEventId targetAgent status then .ok ()
  else (QueueItemStatus.validateTransition (previous.map (·.status)) status).mapError .transition

/-- The row a fact leaves behind. -/
def QueueFact.row (fact : QueueFact) (inputCursor : ℕ) : Option QueueItemRow → QueueItemRow
  | none => {
      queueItemId := fact.queueItemId
      eventId := fact.eventId
      targetAgent := fact.targetAgent
      projectRevision := fact.projectRevision
      sessionId := fact.sessionId
      lockKeys := fact.lockKeys.getD []
      inputCursor
      status := fact.status
      availableAt := fact.availableAt
      cancelRequestedEventId := none
      cancelRequestedAt := none
      cancelReason := none
      attemptCount := 0
      lastError := fact.lastError
      updatedAt := fact.updatedAt }
  | some row => {
      row with
      queueItemId := fact.queueItemId
      eventId := fact.eventId
      targetAgent := fact.targetAgent
      projectRevision := fact.projectRevision.or row.projectRevision
      sessionId := fact.sessionId.or row.sessionId
      lockKeys := fact.lockKeys.getD row.lockKeys
      inputCursor
      status := fact.status
      availableAt := if fact.status = .available then fact.availableAt else row.availableAt
      lastError := fact.lastError
      updatedAt := fact.updatedAt }

/-- Put a row in the place of the one under its key, or at the end. -/
def Projections.upsertQueueItem (p : Projections) (row : QueueItemRow) : Projections :=
  { p with queueItems := p.queueItems.upsert row }

/-- Insert or update the row of a fact. -/
def upsertQueueItem (fact : QueueFact) (inputCursor : ℕ) (p : Projections) :
    Except DispatchError Projections := do
  ensure (sqlText fact.queueItemId ∧ sqlText fact.eventId) (.database "project queue lifecycle")
  ensure (∀ other ∈ p.queueItems.rows, other.queueItemId ≠ fact.queueItemId →
    ¬(other.eventId = fact.eventId ∧ other.targetAgent = fact.targetAgent))
    (.database "project queue lifecycle")
  return p.upsertQueueItem (fact.row inputCursor (p.queueItems.find? fact.queueItemId))

section Index

variable [FloatText]

/-- Project one queue lifecycle fact. -/
def indexQueueItem (journal : List JournalEntry) (event : Event) (p : Projections) :
    Except DispatchError Projections := do
  let queueItemId ← requiredRuntimeId event "queue_item_id"
  let inputEventId ← requiredRuntimeId event "event_id"
  let targetAgent ← requiredPayloadString event "target_agent" true
  let status ← lifecycleQueueStatus event
  let p ← closePendingRouteBarrier queueItemId inputEventId p
  let previous := p.queueItems.find? queueItemId
  checkQueueIdentity event inputEventId targetAgent previous
  checkQueueTransition previous queueItemId inputEventId targetAgent status
  let inputCursor ← inputEventCursor journal inputEventId event
  let payloadSessionId ← optionalPayloadString event "session_id"
  let sessionId := payloadSessionId.or event.sessionId
  validateOptionalRuntimeId event "session_id" sessionId
  let projectRevision ← optionalPayloadString event "project_revision"
  validateOptionalRuntimeId event "project_revision" projectRevision
  let lockKeys ← optionalPayloadStringArray event "lock_keys"
  let lastError ← queueLastError event
  let availableAt ← factAvailableAt event status
  let fact : QueueFact := {
    queueItemId, eventId := inputEventId, targetAgent, status, sessionId, projectRevision, lockKeys,
    lastError, availableAt, updatedAt := event.timestampMs }
  upsertQueueItem fact inputCursor p

end Index

/-- Mark a row with the first cancellation request. -/
def QueueItemRow.requestCancellation (row : QueueItemRow) (eventId : String) (at_ : Int)
    (reason : Option String) : QueueItemRow :=
  { row with
    cancelRequestedEventId := row.cancelRequestedEventId.or (some eventId)
    cancelRequestedAt := row.cancelRequestedAt.or (some at_)
    cancelReason := row.cancelReason.or reason }

/-- Project one cancellation request. -/
def indexQueueItemCancelRequested (event : Event) (p : Projections) :
    Except DispatchError Projections := do
  let queueItemId ← requiredRuntimeId event "queue_item_id"
  let inputEventId ← requiredRuntimeId event "event_id"
  let targetAgent ← requiredPayloadString event "target_agent" true
  let suppliedStatus ← requiredPayloadString event "status" false
  let _ ← require (QueueItemStatus.fromStr suppliedStatus) (invalidLifecycle event "status")
  let reason ← optionalPayloadString event "reason"
  let selected (row : QueueItemRow) : Bool :=
    row.queueItemId = queueItemId && row.eventId = inputEventId && row.targetAgent = targetAgent
  ensure (p.queueItems.countWhere selected = 1) (invalidLifecycle event "queue_item_id")
  return { p with
    queueItems := p.queueItems.updateWhere selected
      (fun row => row.requestCancellation event.id event.timestampMs reason) (fun _ => rfl) }

/-! ### Reading and applying, separated -/

section Split

variable [FloatText]

variable {fact : QueueFact}

/-- What the payload of a queue lifecycle event says. -/
def readQueueFact (event : Event) : Except DispatchError QueueFact := do
  let queueItemId ← requiredRuntimeId event "queue_item_id"
  let inputEventId ← requiredRuntimeId event "event_id"
  let targetAgent ← requiredPayloadString event "target_agent" true
  let status ← lifecycleQueueStatus event
  let payloadSessionId ← optionalPayloadString event "session_id"
  let sessionId := payloadSessionId.or event.sessionId
  validateOptionalRuntimeId event "session_id" sessionId
  let projectRevision ← optionalPayloadString event "project_revision"
  validateOptionalRuntimeId event "project_revision" projectRevision
  let lockKeys ← optionalPayloadStringArray event "lock_keys"
  let lastError ← queueLastError event
  let availableAt ← factAvailableAt event status
  return {
    queueItemId, eventId := inputEventId, targetAgent, status, sessionId, projectRevision, lockKeys,
    lastError, availableAt, updatedAt := event.timestampMs }

/-- Where the parts of a queue fact come from. -/
structure QueueFact.Says (fact : QueueFact) (event : Event) : Prop where
  queueItemId : event.payload.text "queue_item_id" = some fact.queueItemId
  eventId : event.payload.text "event_id" = some fact.eventId
  targetAgent : event.payload.text "target_agent" = some fact.targetAgent
  status : QueueItemStatus.fromStr (lastSegment event.eventType) = some fact.status
  sessionId : fact.sessionId = (event.payload.text "session_id").or event.sessionId
  projectRevision : fact.projectRevision = event.payload.text "project_revision"

omit [FloatText] in
theorem lifecycleQueueStatus_ok {status : QueueItemStatus}
    (h : lifecycleQueueStatus event = .ok status) :
    QueueItemStatus.fromStr (lastSegment event.eventType) = some status := by
  simp only [lifecycleQueueStatus, ok_iff] at h
  obtain ⟨expected, hexpected, actual, -, -, rfl, rfl⟩ := h
  exact hexpected

theorem readQueueFact_reads (h : readQueueFact event = .ok fact) : fact.Says event := by
  simp only [readQueueFact, ok_iff] at h
  obtain ⟨q, hq, e, he, t, ht, st, hst, ss, hss, _, -, pr, hpr, _, -, lk, -, le, -, av, -, rfl⟩ := h
  exact {
    queueItemId := (requiredRuntimeId_ok_iff.mp hq).1
    eventId := (requiredRuntimeId_ok_iff.mp he).1
    targetAgent := (requiredPayloadString_ok_iff.mp ht).1
    status := lifecycleQueueStatus_ok hst
    sessionId := by rw [optionalPayloadString_eq_text hss]
    projectRevision := by rw [optionalPayloadString_eq_text hpr] }

section

omit [FloatText]

/-- The edge a fact takes from the previous row is allowed. -/
def QueueFact.Allowed (fact : QueueFact) (previous : Option QueueItemRow) : Prop :=
  pendingException previous fact.queueItemId fact.eventId fact.targetAgent fact.status = true ∨
    QueueItemStatus.canTransition (previous.map (·.status)) fact.status = true

/-- What a queue fact does to the tables when it is accepted. -/
structure QueueFact.Applies (fact : QueueFact) (journal : List JournalEntry)
    (p p' : Projections) : Prop where
  intro ::
  step : ∃ closed, closePendingRouteBarrier fact.queueItemId fact.eventId p = .ok closed ∧
    (∀ row ∈ closed.queueItems.find? fact.queueItemId, row.eventId = fact.eventId ∧
      (row.targetAgent = fact.targetAgent ∨ row.status = .pending)) ∧
    fact.Allowed (closed.queueItems.find? fact.queueItemId) ∧
    (sqlText fact.queueItemId = true ∧ sqlText fact.eventId = true) ∧
    (∀ other ∈ closed.queueItems, other.queueItemId ≠ fact.queueItemId →
      ¬(other.eventId = fact.eventId ∧ other.targetAgent = fact.targetAgent)) ∧
    ∃ cursor, cursorOf journal fact.eventId = some cursor ∧ 0 < cursor ∧
      p' = closed.upsertQueueItem (fact.row cursor (closed.queueItems.find? fact.queueItemId))

theorem checkQueueIdentity_ok_iff {targetAgent : String} :
    checkQueueIdentity event inputEventId targetAgent previous = .ok u ↔
      ∀ row ∈ previous, row.eventId = inputEventId ∧
        (row.targetAgent = targetAgent ∨ row.status = .pending) := by
  cases previous with
  | none => simp [checkQueueIdentity]
  | some row => simp [checkQueueIdentity]

theorem checkQueueTransition_ok_iff (fact : QueueFact) :
    checkQueueTransition previous fact.queueItemId fact.eventId fact.targetAgent fact.status =
      .ok u ↔
      fact.Allowed previous := by
  unfold checkQueueTransition QueueFact.Allowed
  split
  · rename_i h; simp [h]
  · rename_i h; simp [h, QueueItemStatus.validateTransition]

theorem upsertQueueItem_ok_iff :
    upsertQueueItem fact cursor p = .ok p' ↔
      (sqlText fact.queueItemId = true ∧ sqlText fact.eventId = true) ∧
      (∀ other ∈ p.queueItems, other.queueItemId ≠ fact.queueItemId →
        ¬(other.eventId = fact.eventId ∧ other.targetAgent = fact.targetAgent)) ∧
      p' = p.upsertQueueItem (fact.row cursor (p.queueItems.find? fact.queueItemId)) := by
  simp only [upsertQueueItem, ok_iff, exists_const, Table.mem_def]
  exact and_congr_right fun _ => and_congr_right fun _ => eq_comm

theorem inputEventCursor_ok_iff {eventId : String} :
    inputEventCursor journal eventId event = .ok cursor ↔
      cursorOf journal eventId = some cursor ∧ 0 < cursor := by
  simp only [inputEventCursor, ok_iff, exists_const]
  constructor
  · rintro ⟨c, hc, hpos, rfl⟩; exact ⟨hc, hpos⟩
  · rintro ⟨hc, hpos⟩; exact ⟨cursor, hc, hpos, rfl⟩

end

/-- A queue fact is accepted exactly when its payload reads and the reading applies. -/
theorem indexQueueItem_ok_iff :
    indexQueueItem journal event p = .ok p' ↔
      ∃ fact, readQueueFact event = .ok fact ∧ fact.Applies journal p p' := by
  simp only [indexQueueItem, readQueueFact, ok_iff]
  constructor
  · rintro ⟨q, hq, e, he, t, ht, st, hst, closed, hclosed, _, hid, _, htr, c, hc, ss, hss, _, hsv,
      pr, hpr, _, hpv, lk, hlk, le, hle, av, hav, hup⟩
    refine ⟨⟨q, e, t, st, ss.or event.sessionId, pr, lk, le, av, event.timestampMs⟩,
      ⟨q, hq, e, he, t, ht, st, hst, ss, hss, (), hsv, pr, hpr, (), hpv, lk, hlk, le, hle, av, hav,
        rfl⟩, ⟨closed, hclosed, checkQueueIdentity_ok_iff.mp hid, ?_, ?_⟩⟩
    · exact (checkQueueTransition_ok_iff ⟨q, e, t, st, _, pr, lk, le, av, _⟩).mp htr
    · obtain ⟨hc, hpos⟩ := inputEventCursor_ok_iff.mp hc
      obtain ⟨hsql, huniq, hup⟩ := upsertQueueItem_ok_iff.mp hup
      exact ⟨hsql, huniq, c, hc, hpos, hup⟩
  · rintro ⟨fact, ⟨q, hq, e, he, t, ht, st, hst, ss, hss, _, hsv, pr, hpr, _, hpv, lk, hlk, le, hle,
      av, hav, rfl⟩, ⟨closed, hclosed, hid, htr, hsql, huniq, c, hc, hpos, rfl⟩⟩
    exact ⟨q, hq, e, he, t, ht, st, hst, closed, hclosed, (), checkQueueIdentity_ok_iff.mpr hid, (),
      (checkQueueTransition_ok_iff _).mpr htr, c, inputEventCursor_ok_iff.mpr ⟨hc, hpos⟩, ss, hss,
      (),
      hsv, pr, hpr, (), hpv, lk, hlk, le, hle, av, hav,
      upsertQueueItem_ok_iff.mpr ⟨hsql, huniq, rfl⟩⟩

end Split

/-! ### Reading back -/

section ReadsBack

variable [FloatText] {event event' : Event}

theorem asF64_pythonNumber [LawfulFloatText] {n m : Number} (h : pythonNumber n = .ok m) :
    m.asF64 = n.asF64 := by
  rcases pythonNumber_ok_cases h with ⟨rfl, -⟩ | ⟨token, x, rfl, hx, rfl⟩
  · rfl
  · simp only [Number.asF64, hx]
    rw [LawfulFloatText.parse_respell, LawfulFloatText.parse_display token x hx]

/-- Inside an object, too, a text is read back as it was. -/
theorem decodeString_canonical {m m' : Map} (h : canonicalPayload m = .ok m')
    (error : DispatchError) (allowEmpty : Bool) (field : String) :
    decodeString error allowEmpty (Map.get m' field)
      = decodeString error allowEmpty (Map.get m field) := by
  have hget := Map.get_canonical h field
  cases hv : Map.get m field with
  | none => rw [hv] at hget; rw [hget]
  | some v =>
    rw [hv] at hget
    obtain ⟨w, hw, hget⟩ := hget
    rw [hget]
    have hkind := canonical_ok_cases hw
    cases v with
    | null | bool | string => rw [hkind]
    | number | array | object => obtain ⟨_, -, rfl⟩ := hkind; rfl

namespace ReadsBack

theorem lifecycleQueueStatus_eq (h : ReadsBack event event') :
    lifecycleQueueStatus event' = lifecycleQueueStatus event := by
  have hstatus (expected : QueueItemStatus) :=
    h.congr "status" (decodeQueueStatus (invalidLifecycle event "status") expected)
      (fun _ _ _ => rfl) (fun _ _ _ => rfl) (fun _ _ _ => rfl)
  simp only [lifecycleQueueStatus, h.invalidLifecycle_eq, h.eventType_eq, hstatus]

theorem queueLastError_eq (h : ReadsBack event event') :
    queueLastError event' = queueLastError event := by
  have hlast := h.congr "last_error" (decodeLastError (invalidLifecycle event "last_error"))
    (fun _ _ _ => rfl) (fun _ _ _ => rfl)
    (fun _ _ hm => by simp only [decodeLastError, decodeString_canonical hm])
  have helse : errorOrElse event' = errorOrElse event := by
    funext error
    cases error with
    | none => simp only [errorOrElse, h.invalidLifecycle_eq, hlast]
    | some => rfl
  simp only [queueLastError, h.optionalPayloadString_eq, helse]

theorem factAvailableAt_eq [LawfulFloatText] (h : ReadsBack event event')
    (status : QueueItemStatus) : factAvailableAt event' status = factAvailableAt event status := by
  have hnot := h.congr "not_before"
    (decodeNotBefore (invalidLifecycle event "not_before") event.timestampMs)
    (fun _ _ hm => by
      simp only [decodeNotBefore, numberMs, asI64_pythonNumber hm, asF64_pythonNumber hm])
    (fun _ _ _ => rfl) (fun _ _ _ => rfl)
  simp only [factAvailableAt, queueAvailableAt, h.invalidLifecycle_eq, h.timestampMs_eq, hnot]

/-- A queue fact says the same when it is read back. -/
theorem readQueueFact_eq [LawfulFloatText] (h : ReadsBack event event') :
    readQueueFact event' = readQueueFact event := by
  simp only [readQueueFact, h.requiredRuntimeId_eq, h.requiredPayloadString_eq,
    h.lifecycleQueueStatus_eq, h.optionalPayloadString_eq, h.sessionId_eq,
    h.validateOptionalRuntimeId_eq, h.optionalPayloadStringArray_eq, h.queueLastError_eq,
    h.factAvailableAt_eq, h.timestampMs_eq]

/-- A cancellation request says the same when it is read back. -/
theorem indexQueueItemCancelRequested_eq (h : ReadsBack event event') (p : Projections) :
    indexQueueItemCancelRequested event' p = indexQueueItemCancelRequested event p := by
  simp only [indexQueueItemCancelRequested, h.requiredRuntimeId_eq, h.requiredPayloadString_eq,
    h.optionalPayloadString_eq, h.invalidLifecycle_eq, h.id_eq, h.timestampMs_eq]

end ReadsBack

end ReadsBack

end Zeta
