import ZetaRuntime.Dispatch.ReadModel

/-!
# Cancelling work

Cancellation is recorded in two facts: the request, which is intent, and the terminal fact. Work
nobody owns gets both at once. Owned work gets only the request; the worker that holds the claim
turns it into the terminal fact when it reports, and if it never does, the work becomes unowned with
a request on it and is finalised later.

An owned item may be one that is only claimed, with no attempt started: `loadQueueItem` shows it as
claimed either way.
-/

namespace Zeta

open Outcome

/-! ### The facts -/

/-- Someone wants an item cancelled. -/
def cancellationRequestedEvent (identity : RuntimeEventIdentity) (input : Event) (item : QueueItem)
    (reason runId : Option String) : Event :=
  runtimeFact identity "runtime.queue_item.cancel_requested"
    (queueItemPayload item item.status ++ optionalField "reason" reason)
    ("queue_item:" ++ item.eventId ++ ":" ++ item.targetAgent ++ ":cancel_requested")
    (some input.id) item.sessionId runId none

/-- The result of cancelled work. -/
def cancelledResult (reason : Option String) : Map :=
  ("outcome", .string "cancelled") :: optionalField "reason" reason

/-- Unowned work was cancelled. -/
def cancellationTerminalEvent (identity : RuntimeEventIdentity) (item : QueueItem)
    (requested : Event) (reason runId : Option String) : Event :=
  runtimeFact identity "runtime.queue_item.cancelled"
    (queueItemPayload item .cancelled ++ optionalField "reason" reason
      ++ [("result", .object (cancelledResult reason))])
    (queueItemIdempotencyKey item.eventId item.targetAgent .cancelled)
    (some requested.id) item.sessionId runId none

/-- A worker stopped because of a request: the end of its attempt and of the item. -/
def liveCancelledEvents (first second : RuntimeEventIdentity) (input : Event) (item : QueueItem)
    (attempt : AttemptRow) (finishedAt : String) (rawResult : Option Map) : List Event :=
  let result := ((rawResult.getD []).insert "outcome" (.string "cancelled")).insert "stop_reason"
    (.string "aborted")
  [runtimeFact first "runtime.attempt.cancelled"
      (((attemptPayload attempt .cancelled).insert "finished_at" (.string finishedAt)).insert
        "result" (.object result))
      (attemptIdempotencyKey attempt.queueItemId attempt.attemptNumber .cancelled)
      (some input.id) attempt.sessionId attempt.runId input.turnId,
    runtimeFact second "runtime.queue_item.cancelled"
      ((queueItemPayload item .cancelled).insert "result" (.object result))
      (queueItemIdempotencyKey item.eventId item.targetAgent .cancelled)
      (some input.id) item.sessionId attempt.runId input.turnId]

/-- Set a key only if it is absent. -/
def Map.insertIfAbsent (m : Map) (key : String) (value : Value) : Map :=
  if m.containsKey key then m else m.insert key value

/-- An abandoned attempt ends with its item. -/
def recoveredAttemptCancelledEvent (identity : RuntimeEventIdentity) (requested : Event)
    (attempt : AttemptRow) (finishedAt : String) (reason : Option String) : Event :=
  let payload := (((attemptPayload attempt .cancelled).remove "error").remove
    "project_revision").insert "finished_at" (.string finishedAt)
  runtimeFact identity "runtime.attempt.cancelled"
    ((payload.insertIfAbsent "worker_name" .null).insert "result"
      (.object (cancelledResult reason)))
    (attemptIdempotencyKey attempt.queueItemId attempt.attemptNumber .cancelled)
    (some requested.id) attempt.sessionId attempt.runId none

/-! ### Cancelling an item -/

/-- What a cancellation found or did. -/
inductive CancellationStatus where
  | unknown
  | cancelling
  | cancelled
  | alreadyCancelled
  | alreadyTerminal
  deriving DecidableEq, Repr

/-- The result of a cancellation. -/
structure CancellationOutcome where
  queueItemId : Option String
  status : CancellationStatus
  changed : Bool
  events : List Event
  deriving DecidableEq, Repr

/-- The facts of an earlier cancellation. -/
def retainedCancellationEvents (journal : List JournalEntry) (item : QueueItem) :
    Except DispatchError (List Event) :=
  match item.cancelRequestedEventId with
  | none => .ok []
  | some requestedId => do
    let requested ← referencedEvent journal requestedId "queue_items" "cancel_requested_event_id"
    let found ← entryByIdempotencyKey journal
      (queueItemIdempotencyKey item.eventId item.targetAgent .cancelled)
    let cancelled ← require found (.corruptProjection "queue_items" "cancelled_event")
    return [requested, cancelled.event]

section

variable [Platform]

/-- The request on an item: the one it has, or a new one. -/
def requestCancellation (s : Store) (identity : RuntimeEventIdentity) (input : Event)
    (item : QueueItem) (reason runId : Option String) :
    Except DispatchError (AppendOutcome × Option String × Store) :=
  match item.cancelRequestedEventId with
  | some eventId => do
    let requested ← referencedEvent s.journal eventId "queue_items" "cancel_requested_event_id"
    return ({ event := requested, inserted := false }, item.cancelReason, s)
  | none => do
    let (outcome, s) ← appendRuntimeEvent s
      (cancellationRequestedEvent identity input item reason runId)
    return (outcome, reason, s)

/-- End an item that has a request, unless a worker owns it. -/
def endRequested (s : Store) (identity : RuntimeEventIdentity) (item : QueueItem)
    (requested : AppendOutcome) (reason runId : Option String) :
    Except DispatchError (CancellationOutcome × Store) :=
  if item.status = .claimed then
    .ok ({ queueItemId := some item.queueItemId, status := .cancelling,
           changed := requested.inserted, events := [requested.event] }, s)
  else do
    let (cancelled, s) ← appendRuntimeEvent s
      (cancellationTerminalEvent identity item requested.event reason runId)
    return ({ queueItemId := some item.queueItemId, status := .cancelled,
              changed := requested.inserted || cancelled.inserted,
              events := [requested.event, cancelled.event] }, s)

/-- Request the cancellation of an item that has not ended, and end it if nobody owns it. -/
def cancelOpenItem (s : Store) (item : QueueItem) (reason : Option String)
    (requestedIdentity cancelledIdentity : RuntimeEventIdentity) :
    Except DispatchError (CancellationOutcome × Store) := do
  let input ← referencedEvent s.journal item.eventId "queue_items" "event_id"
  let runId := queueRunId s.projections item input
  let (requested, kept, s) ← requestCancellation s requestedIdentity input item reason runId
  endRequested s cancelledIdentity item requested (kept.or reason) runId

/-- Cancel an item that has been found. -/
def cancelFoundItem (s : Store) (reason : Option String)
    (requestedIdentity cancelledIdentity : RuntimeEventIdentity) (item : QueueItem) :
    Except DispatchError (CancellationOutcome × Store) :=
  match item.status with
  | .cancelled => do
    let events ← retainedCancellationEvents s.journal item
    return ({ queueItemId := some item.queueItemId, status := .alreadyCancelled, changed := false,
              events }, s)
  | .completed | .failed | .deadLettered | .unhandled =>
    .ok ({ queueItemId := some item.queueItemId, status := .alreadyTerminal, changed := false,
           events := [] }, s)
  | .pending | .available | .claimed | .retryScheduled =>
    cancelOpenItem s item reason requestedIdentity cancelledIdentity

/-- Cancel an item, if it exists and belongs to the expected session. -/
def cancelLoadedItem (s : Store) (expectedSessionId reason : Option String)
    (requestedIdentity cancelledIdentity : RuntimeEventIdentity) :
    Option QueueItem → Except DispatchError (CancellationOutcome × Store)
  | none => .ok ({ queueItemId := none, status := .unknown, changed := false, events := [] }, s)
  | some item => do
    ensure (expectedSessionId = none ∨ item.sessionId = expectedSessionId)
      (.cancellationSessionMismatch (expectedSessionId.getD "") item.sessionId)
    cancelFoundItem s reason requestedIdentity cancelledIdentity item

/-- Make cancellation intent durable and close queued work immediately. -/
def cancelQueueItem (s : Store) (queueItemId : String) (expectedSessionId reason : Option String)
    (requestedIdentity cancelledIdentity : RuntimeEventIdentity) :
    Except DispatchError (CancellationOutcome × Store) := do
  ensure (requestedIdentity.id ≠ cancelledIdentity.id)
    (.duplicateRuntimeEventIdentity requestedIdentity.id)
  ensure (reason ≠ some "") (.invalidCoordinationInput "reason")
  let item ← loadQueueItem s.projections queueItemId
  cancelLoadedItem s expectedSessionId reason requestedIdentity cancelledIdentity item

/-! ### Cancelling a run -/

section

omit [Platform]

/-- Whether an item belongs to a run, by its input event or by one of its attempts. -/
def QueueItemRow.inRun (row : QueueItemRow) (s : Store) (runId : String) : Bool :=
  (s.journal.any fun entry => entry.event.id = row.eventId && entry.event.runId = some runId)
    || s.projections.attempts.rows.any fun attempt =>
      attempt.queueItemId = row.queueItemId && attempt.runId = some runId

/-- Statuses a run cancellation considers only when there is nothing else. -/
def QueueItemStatus.ended (status : QueueItemStatus) : Bool := status.terminal || status = .failed

/-- The item a run cancellation is about: open work wins over work that has ended. -/
def itemForRun (s : Store) (runId : String) : Option QueueItemRow :=
  let rows := (s.projections.queueItems.rows.filter (·.inRun s runId)).insertionSort
    QueueItemRow.claimsBefore
  (rows.find? fun row => !row.status.ended).or rows.head?

end

/-- Cancel the preferred queue item associated with a public run id. -/
def cancelRun (s : Store) (runId : String) (expectedSessionId reason : Option String)
    (requestedIdentity cancelledIdentity : RuntimeEventIdentity) :
    Except DispatchError (CancellationOutcome × Store) :=
  match itemForRun s runId with
  | none => .ok ({ queueItemId := none, status := .unknown, changed := false, events := [] }, s)
  | some row => do
    ensure (row.queueItemId ≠ "") (.corruptProjection "queue_items" "queue_item_id")
    cancelQueueItem s row.queueItemId expectedSessionId reason requestedIdentity cancelledIdentity

/-! ### Finalising abandoned work -/

section

omit [Platform]

/-- Unowned work with a request on it. -/
def finalizable (p : Projections) (row : QueueItemRow) : Bool :=
  row.cancelRequestedEventId.isSome
    && (row.status = .pending || row.status = .available || row.status = .retryScheduled)
    && p.queueClaims.rows.all fun claim => claim.queueItemId ≠ row.queueItemId

/-- The oldest unowned item with a request on it. -/
def nextFinalizable (p : Projections) : Option QueueItemRow :=
  ((p.queueItems.rows.filter (finalizable p)).insertionSort QueueItemRow.claimsBefore).head?

/-- End the abandoned attempt of an item, if it has one. -/
def endRecoveredAttempt (s : Store) (identity : RuntimeEventIdentity) (requested : Event)
    (finishedAt : String) (reason : Option String) :
    Option AttemptRow → Except DispatchError (List Event × Store)
  | none => .ok ([], s)
  | some attempt => do
    let (outcome, s) ← appendRuntimeEvent s
      (recoveredAttemptCancelledEvent identity requested attempt finishedAt reason)
    return ([outcome.event], s)

/-- The run a finalised item belonged to. -/
def finalizedRunId (p : Projections) (item : QueueItem) (input : Event) :
    Option AttemptRow → Option String
  | some attempt => attempt.runId
  | none => queueRunId p item input

end

/-- Finalise one item: only the latest running attempt ends with it. -/
def finalizeItem (s : Store) (queueItemId : String)
    (attemptIdentity queueIdentity : RuntimeEventIdentity) (finishedAt : String) :
    Except DispatchError (Option CancellationOutcome × Store) := do
  ensure (queueItemId ≠ "") (.corruptProjection "queue_items" "queue_item_id")
  let found ← loadQueueItem s.projections queueItemId
  let item ← require found (.corruptProjection "queue_items" "queue_item_id")
  let requestedId ← require item.cancelRequestedEventId
    (.corruptProjection "queue_items" "cancel_requested_event_id")
  let requested ← referencedEvent s.journal requestedId "queue_items" "cancel_requested_event_id"
  let attempt ← loadLatestRunningAttempt s.projections queueItemId
  let (ended, s) ← endRecoveredAttempt s attemptIdentity requested finishedAt item.cancelReason
    attempt
  let input ← referencedEvent s.journal item.eventId "queue_items" "event_id"
  let (cancelled, s) ← appendRuntimeEvent s
    (cancellationTerminalEvent queueIdentity item requested item.cancelReason
      (finalizedRunId s.projections item input attempt))
  return (some { queueItemId := some queueItemId, status := .cancelled, changed := true,
                 events := ended ++ [cancelled.event] },
    { s with
      projections := s.projections.deleteClaimsWhere fun claim => claim.queueItemId = queueItemId })

/-- Finalise an item, if there is one. -/
def finalizeIfFound (s : Store) (attemptIdentity queueIdentity : RuntimeEventIdentity)
    (finishedAt : String) :
    Option QueueItemRow → Except DispatchError (Option CancellationOutcome × Store)
  | none => .ok (none, s)
  | some row => finalizeItem s row.queueItemId attemptIdentity queueIdentity finishedAt

/-- Finalise the oldest unowned queue item with durable cancellation intent. -/
def finalizeNextRequestedCancellation (s : Store)
    (attemptIdentity queueIdentity : RuntimeEventIdentity) (finishedAt : String) :
    Except DispatchError (Option CancellationOutcome × Store) := do
  ensure (finishedAt ≠ "") (.invalidCoordinationInput "finished_at")
  ensure (attemptIdentity.id ≠ queueIdentity.id)
    (.duplicateRuntimeEventIdentity attemptIdentity.id)
  finalizeIfFound s attemptIdentity queueIdentity finishedAt (nextFinalizable s.projections)

end

end Zeta
