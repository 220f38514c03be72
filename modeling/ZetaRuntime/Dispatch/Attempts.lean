import ZetaRuntime.Dispatch.Resources
import ZetaRuntime.Dispatch.Cancellation

/-!
# Running attempts

A worker that holds a claim starts an attempt and ends it: by failure, which puts the item back or
gives it up, or by completion, which applies what the run asked for and ends the item. Both ends are
fenced by the claim, and a request to cancel that is on the item when the attempt ends turns either
into a cancellation.

The controls of a completion are applied in the order of their positions, between the fact that ends
the attempt and the fact that ends the item. A publication that is due at once becomes an event of
the type the run named, whatever that type is; the other controls can only create or cancel
resources.

## Main definitions

* `startClaimedAttempt`, `failClaimedAttempt`, `completeClaimedAttempt` — the operations

## Main results

* `completionControls_ok` — what the checks of a completion leave
-/

namespace Zeta

open Outcome

/-! ### Starting -/

/-- An attempt begins to own its item. -/
def claimedQueueEvent (identity : RuntimeEventIdentity) (input : Event) (item : QueueItem)
    (attemptNumber : ℕ) (runId : String) : Event :=
  runtimeFact identity "runtime.queue_item.claimed"
    (queueItemPayload item .claimed ++ [("attempt_number", .number (.int attemptNumber))])
    (queueItemAttemptIdempotencyKey item.eventId item.targetAgent .claimed attemptNumber)
    (some item.eventId) item.sessionId (some runId) input.turnId

/-- What an attempt is started with. -/
structure AttemptStartFields where
  attemptId : String
  attemptNumber : ℕ
  runId : String
  workerName : String
  startedAt : String
  deriving DecidableEq, Repr

/-- An attempt starts. -/
def startedAttemptEvent (identity : RuntimeEventIdentity) (input : Event) (item : QueueItem)
    (fields : AttemptStartFields) : Event :=
  runtimeFact identity "runtime.attempt.started"
    ([("attempt_id", .string fields.attemptId),
      ("queue_item_id", .string item.queueItemId),
      ("event_id", .string item.eventId),
      ("attempt_number", .number (.int fields.attemptNumber)),
      ("target_agent", .string item.targetAgent),
      ("status", .string "running"),
      ("started_at", .string fields.startedAt),
      ("finished_at", .null),
      ("error", .null),
      ("session_id", optionalText item.sessionId),
      ("run_id", .string fields.runId),
      ("worker_name", .string fields.workerName)]
      ++ optionalField "project_revision" item.projectRevision)
    ("attempt:" ++ item.queueItemId ++ ":" ++ toString fields.attemptNumber ++ ":started")
    (some item.eventId) item.sessionId (some fields.runId) input.turnId

/-- The facts of a start, in journal order. -/
def startEvents (queueIdentity attemptIdentity : RuntimeEventIdentity) (input : Event)
    (item : QueueItem) (fields : AttemptStartFields) : List Event :=
  [claimedQueueEvent queueIdentity input item fields.attemptNumber fields.runId,
    startedAttemptEvent attemptIdentity input item fields]

/-- The retained fact a repeated start resolves to. -/
def retainedStartEvent (journal : List JournalEntry) (candidate : Event) :
    Except DispatchError Event := do
  let key ← require candidate.idempotencyKey (.corruptProjection "attempts" "idempotency_key")
  let found ← entryByIdempotencyKey journal key
  let retained ← require found (.corruptProjection "attempts" "lifecycle_event")
  ensure (sameLifecycleIntention candidate retained.event = true)
    (.runtimeEventIdentityCollision candidate.id)
  return retained.event

/-- Fence a running attempt by the claim it was started under. -/
def Projections.fenceAttempt (p : Projections) (attemptId token : String) (nowMs : Int) :
    Projections :=
  { p with
    attempts := p.attempts.updateWhere (fun row => row.attemptId = attemptId)
      (fun row => { row with claimToken := some token, heartbeatAt := some nowMs }) (fun _ => rfl) }

/-- What a start returns. -/
structure StartedAttempt where
  attempt : AttemptRow
  events : List Event
  deriving DecidableEq, Repr

section

variable [Platform]

/-- A start repeated under the claim that already started an attempt changes nothing. -/
def repeatStart (s : Store) (claim : QueueClaim)
    (queueIdentity attemptIdentity : RuntimeEventIdentity) (startedAt : String)
    (claimedRunId : Option String) (item : QueueItem) (input : Event) (attempt : AttemptRow) :
    Except DispatchError (StartedAttempt × Store) := do
  ensure (attempt.startedAt = startedAt) (.invalidCoordinationInput "started_at")
  let runId ← require attempt.runId (.corruptProjection "attempts" "run_id")
  ensure (runIdForAttempt claimedRunId attempt.attemptId = runId)
    (.invalidCoordinationInput "run_id")
  let events ← (startEvents queueIdentity attemptIdentity input item
    { attemptId := attempt.attemptId, attemptNumber := attempt.attemptNumber, runId,
      workerName := claim.workerName, startedAt }).mapM (retainedStartEvent s.journal)
  return ({ attempt, events }, s)

/-- Start the next attempt of an item. -/
def startNext (s : Store) (claim : QueueClaim) (nowMs : Int)
    (queueIdentity attemptIdentity : RuntimeEventIdentity) (startedAt : String)
    (claimedRunId : Option String) (item : QueueItem) (input : Event) :
    Except DispatchError (StartedAttempt × Store) := do
  let attemptNumber := item.attemptCount + 1
  ensure (attemptNumber ≤ u32Max) (.invalidCoordinationInput "attempt_number")
  let id := attemptId item.queueItemId attemptNumber
  let runId := runIdForAttempt claimedRunId id
  let (events, s) ← appendBatch sameLifecycleIntention s
    (startEvents queueIdentity attemptIdentity input item
      { attemptId := id, attemptNumber, runId, workerName := claim.workerName, startedAt })
  let attempt : AttemptRow := {
    attemptId := id
    queueItemId := item.queueItemId
    eventId := item.eventId
    attemptNumber
    targetAgent := item.targetAgent
    workerName := some claim.workerName
    claimToken := some claim.token
    status := .running
    startedAt
    heartbeatAt := some nowMs
    finishedAt := none
    error := none
    sessionId := item.sessionId
    runId := some runId
    projectRevision := item.projectRevision }
  return ({ attempt, events },
    { s with projections := s.projections.fenceAttempt id claim.token nowMs })

/-- Start an attempt, or resolve a start that was already made under this claim. -/
def startOrRepeat (s : Store) (claim : QueueClaim) (nowMs : Int)
    (queueIdentity attemptIdentity : RuntimeEventIdentity) (startedAt : String)
    (claimedRunId : Option String) (item : QueueItem) (input : Event) :
    Option AttemptRow → Except DispatchError (StartedAttempt × Store)
  | some attempt =>
    repeatStart s claim queueIdentity attemptIdentity startedAt claimedRunId item input attempt
  | none => startNext s claim nowMs queueIdentity attemptIdentity startedAt claimedRunId item input

/-- Commit queue-claimed and attempt-started facts under one live claim. -/
def startClaimedAttempt (s : Store) (claim : QueueClaim) (nowMs : Int)
    (queueIdentity attemptIdentity : RuntimeEventIdentity) (startedAt : String)
    (claimedRunId : Option String) : Except DispatchError (StartedAttempt × Store) := do
  ensure (startedAt ≠ "") (.invalidCoordinationInput "started_at")
  ensure (queueIdentity.id ≠ attemptIdentity.id) (.duplicateRuntimeEventIdentity queueIdentity.id)
  ensure (claimIsCurrentIn s.projections claim nowMs) (.claimNotCurrent claim.queueItemId)
  let found ← loadQueueItem s.projections claim.queueItemId
  let item ← require found (.corruptProjection "queue_items" "queue_item_id")
  ensure (item.targetAgent ≠ "") (.invalidCoordinationInput "target_agent")
  let input ← referencedEvent s.journal item.eventId "queue_items" "event_id"
  let running ← loadRunningAttemptForClaim s.projections claim
  startOrRepeat s claim nowMs queueIdentity attemptIdentity startedAt claimedRunId item input
    running

end

/-! ### Failing -/

/-- What a worker reports about a failed attempt. -/
structure AttemptFailure where
  finishedAt : String
  error : String
  errorCode : AttemptFailureCode
  retryPolicy : RetryPolicy

/-- An attempt failed. -/
def failedAttemptEvent (identity : RuntimeEventIdentity) (input : Event) (attempt : AttemptRow)
    (failure : AttemptFailure) : Event :=
  runtimeFact identity "runtime.attempt.failed"
    ((((attemptPayload attempt .failed).insert "finished_at" (.string failure.finishedAt)).insert
      "error" (.string failure.error)).insert "error_code" (.string failure.errorCode.display))
    (attemptIdempotencyKey attempt.queueItemId attempt.attemptNumber .failed)
    (some input.id) attempt.sessionId attempt.runId input.turnId

/-- Whether a failed attempt is retried. -/
def retriesAfter (attempt : AttemptRow) (failure : AttemptFailure) : Bool :=
  classifyAttemptFailureCode failure.errorCode = .retryable
    && failure.retryPolicy.permitsRetryAfter attempt.attemptNumber

/-- The instant before which a retry is not offered. -/
def retryNotBefore (attempt : AttemptRow) (failure : AttemptFailure) (nowMs : Int) :
    Except DispatchError Int := do
  let delayMs ← (failure.retryPolicy.delayMs attempt.attemptNumber).mapError
    fun _ => .invalidCoordinationInput "retry_policy"
  ensure ((delayMs : Int) ≤ i64Max) (.invalidCoordinationInput "retry_policy")
  ensure (nowMs + delayMs ≤ i64Max) (.invalidCoordinationInput "not_before")
  ensure (attempt.attemptNumber + 1 ≤ u32Max) (.invalidCoordinationInput "attempt_number")
  return nowMs + delayMs

/-- The item of a failed attempt is offered again. -/
def retryEvent (identity : RuntimeEventIdentity) (input : Event) (item : QueueItem)
    (attempt : AttemptRow) (notBefore : Int) : Event :=
  runtimeFact identity "runtime.queue_item.available"
    (queueItemPayload item .available ++ [("not_before", .number (.int notBefore))])
    (queueItemAttemptIdempotencyKey item.eventId item.targetAgent .available
      (attempt.attemptNumber + 1))
    (some input.id) item.sessionId attempt.runId input.turnId

/-- The item of a failed attempt is given up. -/
def deadLetteredEvent (identity : RuntimeEventIdentity) (input : Event) (item : QueueItem)
    (attempt : AttemptRow) (failure : AttemptFailure) : Event :=
  let reason := if classifyAttemptFailureCode failure.errorCode = .permanent then "permanent"
    else "exhausted"
  runtimeFact identity "runtime.queue_item.dead_lettered"
    (queueItemPayload item .deadLettered
      ++ [("reason", .string reason),
        ("attempt_count", .number (.int attempt.attemptNumber)),
        ("last_attempt_id", .string attempt.attemptId),
        ("dead_lettered_at", .string failure.finishedAt),
        ("last_error", .object [
          ("code", .string failure.errorCode.display),
          ("message", .string failure.error)])])
    (queueItemAttemptIdempotencyKey item.eventId item.targetAgent .deadLettered
      attempt.attemptNumber)
    (some input.id) item.sessionId attempt.runId input.turnId

/-- The retry decision: offer the item again, or give it up. -/
def failedQueueDispositionEvent (identity : RuntimeEventIdentity) (input : Event) (item : QueueItem)
    (attempt : AttemptRow) (failure : AttemptFailure) (nowMs : Int) : Except DispatchError Event :=
  if retriesAfter attempt failure then do
    let notBefore ← retryNotBefore attempt failure nowMs
    return retryEvent identity input item attempt notBefore
  else .ok (deadLetteredEvent identity input item attempt failure)

/-- What a failure records: a cancellation if one was requested, and the retry decision if not. -/
def failureEvents (first second : RuntimeEventIdentity) (input : Event) (item : QueueItem)
    (attempt : AttemptRow) (failure : AttemptFailure) (nowMs : Int) :
    Except DispatchError (List Event) :=
  if item.cancelRequestedEventId.isSome then
    .ok (liveCancelledEvents first second input item attempt failure.finishedAt none)
  else do
    let disposition ← failedQueueDispositionEvent second input item attempt failure nowMs
    return [failedAttemptEvent first input attempt failure, disposition]

section

variable [Platform]

/-- Record one fenced attempt failure and its retry or dead-letter decision. -/
def failClaimedAttempt (s : Store) (claim : QueueClaim) (nowMs : Int)
    (first second : RuntimeEventIdentity) (failure : AttemptFailure) :
    Except DispatchError (List Event × Store) := do
  ensure (failure.finishedAt ≠ "") (.invalidCoordinationInput "finished_at")
  ensure (failure.error ≠ "") (.invalidCoordinationInput "error")
  ensure (first.id ≠ second.id) (.duplicateRuntimeEventIdentity first.id)
  ensure (claimIsCurrentIn s.projections claim nowMs) (.claimNotCurrent claim.queueItemId)
  let running ← loadRunningAttemptForClaim s.projections claim
  let attempt ← require running (.invalidCoordinationInput "running_attempt")
  let found ← loadQueueItem s.projections claim.queueItemId
  let item ← require found (.corruptProjection "queue_items" "queue_item_id")
  let input ← referencedEvent s.journal attempt.eventId "attempts" "event_id"
  let facts ← failureEvents first second input item attempt failure nowMs
  let (events, s) ← appendBatch sameLifecycleIntention s facts
  let s ← releaseClaimInTransaction s claim
  return (events, s)

end

/-! ### Completing -/

/-- What a run asks for when it completes. -/
inductive AttemptControl where
  | publish (handle eventType : String) (payload : Map) (at_ : Option String) (position : ℕ)
  | wait (handle eventType : String) (fields : Map) (deadline : Option String) (position : ℕ)
  | cancel (handle : String) (reason : Option String) (sourceAgentId sourceSessionId : String)
    (position : ℕ)
  deriving DecidableEq, Repr

/-- The place of a control in the order of tool calls. -/
def AttemptControl.position : AttemptControl → ℕ
  | .publish _ _ _ _ position => position
  | .wait _ _ _ _ position => position
  | .cancel _ _ _ _ position => position

/-- The terminal state a worker proposes. -/
inductive AttemptCompletionDisposition where
  | succeeded
  | cancelled
  deriving DecidableEq, Repr

/-- What a worker reports about a completed attempt. -/
structure AttemptCompletion where
  finishedAt : String
  disposition : AttemptCompletionDisposition
  metadata : Map
  controls : List AttemptControl
  deriving DecidableEq, Repr

/-- A control text must not be empty. -/
def validateCompletionControlString (value field : String) : Except DispatchError Unit :=
  ensure (value ≠ "") (.invalidCompletion field)

/-- The metadata fields whose type is checked. -/
def validateCompletionMetadata (metadata : Map) : Except DispatchError Unit := do
  ensure ((metadata.get "final_answer").all fun value => value matches .string _)
    (.invalidCompletion "final_answer")
  ensure ((metadata.get "tool_calls").all fun value => value matches .array _)
    (.invalidCompletion "tool_calls")
  ensure ((metadata.get "usage").all fun value => value matches .object _)
    (.invalidCompletion "usage")

/-- The keys under which the controls of a completion are recorded. -/
def reservedResultFields : List String :=
  ["publish_event_requests", "wait_requests", "cancel_requests", "content_promotions"]

/-- A publication as it is recorded in the result. -/
def AttemptControl.publishRequest : AttemptControl → Option Value
  | .publish handle eventType payload at_ position => some (.object [
      ("handle", .string handle),
      ("event_type", .string eventType),
      ("payload", .object payload),
      ("at", optionalText at_),
      ("position", .number (.int position))])
  | _ => none

/-- A wait as it is recorded in the result. -/
def AttemptControl.waitRequest : AttemptControl → Option Value
  | .wait handle eventType fields deadline position => some (.object [
      ("handle", .string handle),
      ("event_type", .string eventType),
      ("fields", .object fields),
      ("deadline", optionalText deadline),
      ("position", .number (.int position))])
  | _ => none

/-- A cancellation as it is recorded in the result. -/
def AttemptControl.cancelRequest : AttemptControl → Option Value
  | .cancel handle reason sourceAgentId sourceSessionId position => some (.object [
      ("handle", .string handle),
      ("reason", optionalText reason),
      ("source_agent_id", .string sourceAgentId),
      ("source_session_id", .string sourceSessionId),
      ("position", .number (.int position))])
  | _ => none

/-- Record requests under a key, if there are any. -/
def Map.insertRequests (result : Map) (key : String) (requests : List Value) : Map :=
  if requests = [] then result else result.insert key (.array requests)

/-- The recorded result of a completion: its metadata and its controls. -/
def completionResult (completion : AttemptCompletion) (controls : List AttemptControl) :
    Except DispatchError Map := do
  foldOk (fun _ field =>
    ensure (completion.metadata.containsKey field = false) (.invalidCompletion field)) ()
    reservedResultFields
  return ((completion.metadata.insertRequests "publish_event_requests"
      (controls.filterMap (·.publishRequest))).insertRequests "wait_requests"
      (controls.filterMap (·.waitRequest))).insertRequests "cancel_requests"
      (controls.filterMap (·.cancelRequest))

/-- The summary of a result, if it is a text. -/
def resultSummary (result : Map) : Map :=
  match (result.get "summary").or (result.get "final_answer") with
  | some (.string summary) => [("summary", .string summary)]
  | _ => []

/-- A field of the result that is repeated beside it. -/
def repeatedField (result : Map) (key : String) : Map :=
  match result.get key with
  | some value => [(key, value)]
  | none => []

/-- An attempt completed. -/
def completedAttemptEvent (identity : RuntimeEventIdentity) (input : Event) (attempt : AttemptRow)
    (finishedAt : String) (result : Map) : Event :=
  runtimeFact identity "runtime.attempt.completed"
    ((attemptPayload attempt .completed).insert "finished_at" (.string finishedAt)
      ++ [("result", .object result)] ++ resultSummary result
      ++ repeatedField result "tool_calls" ++ repeatedField result "usage")
    (attemptIdempotencyKey attempt.queueItemId attempt.attemptNumber .completed)
    (some input.id) attempt.sessionId attempt.runId input.turnId

/-- An item completed. -/
def completedQueueEvent (identity : RuntimeEventIdentity) (input : Event) (item : QueueItem)
    (attempt : AttemptRow) (result : Map) : Event :=
  runtimeFact identity "runtime.queue_item.completed"
    (queueItemPayload item .completed ++ [("result", .object result)])
    (queueItemIdempotencyKey item.eventId item.targetAgent .completed)
    (some input.id) item.sessionId attempt.runId input.turnId

/-- What a completion is about, when its controls are applied. -/
structure CompletionContext where
  completedAt : Int
  input : Event
  item : QueueItem
  attempt : AttemptRow
  completed : Event

/-- A publication that is due at once. It has the event type the run named. -/
def immediatePublicationEvent (identity : RuntimeEventIdentity) (ctx : CompletionContext)
    (eventType : String) (payload : Map) (position : ℕ) : Event where
  id := identity.id
  eventType := eventType
  source := "agent:" ++ ctx.attempt.targetAgent
  payload := payload
  idempotencyKey := some ("agent.publish:" ++ ctx.item.queueItemId ++ ":" ++ toString position)
  causedBy := some ctx.completed.id
  sessionId := ctx.attempt.sessionId
  runId := ctx.attempt.runId
  turnId := ctx.input.turnId
  timestampMs := identity.timestampMs
  cursor := none

/-- A publication that is due later. -/
def deferredPublicationCreatedEvent (identity : RuntimeEventIdentity) (ctx : CompletionContext)
    (handle eventType : String) (payload : Map) (at_ : Option String) (position : ℕ) : Event :=
  runtimeFact identity "runtime.deferred_publication.created"
    [("handle", .string handle),
      ("event_type", .string eventType),
      ("payload", .object payload),
      ("publish_at", optionalText at_),
      ("source_agent_id", .string ctx.attempt.targetAgent),
      ("source_session_id", optionalText ctx.attempt.sessionId),
      ("source_queue_item_id", .string ctx.item.queueItemId),
      ("position", .number (.int position))]
    ("agent.defer:" ++ ctx.item.queueItemId ++ ":" ++ toString position)
    (some ctx.completed.id) ctx.attempt.sessionId ctx.attempt.runId ctx.input.turnId

/-- A wait begins. -/
def waitCreatedEvent (identity : RuntimeEventIdentity) (ctx : CompletionContext)
    (handle eventType : String) (fields : Map) (deadline : Option String) (position : ℕ) : Event :=
  runtimeFact identity "runtime.wait.created"
    [("handle", .string handle),
      ("agent_id", .string ctx.attempt.targetAgent),
      ("session_id", optionalText ctx.attempt.sessionId),
      ("event_type", .string eventType),
      ("fields", .object fields),
      ("deadline", optionalText deadline),
      ("source_queue_item_id", .string ctx.item.queueItemId),
      ("project_revision", optionalText ctx.item.projectRevision)]
    ("agent.wait:" ++ ctx.item.queueItemId ++ ":" ++ toString position)
    (some ctx.completed.id) ctx.attempt.sessionId ctx.attempt.runId ctx.input.turnId

section

variable [Platform]

/-- A timestamp in a completion. -/
def parseCompletionTimestamp (value field : String) : Except DispatchError Int :=
  require (Platform.parseRfc3339 value) (.invalidCompletion field)

/-- An optional timestamp in a control. -/
def validateCompletionTimestamp (field : String) : Option String → Except DispatchError Unit
  | none => .ok ()
  | some value => do
    validateCompletionControlString value field
    let _ ← parseCompletionTimestamp value field

/-- An optional text in a control. -/
def validateOptionalControlString (field : String) : Option String → Except DispatchError Unit
  | none => .ok ()
  | some value => validateCompletionControlString value field

/-- Check one control. -/
def validateControl : AttemptControl → Except DispatchError Unit
  | .publish handle eventType _ at_ _ => do
    validateCompletionControlString handle "publish_event_requests.handle"
    validateCompletionControlString eventType "publish_event_requests.event_type"
    validateCompletionTimestamp "publish_event_requests.at" at_
  | .wait handle eventType _ deadline _ => do
    validateCompletionControlString handle "wait_requests.handle"
    validateCompletionControlString eventType "wait_requests.event_type"
    validateCompletionTimestamp "wait_requests.deadline" deadline
  | .cancel handle reason sourceAgentId sourceSessionId _ => do
    validateCompletionControlString handle "cancel_requests.handle"
    validateOptionalControlString "cancel_requests.reason" reason
    validateCompletionControlString sourceAgentId "cancel_requests.source_agent_id"
    validateCompletionControlString sourceSessionId "cancel_requests.source_session_id"

/-- Check the controls in the order the worker gave them. -/
def validateControls : List AttemptControl → List ℕ → Except DispatchError Unit
  | [], _ => .ok ()
  | control :: controls, positions => do
    ensure (control.position ∉ positions) (.invalidCompletion "control.position")
    validateControl control
    validateControls controls (control.position :: positions)

/-- Check a completion, and put its controls in the order of their positions. -/
def completionControls (completion : AttemptCompletion) :
    Except DispatchError (Int × List AttemptControl) := do
  let completedAt ← parseCompletionTimestamp completion.finishedAt "finished_at"
  validateCompletionMetadata completion.metadata
  validateControls completion.controls []
  return (completedAt, completion.controls.insertionSort fun a b => a.position ≤ b.position)

/-- Positions that were checked are distinct. -/
theorem nodup_of_validateControls {controls : List AttemptControl} {seen : List ℕ}
    (h : validateControls controls seen = .ok ()) :
    (controls.map AttemptControl.position).Nodup ∧
      ∀ control ∈ controls, control.position ∉ seen := by
  induction controls generalizing seen with
  | nil => exact ⟨List.nodup_nil, by simp⟩
  | cons control controls ih =>
    simp only [validateControls, ok_iff] at h
    obtain ⟨_, hnew, _, -, h⟩ := h
    obtain ⟨hnodup, hunseen⟩ := ih h
    constructor
    · rw [List.map_cons, List.nodup_cons]
      refine ⟨fun hmem => ?_, hnodup⟩
      obtain ⟨other, hother, hposition⟩ := List.mem_map.mp hmem
      exact hunseen other hother (by rw [hposition]; exact .head _)
    · rintro other hother
      rcases List.mem_cons.mp hother with rfl | hother
      · exact hnew
      · exact fun hseen => hunseen other hother (.tail _ hseen)

/-- A completion that passes its checks has ended at a time, and its controls are put in the order
of their positions. -/
theorem completionControls_ok {completion : AttemptCompletion} {completedAt : Int}
    {controls : List AttemptControl}
    (h : completionControls completion = .ok (completedAt, controls)) :
    Platform.parseRfc3339 completion.finishedAt = some completedAt ∧
      controls.Perm completion.controls ∧ controls.Pairwise fun a b => a.position < b.position := by
  simp only [completionControls, parseCompletionTimestamp, ok_iff, Prod.mk.injEq] at h
  obtain ⟨_, hcompleted, _, -, _, hvalid, rfl, rfl⟩ := h
  have hperm := List.perm_insertionSort (fun a b : AttemptControl => a.position ≤ b.position)
    completion.controls
  refine ⟨hcompleted, hperm, ?_⟩
  have : Std.Total fun a b : AttemptControl => a.position ≤ b.position := ⟨fun a b => le_total _ _⟩
  have : IsTrans AttemptControl fun a b => a.position ≤ b.position := ⟨fun a b c => le_trans⟩
  have hsorted := List.pairwise_insertionSort (fun a b : AttemptControl => a.position ≤ b.position)
    completion.controls
  have hnodup := ((hperm.map AttemptControl.position).nodup_iff).mpr
    (nodup_of_validateControls hvalid).1
  rw [List.Nodup, List.pairwise_map] at hnodup
  exact (hsorted.and hnodup).imp fun h => lt_of_le_of_ne h.1 h.2

/-- Whether a publication is due when the attempt completes. -/
def publishesAtOnce (completedAt : Int) : Option String → Except DispatchError Bool
  | none => .ok true
  | some value => do
    let due ← parseCompletionTimestamp value "publish_event_requests.at"
    return due ≤ completedAt

/-- What a control creates. -/
def completionControlEvent (identity : RuntimeEventIdentity) (ctx : CompletionContext) :
    AttemptControl → Except DispatchError Event
  | .publish handle eventType payload at_ position => do
    let immediate ← publishesAtOnce ctx.completedAt at_
    return if immediate then immediatePublicationEvent identity ctx eventType payload position
      else deferredPublicationCreatedEvent identity ctx handle eventType payload at_ position
  | .wait handle eventType fields deadline position =>
    .ok (waitCreatedEvent identity ctx handle eventType fields deadline position)
  | .cancel .. => .error (.invalidCompletion "control")

/-- Apply a control that creates something. -/
def applyCreation (s : Store) (ctx : CompletionContext) (control : AttemptControl)
    (identity : RuntimeEventIdentity) : Except DispatchError (List Event × Store) := do
  let event ← completionControlEvent identity ctx control
  let (outcome, s) ← appendRuntimeEvent s event
  return ([outcome.event], s)

/-- Apply a control. A run may only cancel what its own agent created in its own session. -/
def applyControl (s : Store) (ctx : CompletionContext) (identity : RuntimeEventIdentity) :
    AttemptControl → Except DispatchError (List Event × Store)
  | .cancel handle reason sourceAgentId sourceSessionId _ => do
    ensure (sourceAgentId = ctx.attempt.targetAgent ∧ ctx.attempt.sessionId = some sourceSessionId)
      (.cancellationAuthorityMismatch handle)
    let kind ← resourceKindForHandle handle
    let (outcome, s) ← cancelResourceInTransaction s handle reason (some sourceAgentId)
      (some sourceSessionId) identity kind
    return (outcome.event.toList, s)
  | .publish handle eventType payload at_ position =>
    applyCreation s ctx (.publish handle eventType payload at_ position) identity
  | .wait handle eventType fields deadline position =>
    applyCreation s ctx (.wait handle eventType fields deadline position) identity

/-- Apply the controls of a completion, in order. -/
def applyControls (ctx : CompletionContext) :
    Store → List (AttemptControl × RuntimeEventIdentity) → Except DispatchError (List Event × Store)
  | s, [] => .ok ([], s)
  | s, (control, identity) :: rest => do
    let (events, s) ← applyControl s ctx identity control
    let (later, s) ← applyControls ctx s rest
    return (events ++ later, s)

/-- End an attempt that succeeded, with its controls and its item. -/
def recordSuccess (s : Store) (first last : RuntimeEventIdentity)
    (controls : List (AttemptControl × RuntimeEventIdentity)) (completedAt : Int) (input : Event)
    (item : QueueItem) (attempt : AttemptRow) (finishedAt : String) (result : Map) :
    Except DispatchError (List Event × Store) := do
  let (completed, s) ← appendRuntimeEvent s
    (completedAttemptEvent first input attempt finishedAt result)
  let (applied, s) ← applyControls
    { completedAt, input, item, attempt, completed := completed.event } s controls
  let (ended, s) ← appendRuntimeEvent s (completedQueueEvent last input item attempt result)
  return (completed.event :: applied ++ [ended.event], s)

/-- What a completion records: a cancellation if one was requested or proposed. -/
def recordCompletion (s : Store) (first last : RuntimeEventIdentity)
    (controls : List (AttemptControl × RuntimeEventIdentity)) (completedAt : Int) (input : Event)
    (item : QueueItem) (attempt : AttemptRow) (completion : AttemptCompletion) (result : Map) :
    Except DispatchError (List Event × Store) :=
  if completion.disposition = .cancelled ∨ item.cancelRequestedEventId.isSome then
    appendBatch sameLifecycleIntention s
      (liveCancelledEvents first last input item attempt completion.finishedAt (some result))
  else
    recordSuccess s first last controls completedAt input item attempt completion.finishedAt result

/-- Commit a completion under its claim. There is an identity for the end of the attempt, one for
each control, and one for the end of the item. -/
def completeFenced (s : Store) (claim : QueueClaim) (nowMs : Int) (completion : AttemptCompletion)
    (completedAt : Int) (controls : List AttemptControl) (result : Map) :
    List RuntimeEventIdentity → Except DispatchError (List Event × Store)
  | first :: second :: identities => do
    ensure (claimIsCurrentIn s.projections claim nowMs) (.claimNotCurrent claim.queueItemId)
    let running ← loadRunningAttemptForClaim s.projections claim
    let attempt ← require running (.invalidCoordinationInput "running_attempt")
    let found ← loadQueueItem s.projections claim.queueItemId
    let item ← require found (.corruptProjection "queue_items" "queue_item_id")
    let input ← referencedEvent s.journal attempt.eventId "attempts" "event_id"
    let middle := (second :: identities).dropLast
    let last := (second :: identities).getLast (List.cons_ne_nil _ _)
    let (events, s) ← recordCompletion s first last (controls.zip middle) completedAt input item
      attempt completion result
    let s ← releaseClaimInTransaction s claim
    return (events, s)
  | identities => .error (.runtimeEventIdentityCount (controls.length + 2) identities.length)

/-- Commit a successful attempt, ordered controls, and queue completion. -/
def completeClaimedAttempt (s : Store) (claim : QueueClaim) (nowMs : Int)
    (identities : List RuntimeEventIdentity) (completion : AttemptCompletion) :
    Except DispatchError (List Event × Store) := do
  ensure (completion.finishedAt ≠ "") (.invalidCompletion "finished_at")
  let (completedAt, controls) ← completionControls completion
  ensure (identities.length = controls.length + 2)
    (.runtimeEventIdentityCount (controls.length + 2) identities.length)
  validateDistinctRuntimeIdentities identities []
  let result ← completionResult completion controls
  completeFenced s claim nowMs completion completedAt controls result identities

/-- The parts of a completion that was committed. -/
theorem completeClaimedAttempt_ok {s s' : Store} {claim : QueueClaim} {nowMs : Int}
    {identities : List RuntimeEventIdentity} {completion : AttemptCompletion} {events : List Event}
    (h : completeClaimedAttempt s claim nowMs identities completion = .ok (events, s')) :
    ∃ completedAt controls result first middle last attempt item input t,
      completionControls completion = .ok (completedAt, controls) ∧
      completionResult completion controls = .ok result ∧
      identities = first :: middle ++ [last] ∧ middle.length = controls.length ∧
      claimIsCurrentIn s.projections claim nowMs ∧
      loadRunningAttemptForClaim s.projections claim = .ok (some attempt) ∧
      loadQueueItem s.projections claim.queueItemId = .ok (some item) ∧
      referencedEvent s.journal attempt.eventId "attempts" "event_id" = .ok input ∧
      recordCompletion s first last (controls.zip middle) completedAt input item attempt completion
        result = .ok (events, t) ∧
      releaseClaimInTransaction t claim = .ok s' := by
  simp only [completeClaimedAttempt, ok_iff, Prod.exists] at h
  obtain ⟨_, -, completedAt, controls, hcontrols, _, hcount, _, -, result, hresult, h⟩ := h
  rcases identities with _ | ⟨first, _ | ⟨second, identities⟩⟩
  · simp [completeFenced] at h
  · simp [completeFenced] at h
  · simp only [completeFenced, ok_iff, pair_iff] at h
    obtain ⟨_, hcurrent, _, hrunning, attempt, rfl, _, hfound, item, rfl, input, hinput, _, t,
      hrecord, _, hrelease, rfl, rfl⟩ := h
    refine ⟨completedAt, controls, result, first, _, _, attempt, item, input, t, hcontrols, hresult,
      ?_, ?_, hcurrent, hrunning, hfound, hinput, hrecord, hrelease⟩
    · rw [List.cons_append, List.dropLast_append_getLast]
    · simpa using hcount

end

end Zeta
