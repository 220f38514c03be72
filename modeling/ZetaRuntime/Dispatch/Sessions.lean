import ZetaRuntime.Dispatch.Routing
import ZetaRuntime.Dispatch.Attempts

/-!
# Sessions

A session is not stored: it is what queue items, attempts and waits with its id say together. Its
activity is derived from them, in the order running, queued, waiting, idle.

A user message addressed to a session is an event of its own, followed at once by the item that
runs it. A message that is already journaled is not written again, but its item is looked for under
the retained event.
-/

namespace Zeta

open Outcome

/-! ### Messages -/

/-- A user message addressed to a session. -/
structure SessionMessageRequest where
  message : String
  agentId : String
  sessionId : String
  projectRevision : String
  runId : String
  idempotencyKey : Option String
  /-- Session ids are not empty. -/
  sessionId_ne_empty : sessionId ≠ ""
  /-- Run ids are not empty. -/
  runId_ne_empty : runId ≠ ""

/-- Check the texts of a message request. -/
def validateSessionMessageRequest (request : SessionMessageRequest) :
    Except DispatchError Unit := do
  ensure (request.message ≠ "") (.invalidCoordinationInput "message")
  ensure (request.agentId ≠ "") (.invalidCoordinationInput "agent_id")
  ensure (request.projectRevision ≠ "") (.invalidCoordinationInput "project_revision")
  ensure (request.idempotencyKey ≠ some "") (.invalidCoordinationInput "idempotency_key")

/-- The user's message. -/
def sessionMessageRequestedEvent (identity : RuntimeEventIdentity)
    (request : SessionMessageRequest) : Event where
  id := identity.id
  eventType := "session.message.requested"
  source := "user"
  payload := [
    ("message", .string request.message),
    ("agent_id", .string request.agentId),
    ("session_id", .string request.sessionId),
    ("run_id", .string request.runId)]
  idempotencyKey := request.idempotencyKey
  causedBy := none
  sessionId := some request.sessionId
  runId := some request.runId
  turnId := none
  timestampMs := identity.timestampMs
  cursor := none

/-- The entry under an optional key. -/
def entryByOptionalKey (journal : List JournalEntry) :
    Option String → Except DispatchError (Option JournalEntry)
  | none => .ok none
  | some key => entryByIdempotencyKey journal key

/-- The journaled message a request repeats, by its key or by its id. -/
def retainedSessionMessage (journal : List JournalEntry) (candidate : Event) :
    Except DispatchError (Option Event) := do
  let byId ← entryByEventId journal candidate.id
  let byKey ← entryByOptionalKey journal candidate.idempotencyKey
  ensure (∀ a ∈ byId, ∀ b ∈ byKey, a.event.id = b.event.id)
    (.runtimeEventIdentityCollision candidate.id)
  let retained := (byKey.or byId).map (·.event)
  ensure (∀ event ∈ retained, sameLifecycleIntention candidate event = true)
    (.runtimeEventIdentityCollision candidate.id)
  return retained

/-- The item that runs a message. -/
def sessionMessageAvailableEvent (identity : RuntimeEventIdentity) (requested : Event)
    (request : SessionMessageRequest) : Event :=
  queueLifecycleEvent identity requested {
    queueItemId := queueItemId requested.id request.agentId
    targetAgent := request.agentId
    status := .available
    sessionId := some request.sessionId
    projectRevision := some request.projectRevision
    lockKeys := [] }

/-- What submitting a message returns. -/
structure SubmittedSessionMessage where
  eventId : String
  queueItemId : String
  agentId : String
  sessionId : String
  runId : String
  changed : Bool
  events : List Event
  deriving DecidableEq, Repr

section

variable [Platform]

/-- Cancel the wait of a session the user continues, if it has one. -/
def cancelSessionWait (s : Store) (request : SessionMessageRequest)
    (identity : RuntimeEventIdentity) :
    Option WaitRow → Except DispatchError (List Event × Store)
  | none => .ok ([], s)
  | some wait => do
    let (outcome, s) ← cancelResourceInTransaction s wait.handle
      (some "The user continued the session.") (some request.agentId) (some request.sessionId)
      identity .wait
    return (outcome.event.toList, s)

/-- Append a new message; it must be new. -/
def appendSessionMessage (s : Store) (candidate : Event) :
    Except DispatchError (Event × Store) := do
  let (outcome, journal) ← appendLifecycleCandidate s.journal candidate
  ensure (outcome.inserted = true) (.runtimeEventIdentityCollision candidate.id)
  let projections ← indexEvent journal outcome.event s.projections
  return (outcome.event, { journal, projections })

/-- The message of a request: the retained one, or a new one after the session's wait is over. -/
def recordSessionMessage (s : Store) (request : SessionMessageRequest)
    (waitIdentity : RuntimeEventIdentity) (candidate : Event) :
    Option Event → Except DispatchError ((Event × List Event) × Store)
  | some retained => .ok ((retained, []), s)
  | none => do
    let wait ← activeWaitForSession s.projections request.sessionId
    let (cancelled, s) ← cancelSessionWait s request waitIdentity wait
    let (requested, s) ← appendSessionMessage s candidate
    return ((requested, cancelled), s)

/-- Store one addressed user turn and its executable queue binding. -/
def submitSessionMessage (s : Store) (request : SessionMessageRequest)
    (waitIdentity requestedIdentity availableIdentity : RuntimeEventIdentity) :
    Except DispatchError (SubmittedSessionMessage × Store) := do
  validateSessionMessageRequest request
  validateDistinctRuntimeIdentities [waitIdentity, requestedIdentity, availableIdentity] []
  let candidate := sessionMessageRequestedEvent requestedIdentity request
  validateEventIdentity candidate
  let retained ← retainedSessionMessage s.journal candidate
  let ((requested, cancelled), s) ← recordSessionMessage s request waitIdentity candidate retained
  let (available, s) ← appendRuntimeEvent s
    (sessionMessageAvailableEvent availableIdentity requested request)
  return ({
    eventId := requested.id
    queueItemId := queueItemId requested.id request.agentId
    agentId := request.agentId
    sessionId := request.sessionId
    runId := request.runId
    changed := retained.isNone || available.inserted
    events := cancelled ++ [requested, available.event] }, s)

end

/-! ### The catalog -/

/-- What a session is doing. -/
inductive SessionActivityStatus where
  | running
  | queued
  | waiting
  | idle
  deriving DecidableEq, Repr

/-- The active wait shown for a session. -/
structure SessionActiveWait where
  handle : String
  eventType : String
  fields : Map
  deadlineMs : Option Int
  deriving DecidableEq, Repr

/-- The latest attempt shown for a session. -/
structure SessionLatestAttempt where
  runId : Option String
  status : AttemptStatus
  deriving DecidableEq, Repr

/-- One session as the catalog shows it. -/
structure Session where
  sessionId : String
  agentId : Option String
  status : SessionActivityStatus
  cancellationRequested : Bool
  activeRunId : Option String
  queuedTurns : ℕ
  activeWait : Option SessionActiveWait
  latestAttempt : Option SessionLatestAttempt
  updatedAt : String
  conflictingAgentIds : List String
  deriving DecidableEq, Repr

/-- What the tables say about one session. -/
structure SessionSources where
  queueItems : List QueueItem
  attempts : List AttemptRow
  waits : List WaitRow

/-- Statuses after which an item no longer counts as a turn of its session. -/
def queueStatusIsSessionTerminal (status : QueueItemStatus) : Bool := status.ended

/-- The running attempts of a session. -/
def SessionSources.running (source : SessionSources) : List AttemptRow :=
  source.attempts.filter (·.status = .running)

/-- The turns of a session that wait for an attempt. -/
def SessionSources.queued (source : SessionSources) : List QueueItem :=
  source.queueItems.filter fun item => !queueStatusIsSessionTerminal item.status
    && item.queueItemId ∉ source.running.map (·.queueItemId)

/-- The active waits of a session. -/
def SessionSources.activeWaits (source : SessionSources) : List WaitRow :=
  source.waits.filter (·.status = .active)

/-- The activity of a session: running, queued, waiting, idle, in this order. -/
def SessionSources.activity (source : SessionSources) : SessionActivityStatus :=
  if source.running ≠ [] then .running
  else if source.queued ≠ [] then .queued
  else if source.activeWaits ≠ [] then .waiting
  else .idle

/-- The first of the elements with the latest time. -/
def firstLatest {α : Type} (time : α → Int) : List α → Option α
  | [] => none
  | a :: as => some (as.foldl (fun latest current =>
      if time latest < time current then current else latest) a)

/-- Everyone the tables name as an owner of a session, in order. -/
def SessionSources.owners (source : SessionSources) : List String :=
  (((source.queueItems.map (·.targetAgent) ++ source.attempts.map (·.targetAgent)
    ++ source.waits.map (·.agentId)).filter (· ≠ "")).dedup).insertionSort (· ≤ ·)

/-- The text of a catalog time, with microseconds if there are any. -/
def CivilTime.formatZulu (t : CivilTime) : String :=
  let microsecond := t.nanosecond / 1000
  padInt 4 t.year ++ "-" ++ padNat 2 t.month ++ "-" ++ padNat 2 t.day ++ "T"
    ++ padNat 2 t.hour ++ ":" ++ padNat 2 t.minute ++ ":" ++ padNat 2 t.second
    ++ (if microsecond = 0 then "" else "." ++ padNat 6 microsecond) ++ "Z"

section

variable [Platform]

/-- The time of an attempt in the catalog: its end, or its start. Division is towards zero. -/
def attemptSessionTime (attempt : AttemptRow) : Int :=
  match Platform.parseRfc3339 ((attempt.finishedAt.filter (· ≠ "")).getD attempt.startedAt) with
  | none => 0
  | some nanos =>
    let ms := nanos.tdiv 1000000
    if -2 ^ 63 ≤ ms ∧ ms < 2 ^ 63 then ms else 0

/-- The times of a session's activity. -/
def SessionSources.updateTimes (source : SessionSources) : List Int :=
  source.queueItems.map (·.updatedAt) ++ source.attempts.map attemptSessionTime
    ++ source.waits.map (·.updatedAt)

/-- The latest activity of a session. -/
def SessionSources.updatedAtMs (source : SessionSources) : Int :=
  match source.updateTimes with
  | [] => 0
  | first :: rest => rest.foldl max first

/-- The text of a catalog time. -/
def formatSessionTimestamp (timestampMs : Int) : Except DispatchError String := do
  let t ← require (Platform.civilTime (timestampMs * 1000000))
    (.corruptProjection "sessions" "updated_at")
  return t.formatZulu

/-- Show a session. -/
def sessionFromSources (sessionId : String) (source : SessionSources) :
    Except DispatchError (Int × Session) := do
  let activeAttempt := firstLatest attemptSessionTime source.running
  let owners := source.owners
  let updatedAt ← formatSessionTimestamp source.updatedAtMs
  return (source.updatedAtMs, {
    sessionId
    agentId := if owners.length = 1 then owners.head? else none
    status := source.activity
    cancellationRequested := source.queueItems.any fun item =>
      item.cancelRequestedEventId.isSome && !queueStatusIsSessionTerminal item.status
    activeRunId := activeAttempt.bind (·.runId)
    queuedTurns := source.queued.length
    activeWait := (firstLatest (·.updatedAt) source.activeWaits).map fun wait =>
      { handle := wait.handle, eventType := wait.eventType, fields := wait.fields,
        deadlineMs := wait.deadlineMs }
    latestAttempt := (firstLatest attemptSessionTime source.attempts).map fun attempt =>
      { runId := attempt.runId, status := attempt.status }
    updatedAt
    conflictingAgentIds := if owners.length > 1 then owners else [] })

section

omit [Platform]

/-- Every queue item, in input order. -/
def loadQueueItems (p : Projections) : Except DispatchError (List QueueItem) :=
  (p.queueItems.rows.insertionSort QueueItemRow.claimsBefore).mapM fun row =>
    (row.withClaim (p.queueClaims.find? row.queueItemId)).intoModel

/-- The order of attempts in the catalog. -/
def attemptBefore (p : Projections) (a b : AttemptRow) : Prop :=
  let cursor (row : AttemptRow) := ((p.queueItems.find? row.queueItemId).map (·.inputCursor)).getD 0
  cursor a < cursor b ∨ cursor a = cursor b ∧
    (a.attemptNumber < b.attemptNumber ∨ a.attemptNumber = b.attemptNumber ∧
      a.attemptId ≤ b.attemptId)

instance (p : Projections) : DecidableRel (attemptBefore p) :=
  fun _ _ => inferInstanceAs (Decidable (_ ∨ _))

/-- Every attempt of a queue item that exists, in input and attempt order. -/
def loadAttempts (p : Projections) : Except DispatchError (List AttemptRow) :=
  ((p.attempts.rows.filter fun row => (p.queueItems.find? row.queueItemId).isSome).insertionSort
    (attemptBefore p)).mapM AttemptRow.intoModel

/-- Every wait, in creation order. -/
def loadWaits (s : Store) : Except DispatchError (List WaitRow) :=
  ((s.projections.waits.rows.filter fun row => journaled s.journal row.createdEventId).insertionSort
    fun a b =>
      createdBefore s.journal (a.createdEventId, a.handle) (b.createdEventId, b.handle)).mapM
    WaitRow.intoModel

/-- The sessions the tables name, in order. -/
def sessionIds (source : SessionSources) : List String :=
  ((source.queueItems.filterMap (·.sessionId) ++ source.attempts.filterMap (·.sessionId)
    ++ source.waits.map (·.sessionId)).dedup).insertionSort (· ≤ ·)

/-- The part of the tables that is about one session. -/
def SessionSources.restrict (source : SessionSources) (sessionId : String) : SessionSources where
  queueItems := source.queueItems.filter (·.sessionId = some sessionId)
  attempts := source.attempts.filter (·.sessionId = some sessionId)
  waits := source.waits.filter (·.sessionId = sessionId)

end

/-- The catalog of what the tables say, latest activity first. -/
def projectSessions (source : SessionSources) : Except DispatchError (List Session) := do
  let sessions ← (sessionIds source).mapM fun sessionId =>
    sessionFromSources sessionId (source.restrict sessionId)
  return (sessions.insertionSort fun a b =>
    b.1 < a.1 ∨ b.1 = a.1 ∧ b.2.sessionId ≤ a.2.sessionId).map (·.2)

/-- The current activity of every durable session. -/
def listSessions (s : Store) : Except DispatchError (List Session) := do
  let queueItems ← loadQueueItems s.projections
  let attempts ← loadAttempts s.projections
  let waits ← loadWaits s
  projectSessions { queueItems, attempts, waits }

/-- One session, when its durable owner is unambiguous. -/
def sessionStatus (s : Store) (sessionId : String) : Except DispatchError Session := do
  let sessions ← listSessions s
  let session ← require (sessions.find? (·.sessionId = sessionId)) (.sessionNotFound sessionId)
  ensure (session.conflictingAgentIds = [])
    (.sessionOwnerConflict sessionId session.conflictingAgentIds)
  return session

end

end Zeta
