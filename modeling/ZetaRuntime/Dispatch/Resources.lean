import Mathlib.Data.Prod.Lex
import ZetaRuntime.Library.Drain
import ZetaRuntime.Dispatch.ReadModel

/-!
# Waits and deferred publications

A wait ends in one of three ways: an event matches it, its deadline passes, or it is cancelled. The
first two continue the agent that waits, by a new queue item whose input is the fact that ended the
wait. A deferred publication ends by being published, which may match waits in turn, or by being
cancelled.

`advanceDue` repeats the timed operations until nothing is due. Each round is a transaction of its
own, so a round that fails leaves the earlier ones committed.

## Main definitions

* `resumeWaitsForEvent`, `timeoutNextDueWait`, `publishNextDueDeferredPublication`,
  `cancelResource`, `advanceDue` — the operations

## Main results

* `nextDueWait_spec`, `nextDueDeferredPublication_spec` — what is found is due first
-/

namespace Zeta

open Outcome

/-! ### Rehydrating rows -/

/-- Rehydrate a wait. -/
def WaitRow.intoModel (row : WaitRow) : Except DispatchError WaitRow := do
  ensure (row.sessionId ≠ "") (.corruptProjection "waits" "session_id")
  ensure (row.sourceQueueItemId ≠ "") (.corruptProjection "waits" "source_queue_item_id")
  ensure (readable row.fields) (.corruptProjection "waits" "fields_json")
  return row

/-- Rehydrate a deferred publication. -/
def DeferredPublicationRow.intoModel (row : DeferredPublicationRow) :
    Except DispatchError DeferredPublicationRow := do
  ensure (readable row.payload) (.corruptProjection "deferred_publications" "payload_json")
  ensure (row.sourceSessionId ≠ some "")
    (.corruptProjection "deferred_publications" "source_session_id")
  ensure (row.sourceRunId ≠ some "") (.corruptProjection "deferred_publications" "source_run_id")
  ensure (row.sourceQueueItemId ≠ "")
    (.corruptProjection "deferred_publications" "source_queue_item_id")
  return row

/-- Rehydrate a wait, if there is one. -/
def rehydrateWait : Option WaitRow → Except DispatchError (Option WaitRow)
  | none => .ok none
  | some row => some <$> row.intoModel

/-- Rehydrate a deferred publication, if there is one. -/
def rehydrateDeferredPublication :
    Option DeferredPublicationRow → Except DispatchError (Option DeferredPublicationRow)
  | none => .ok none
  | some row => some <$> row.intoModel

/-- The wait with a handle. -/
def loadWait (p : Projections) (handle : String) : Except DispatchError (Option WaitRow) :=
  rehydrateWait (p.waits.find? handle)

/-- The deferred publication with a handle. -/
def loadDeferredPublication (p : Projections) (handle : String) :
    Except DispatchError (Option DeferredPublicationRow) :=
  rehydrateDeferredPublication (p.deferredPublications.find? handle)

/-- The active wait of a session. -/
def activeWaitForSession (p : Projections) (sessionId : String) :
    Except DispatchError (Option WaitRow) :=
  rehydrateWait (p.waits.rows.find? fun wait => wait.sessionId = sessionId && wait.status = .active)

/-- The place of a resource among those created before it, by the event that created it. -/
def createdBefore (journal : List JournalEntry) (a b : String × String) : Prop :=
  let cursor (eventId : String) := (cursorOf journal eventId).getD 0
  cursor a.1 < cursor b.1 ∨ cursor a.1 = cursor b.1 ∧ a.2 ≤ b.2

instance (journal : List JournalEntry) : DecidableRel (createdBefore journal) :=
  fun _ _ => inferInstanceAs (Decidable (_ ∨ _))

/-- Rehydrate the active waits for an event type, in creation order. -/
def activeWaits (s : Store) (eventType : String) : Except DispatchError (List WaitRow) :=
  ((s.projections.waits.rows.filter fun wait =>
    wait.status = .active && wait.eventType = eventType
      && journaled s.journal wait.createdEventId).insertionSort
    fun a b =>
      createdBefore s.journal (a.createdEventId, a.handle) (b.createdEventId, b.handle)).mapM
    WaitRow.intoModel

/-- Whether every field a wait names has its value in an event. -/
def WaitRow.matches (wait : WaitRow) (event : Event) : Bool :=
  wait.fields.all fun (key, value) => (event.payload.get key).any fun found => found.same value

/-- The active waits an event matches. -/
def matchingWaits (s : Store) (event : Event) : Except DispatchError (List WaitRow) := do
  let waits ← activeWaits s event.eventType
  return waits.filter (·.matches event)

/-- The active wait that fell due first. -/
def nextDueWait (s : Store) (nowMs : Int) : Except DispatchError (Option WaitRow) :=
  rehydrateWait ((s.projections.waits.rows.filter fun wait =>
    wait.status = .active && wait.deadlineMs.any (· ≤ nowMs)
      && journaled s.journal wait.createdEventId).insertionSort
    fun a b => a.deadlineMs.getD 0 < b.deadlineMs.getD 0 ∨
      a.deadlineMs.getD 0 = b.deadlineMs.getD 0 ∧
      createdBefore s.journal (a.createdEventId, a.handle) (b.createdEventId, b.handle)).head?

/-- The pending publication that fell due first. -/
def nextDueDeferredPublication (s : Store) (nowMs : Int) :
    Except DispatchError (Option DeferredPublicationRow) :=
  rehydrateDeferredPublication ((s.projections.deferredPublications.rows.filter fun publication =>
    publication.status = .pending && publication.publishAtMs ≤ nowMs
      && journaled s.journal publication.createdEventId).insertionSort
    fun a b => a.publishAtMs < b.publishAtMs ∨ a.publishAtMs = b.publishAtMs ∧
      createdBefore s.journal (a.createdEventId, a.handle) (b.createdEventId, b.handle)).head?

/-! ### What the queries find -/

section

variable {s : Store} {nowMs : Int} {d d' : Int} {e e' h h' : String} {journal : List JournalEntry}

theorem rehydrateWait_eq {found result : Option WaitRow} (h : rehydrateWait found = .ok result) :
    found = result := by
  cases found with
  | none => exact Except.ok.inj h
  | some row =>
    simp only [rehydrateWait, map_ok_iff, WaitRow.intoModel, ok_iff] at h
    obtain ⟨_, ⟨_, -, _, -, _, -, rfl⟩, hsome⟩ := h
    exact hsome

theorem rehydrateDeferredPublication_eq {found result : Option DeferredPublicationRow}
    (h : rehydrateDeferredPublication found = .ok result) : found = result := by
  cases found with
  | none => exact Except.ok.inj h
  | some row =>
    simp only [rehydrateDeferredPublication, map_ok_iff, DeferredPublicationRow.intoModel,
      ok_iff] at h
    obtain ⟨_, ⟨_, -, _, -, _, -, _, -, rfl⟩, hsome⟩ := h
    exact hsome

/-- The place of a resource in its queue: its time, and then the event that created it. -/
def queueKey (journal : List JournalEntry) (deadlineMs : Int) (createdEventId handle : String) :
    Int ×ₗ ℕ ×ₗ String :=
  toLex (deadlineMs, toLex ((cursorOf journal createdEventId).getD 0, handle))

theorem queueKey_le_iff :
    d < d' ∨ d = d' ∧ createdBefore journal (e, h) (e', h') ↔
      queueKey journal d e h ≤ queueKey journal d' e' h' := by
  simp [queueKey, createdBefore, Prod.Lex.toLex_le_toLex]

theorem le_of_queueKey_le (hle : queueKey journal d e h ≤ queueKey journal d' e' h') : d ≤ d' := by
  rcases queueKey_le_iff.mpr hle with hlt | ⟨rfl, -⟩
  · exact hlt.le
  · exact le_rfl

/-- The wait that is found is due, and none is due before it. -/
theorem nextDueWait_spec {found : Option WaitRow} (h : nextDueWait s nowMs = .ok found) :
    (∀ wait ∈ found, wait ∈ s.projections.waits ∧ wait.status = .active ∧
        (∃ d, wait.deadlineMs = some d ∧ d ≤ nowMs) ∧
        journaled s.journal wait.createdEventId = true) ∧
      ∀ other ∈ s.projections.waits, other.status = .active →
        (∃ d, other.deadlineMs = some d ∧ d ≤ nowMs) →
        journaled s.journal other.createdEventId = true →
        ∃ wait ∈ found, wait.deadlineMs.getD 0 ≤ other.deadlineMs.getD 0 := by
  obtain ⟨hfound, hleast⟩ := head?_insertionSort_spec (fun row : WaitRow =>
    queueKey s.journal (row.deadlineMs.getD 0) row.createdEventId row.handle)
    (fun _ _ => queueKey_le_iff) _
  rw [rehydrateWait_eq h] at hfound hleast
  simp only [List.mem_filter, Bool.and_eq_true, decide_eq_true_eq, Option.any_eq_true,
    and_assoc] at hfound hleast
  refine ⟨hfound, fun other hother hactive hdue hjournaled => ?_⟩
  obtain ⟨wait, hwait, hkey⟩ := hleast other ⟨hother, hactive, hdue, hjournaled⟩
  exact ⟨wait, hwait, le_of_queueKey_le hkey⟩

/-- The publication that is found is due, and none is due before it. -/
theorem nextDueDeferredPublication_spec {found : Option DeferredPublicationRow}
    (h : nextDueDeferredPublication s nowMs = .ok found) :
    (∀ row ∈ found, row ∈ s.projections.deferredPublications ∧ row.status = .pending ∧
        row.publishAtMs ≤ nowMs ∧ journaled s.journal row.createdEventId = true) ∧
      ∀ other ∈ s.projections.deferredPublications, other.status = .pending →
        other.publishAtMs ≤ nowMs → journaled s.journal other.createdEventId = true →
        ∃ row ∈ found, row.publishAtMs ≤ other.publishAtMs := by
  obtain ⟨hfound, hleast⟩ := head?_insertionSort_spec (fun row : DeferredPublicationRow =>
    queueKey s.journal row.publishAtMs row.createdEventId row.handle) (fun _ _ => queueKey_le_iff) _
  rw [rehydrateDeferredPublication_eq h] at hfound hleast
  simp only [List.mem_filter, Bool.and_eq_true, decide_eq_true_eq, and_assoc] at hfound hleast
  refine ⟨hfound, fun other hother hpending hdue hjournaled => ?_⟩
  obtain ⟨row, hrow, hkey⟩ := hleast other ⟨hother, hpending, hdue, hjournaled⟩
  exact ⟨row, hrow, le_of_queueKey_le hkey⟩

end

/-! ### The facts -/

/-- A natural number in decimal, padded with zeros. -/
def padNat (width n : ℕ) : String :=
  let digits := toString n
  String.ofList (List.replicate (width - digits.length) '0') ++ digits

/-- An integer in decimal, padded with zeros after its sign. -/
def padInt (width : ℕ) (n : Int) : String :=
  if n < 0 then "-" ++ padNat (width - 1) n.natAbs else padNat width n.natAbs

/-- The text of a date and time, with microseconds if there are any. -/
def CivilTime.format (t : CivilTime) : String :=
  let microsecond := t.nanosecond / 1000
  padInt 4 t.year ++ "-" ++ padNat 2 t.month ++ "-" ++ padNat 2 t.day ++ "T"
    ++ padNat 2 t.hour ++ ":" ++ padNat 2 t.minute ++ ":" ++ padNat 2 t.second
    ++ (if microsecond = 0 then "" else "." ++ padNat 6 microsecond) ++ "+00:00"

/-- A wait matched an event. -/
def waitMatchedEvent (identity : RuntimeEventIdentity) (wait : WaitRow) (input : Event) : Event :=
  runtimeFact identity "runtime.wait.matched"
    ([("handle", .string wait.handle),
      ("agent_id", .string wait.agentId),
      ("session_id", .string wait.sessionId),
      ("matched_event_id", .string input.id),
      ("event_type", .string input.eventType),
      ("payload", .object input.payload)]
      ++ optionalField "project_revision" wait.projectRevision)
    ("wait.matched:" ++ wait.handle) (some input.id) (some wait.sessionId) none input.turnId

/-- A wait's agent goes on. -/
def waitContinuationEvent (identity : RuntimeEventIdentity) (wait : WaitRow) (matched : Event) :
    Event :=
  runtimeFact identity "runtime.queue_item.available"
    ([("queue_item_id", .string (queueItemId matched.id wait.agentId)),
      ("event_id", .string matched.id),
      ("target_agent", .string wait.agentId),
      ("status", .string QueueItemStatus.available.display)]
      ++ optionalField "project_revision" wait.projectRevision)
    (queueItemIdempotencyKey matched.id wait.agentId .available) (some matched.id)
    (some wait.sessionId) none matched.turnId

/-- Who cancelled a resource, and why. -/
def cancellationFields (reason sourceAgentId sourceSessionId : Option String) : Map :=
  optionalField "reason" reason
    ++ optionalField "cancelled_by_agent_id" sourceAgentId
    ++ optionalField "cancelled_by_session_id" sourceSessionId

/-- A wait was cancelled. -/
def waitCancelledEvent (identity : RuntimeEventIdentity) (wait : WaitRow)
    (reason sourceAgentId sourceSessionId : Option String) : Event :=
  runtimeFact identity "runtime.wait.cancelled"
    ([("handle", .string wait.handle),
      ("agent_id", .string wait.agentId),
      ("session_id", .string wait.sessionId)]
      ++ cancellationFields reason sourceAgentId sourceSessionId)
    ("wait.cancelled:" ++ wait.handle) (some wait.createdEventId) (some wait.sessionId) none none

/-- The event a deferred publication becomes. -/
def deferredPublicationEvent (identity : RuntimeEventIdentity)
    (publication : DeferredPublicationRow) : Event where
  id := identity.id
  eventType := publication.eventType
  source := "agent:" ++ publication.sourceAgentId
  payload := publication.payload
  idempotencyKey := some
    ("agent.publish:" ++ publication.sourceQueueItemId ++ ":" ++ toString publication.position)
  causedBy := some publication.createdEventId
  sessionId := publication.sourceSessionId
  runId := publication.sourceRunId
  turnId := none
  timestampMs := identity.timestampMs
  cursor := none

/-- The part both terminal facts of a publication repeat. -/
def publicationPayload (publication : DeferredPublicationRow) : Map :=
  [("handle", .string publication.handle),
    ("source_agent_id", .string publication.sourceAgentId),
    ("source_queue_item_id", .string publication.sourceQueueItemId),
    ("position", .number (.int publication.position))]

/-- A deferred publication was published. -/
def deferredPublicationPublishedEvent (identity : RuntimeEventIdentity)
    (publication : DeferredPublicationRow) (published : Event) : Event :=
  runtimeFact identity "runtime.deferred_publication.published"
    (publicationPayload publication ++ [("published_event_id", .string published.id)])
    ("deferred_publication.published:" ++ publication.handle) (some published.id)
    publication.sourceSessionId publication.sourceRunId published.turnId

/-- A deferred publication was cancelled. -/
def deferredPublicationCancelledEvent (identity : RuntimeEventIdentity)
    (publication : DeferredPublicationRow)
    (reason sourceAgentId sourceSessionId : Option String) : Event :=
  runtimeFact identity "runtime.deferred_publication.cancelled"
    (publicationPayload publication ++ cancellationFields reason sourceAgentId sourceSessionId)
    ("deferred_publication.cancelled:" ++ publication.handle) (some publication.createdEventId)
    publication.sourceSessionId publication.sourceRunId none

section

variable [Platform]

/-- The text of a wait's deadline. -/
def formatWaitDeadline (deadlineMs : Int) : Except DispatchError String := do
  let t ← require (Platform.civilTime (deadlineMs * 1000000))
    (.corruptProjection "waits" "deadline_ms")
  return t.format

/-- A wait's deadline passed. -/
def waitTimedOutEvent (identity : RuntimeEventIdentity) (wait : WaitRow) :
    Except DispatchError Event := do
  let deadlineMs ← require wait.deadlineMs (.corruptProjection "waits" "deadline_ms")
  let deadline ← formatWaitDeadline deadlineMs
  return runtimeFact identity "runtime.wait.timed_out"
    [("handle", .string wait.handle),
      ("agent_id", .string wait.agentId),
      ("session_id", .string wait.sessionId),
      ("deadline", .string deadline),
      ("project_revision", optionalText wait.projectRevision)]
    ("wait.timed_out:" ++ wait.handle) (some wait.createdEventId) (some wait.sessionId) none none

/-! ### Ending waits -/

/-- End a wait by a fact, and continue its agent. -/
def resumeWait (s : Store) (wait : WaitRow) (ended : Event) (identity : RuntimeEventIdentity) :
    Except DispatchError (List Event × Store) := do
  let (outcome, s) ← appendRuntimeEvent s ended
  let (next, s) ← appendRuntimeEvent s (waitContinuationEvent identity wait outcome.event)
  return ([outcome.event, next.event], s)

/-- Resume the waits an event matched. There are two identities for each. -/
def resumeWaits (input : Event) :
    Store → List WaitRow → List RuntimeEventIdentity → Except DispatchError (List Event × Store)
  | s, wait :: waits, first :: second :: identities => do
    let (events, s) ← resumeWait s wait (waitMatchedEvent first wait input) second
    let (rest, s) ← resumeWaits input s waits identities
    return (events ++ rest, s)
  | s, _, _ => .ok ([], s)

/-- The waits a retained event resumes: a reserved event resumes none. -/
def resumableWaits (s : Store) (input : Event) : Except DispatchError (List WaitRow) :=
  if startsWith input.eventType "runtime." then .ok [] else matchingWaits s input

/-- Resume every active wait matched by one retained external event. -/
def resumeWaitsForEvent (s : Store) (eventId : String) (identities : List RuntimeEventIdentity) :
    Except DispatchError (List Event × Store) := do
  let found ← entryByEventId s.journal eventId
  let entry ← require found (.ingressEventNotFound eventId)
  let waits ← resumableWaits s entry.event
  ensure (identities.length = waits.length * 2)
    (.runtimeEventIdentityCount (waits.length * 2) identities.length)
  validateDistinctRuntimeIdentities identities []
  resumeWaits entry.event s waits identities

/-- Time out a wait, if one is due. -/
def timeoutWait (s : Store) (first second : RuntimeEventIdentity) :
    Option WaitRow → Except DispatchError (Option (List Event) × Store)
  | none => .ok (none, s)
  | some wait => do
    validateDistinctRuntimeIdentities [first, second] []
    let timedOut ← waitTimedOutEvent first wait
    let (events, s) ← resumeWait s wait timedOut second
    return (some events, s)

/-- Resume the oldest active wait whose deadline has passed. -/
def timeoutNextDueWait (s : Store) (nowMs : Int) (first second : RuntimeEventIdentity) :
    Except DispatchError (Option (List Event) × Store) := do
  let due ← nextDueWait s nowMs
  timeoutWait s first second due

/-! ### Publishing -/

/-- Publish a due publication, resume the waits it matches, and record that it was published. -/
def publishDeferred (s : Store) (publication : DeferredPublicationRow) :
    List RuntimeEventIdentity → Except DispatchError (Option (List Event) × Store)
  | first :: second :: identities => do
    let event := deferredPublicationEvent first publication
    let waits ← matchingWaits s event
    let count := identities.length + 2
    ensure (count = 2 + waits.length * 2) (.runtimeEventIdentityCount (2 + waits.length * 2) count)
    validateDistinctRuntimeIdentities (first :: second :: identities) []
    let (published, s) ← appendRuntimeEvent s event
    let middle := (second :: identities).dropLast
    let last := (second :: identities).getLast (List.cons_ne_nil _ _)
    let (resumed, s) ← resumeWaits published.event s waits middle
    let (terminal, s) ← appendRuntimeEvent s
      (deferredPublicationPublishedEvent last publication published.event)
    return (some (published.event :: resumed ++ [terminal.event]), s)
  | identities => .error (.runtimeEventIdentityCount 2 identities.length)

/-- Publish a publication, if one is due. -/
def publishIfDue (s : Store) (identities : List RuntimeEventIdentity) :
    Option DeferredPublicationRow → Except DispatchError (Option (List Event) × Store)
  | none => do
    ensure (identities = []) (.runtimeEventIdentityCount 0 identities.length)
    return (none, s)
  | some publication => publishDeferred s publication identities

/-- Publish the oldest pending deferred publication whose due time has passed. -/
def publishNextDueDeferredPublication (s : Store) (nowMs : Int)
    (identities : List RuntimeEventIdentity) :
    Except DispatchError (Option (List Event) × Store) := do
  let due ← nextDueDeferredPublication s nowMs
  publishIfDue s identities due

/-! ### Cancelling -/

/-- What a handle names. -/
inductive ResourceKind where
  | wait
  | deferredPublication
  deriving DecidableEq, Repr

/-- The terminal status a cancellation left or found. -/
inductive ResourceCancellationStatus where
  | cancelled
  | matched
  | timedOut
  | published
  deriving DecidableEq, Repr

/-- The result of cancelling a resource. -/
structure ResourceCancellationOutcome where
  handle : String
  resourceKind : ResourceKind
  status : ResourceCancellationStatus
  changed : Bool
  event : Option Event
  deriving DecidableEq, Repr

section

omit [Platform]

/-- Handles say what they name. -/
def resourceKindForHandle (handle : String) : Except DispatchError ResourceKind :=
  if startsWith handle "wait_" then .ok .wait
  else if startsWith handle "pub_" then .ok .deferredPublication
  else .error (.invalidCancellationHandle handle)

/-- Only the creator may cancel, as far as the caller says who it is. -/
def authorizeResourceCancellation (handle creatorAgentId : String)
    (creatorSessionId sourceAgentId sourceSessionId : Option String) : Except DispatchError Unit :=
  ensure ((∀ source ∈ sourceAgentId, source = creatorAgentId) ∧
    ∀ source ∈ sourceSessionId, creatorSessionId = some source)
    (.cancellationAuthorityMismatch handle)

/-- A resource that has already ended. -/
def terminalResourceCancellation (handle : String) (resourceKind : ResourceKind)
    (status : ResourceCancellationStatus) : ResourceCancellationOutcome :=
  { handle, resourceKind, status, changed := false, event := none }

end

/-- Record a cancellation; it must be new. -/
def recordResourceCancellation (s : Store) (handle : String) (resourceKind : ResourceKind)
    (event : Event) (table : String) :
    Except DispatchError (ResourceCancellationOutcome × Store) := do
  let (outcome, s) ← appendRuntimeEvent s event
  ensure (outcome.inserted = true) (.corruptProjection table "status")
  return ({ handle, resourceKind, status := .cancelled, changed := true,
            event := some outcome.event }, s)

/-- Cancel a wait that has been found and authorized. -/
def cancelWait (s : Store) (wait : WaitRow) (event : Event) :
    Except DispatchError (ResourceCancellationOutcome × Store) :=
  match wait.status with
  | .active => recordResourceCancellation s wait.handle .wait event "waits"
  | .matched => .ok (terminalResourceCancellation wait.handle .wait .matched, s)
  | .timedOut => .ok (terminalResourceCancellation wait.handle .wait .timedOut, s)
  | .cancelled => .ok (terminalResourceCancellation wait.handle .wait .cancelled, s)

/-- Cancel a publication that has been found and authorized. -/
def cancelDeferredPublication (s : Store) (publication : DeferredPublicationRow) (event : Event) :
    Except DispatchError (ResourceCancellationOutcome × Store) :=
  match publication.status with
  | .pending =>
    recordResourceCancellation s publication.handle .deferredPublication event
      "deferred_publications"
  | .published =>
    .ok (terminalResourceCancellation publication.handle .deferredPublication .published, s)
  | .cancelled =>
    .ok (terminalResourceCancellation publication.handle .deferredPublication .cancelled, s)
  | .claimed => .error (.corruptProjection "deferred_publications" "status")

/-- Cancel one resource by handle. -/
def cancelResourceInTransaction (s : Store) (handle : String)
    (reason sourceAgentId sourceSessionId : Option String) (identity : RuntimeEventIdentity) :
    ResourceKind → Except DispatchError (ResourceCancellationOutcome × Store)
  | .wait => do
    let found ← loadWait s.projections handle
    let wait ← require found (.cancellationResourceNotFound handle)
    authorizeResourceCancellation handle wait.agentId (some wait.sessionId) sourceAgentId
      sourceSessionId
    cancelWait s wait (waitCancelledEvent identity wait reason sourceAgentId sourceSessionId)
  | .deferredPublication => do
    let found ← loadDeferredPublication s.projections handle
    let publication ← require found (.cancellationResourceNotFound handle)
    authorizeResourceCancellation handle publication.sourceAgentId publication.sourceSessionId
      sourceAgentId sourceSessionId
    cancelDeferredPublication s publication
      (deferredPublicationCancelledEvent identity publication reason sourceAgentId sourceSessionId)

/-- Cancel one active wait or pending publication by handle. -/
def cancelResource (s : Store) (handle : String)
    (reason sourceAgentId sourceSessionId : Option String) (identity : RuntimeEventIdentity) :
    Except DispatchError (ResourceCancellationOutcome × Store) := do
  ensure (reason ≠ some "") (.invalidCoordinationInput "reason")
  let kind ← resourceKindForHandle handle
  cancelResourceInTransaction s handle reason sourceAgentId sourceSessionId identity kind

/-! ### Advancing what is due -/

/-- Which kind of resource fell due first. -/
inductive DueKind where
  | wait
  | publication (publication : DeferredPublicationRow)
  deriving DecidableEq, Repr

section

omit [Platform]

/-- Which kind of resource fell due first. -/
def DueKind.next : Option WaitRow → Option DeferredPublicationRow → Option DueKind
  | none, none => none
  | some _, none => some .wait
  | none, some due => some (.publication due)
  | some first, some due =>
    if first.deadlineMs.getD i64Max ≤ due.publishAtMs then some .wait else some (.publication due)

/-- Draw identities from the caller's supply. -/
def drawIdentities (exhausted : DispatchError) (n : ℕ) (supply : List RuntimeEventIdentity) :
    Except DispatchError (List RuntimeEventIdentity × List RuntimeEventIdentity) :=
  if n ≤ supply.length then .ok (supply.take n, supply.drop n) else .error exhausted

/-- One transaction of an advance, with the number of identities it draws. -/
inductive DueStep where
  | timeout
  | publish (identityCount : ℕ)
  deriving DecidableEq, Repr

/-- The identity with which the waits a publication will match are counted. -/
def dueProbe (nowMs : Int) : RuntimeEventIdentity := ⟨"runtime_due_probe", nowMs, by decide⟩

/-- What an advance does next, decided outside the transaction that does it. -/
def planDueStep (s : Store) (nowMs : Int) : Option DueKind → Except DispatchError (Option DueStep)
  | none => .ok none
  | some .wait => .ok (some .timeout)
  | some (.publication publication) => do
    let waits ← matchingWaits s (deferredPublicationEvent (dueProbe nowMs) publication)
    return some (.publish (2 + waits.length * 2))

/-- What an advance does next. -/
def nextDueStep (s : Store) (nowMs : Int) : Except DispatchError (Option DueStep) := do
  let wait ← nextDueWait s nowMs
  let publication ← nextDueDeferredPublication s nowMs
  planDueStep s nowMs (DueKind.next wait publication)

end

/-- Carry out one step of an advance. -/
def runDueStep (s : Store) (nowMs : Int) (exhausted : DispatchError)
    (supply : List RuntimeEventIdentity) :
    DueStep → Except DispatchError ((Option (List Event) × Store) × List RuntimeEventIdentity)
  | .timeout =>
    match supply with
    | first :: second :: supply => do
      let advanced ← timeoutNextDueWait s nowMs first second
      return (advanced, supply)
    | _ => .error exhausted
  | .publish n => do
    let (identities, supply) ← drawIdentities exhausted n supply
    let advanced ← publishNextDueDeferredPublication s nowMs identities
    return (advanced, supply)

/-- Advance bounded due work. A step that fails ends the advance and keeps the steps before it. -/
def advanceDue (nowMs : Int) (exhausted : DispatchError) :
    ℕ → Store → List RuntimeEventIdentity → Except DispatchError (List Event) × Store
  | 0, s, _ => (.ok [], s)
  | limit + 1, s, supply =>
    match nextDueStep s nowMs with
    | .error error => (.error error, s)
    | .ok none => (.ok [], s)
    | .ok (some step) =>
      match runDueStep s nowMs exhausted supply step with
      | .error error => (.error error, s)
      | .ok ((events, s), supply) =>
        let (rest, s) := advanceDue nowMs exhausted limit s supply
        (rest.map (events.getD [] ++ ·), s)

end

/-! ### When to look again -/

/-- The earliest of some instants. -/
def earliest : List Int → Option Int
  | [] => none
  | t :: ts => some (ts.foldl min t)

/-- The earliest future durable maintenance deadline. -/
def nextDeadlineMs (p : Projections) (nowMs : Int) : Option Int :=
  earliest (
    ((p.waits.rows.filter (·.status = .active)).filterMap (·.deadlineMs)
      ++ (p.deferredPublications.rows.filter (·.status = .pending)).map (·.publishAtMs)
      ++ (p.queueItems.rows.filter (·.status = .available)).filterMap (·.availableAt)
      ++ p.queueClaims.rows.map (·.claimedUntil)).filter (nowMs < ·))

end Zeta
