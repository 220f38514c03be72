import ZetaRuntime.Index.Payload

/-!
# Projecting waits and deferred publications

A completed attempt may leave behind waits and future publications. Each is created by one fact and
ended by at most one other: the terminal facts update only a row that is still open, and a fact that
finds none is rejected. A session has at most one active wait.

The payload-valued columns (`fields`, `payload`) are the only places where what is projected live
and what is projected in a rebuild can differ: the rebuild stores the canonical form.
-/

namespace Zeta

open Outcome

variable {row : DeferredPublicationRow} {event : Event}

section Created

variable [Platform]

/-- A timestamp in a lifecycle payload, in whole milliseconds. -/
def lifecycleTimestampMs (event : Event) (field value : String) : Except DispatchError Int := do
  let nanos ← require (Platform.parseRfc3339 value) (invalidLifecycle event field)
  let ms := nanos / 1000000
  ensure (-2 ^ 63 ≤ ms ∧ ms < 2 ^ 63) (invalidLifecycle event field)
  return ms

/-- An optional timestamp in a lifecycle payload. -/
def optionalTimestampMs (event : Event) (field : String) :
    Option String → Except DispatchError (Option Int)
  | none => .ok none
  | some value => some <$> lifecycleTimestampMs event field value

/-- The row a wait-created fact describes. -/
def readWait (event : Event) : Except DispatchError WaitRow := do
  let handle ← requiredRuntimeId event "handle"
  let agentId ← requiredRuntimeId event "agent_id"
  let sessionId ← requiredRuntimeId event "session_id"
  ensure (event.sessionId = some sessionId) (invalidLifecycle event "session_id")
  let eventType ← requiredRuntimeId event "event_type"
  ensure (¬startsWith eventType "runtime.") (invalidLifecycle event "event_type")
  let fields ← requiredPayloadObject event "fields"
  let deadline ← optionalPayloadString event "deadline"
  let deadlineMs ← optionalTimestampMs event "deadline" deadline
  let sourceQueueItemId ← requiredRuntimeId event "source_queue_item_id"
  let projectRevision ← optionalPayloadString event "project_revision"
  validateOptionalRuntimeId event "project_revision" projectRevision
  return {
    handle, agentId, sessionId, eventType, fields, deadlineMs, sourceQueueItemId, projectRevision,
    createdEventId := event.id
    status := .active
    matchedEventId := none
    terminalEventId := none
    updatedAt := event.timestampMs }

/-- The row a publication-created fact describes. -/
def readDeferredPublication (event : Event) : Except DispatchError DeferredPublicationRow := do
  let handle ← requiredRuntimeId event "handle"
  let eventType ← requiredRuntimeId event "event_type"
  ensure (¬startsWith eventType "runtime.") (invalidLifecycle event "event_type")
  let payload ← requiredPayloadObject event "payload"
  let publishAt ← requiredRuntimeId event "publish_at"
  let publishAtMs ← lifecycleTimestampMs event "publish_at" publishAt
  let sourceAgentId ← requiredRuntimeId event "source_agent_id"
  let sourceQueueItemId ← requiredRuntimeId event "source_queue_item_id"
  let position ← requiredNonnegativeU64 event "position"
  ensure ((position : Int) ≤ i64Max) (invalidLifecycle event "position")
  let sourceSessionId ← optionalPayloadString event "source_session_id"
  ensure (sourceSessionId = event.sessionId) (invalidLifecycle event "source_session_id")
  ensure (sourceSessionId ≠ some "") (invalidLifecycle event "source_session_id")
  ensure (event.runId ≠ some "") (invalidLifecycle event "source_run_id")
  return {
    handle, eventType, payload, publishAtMs, sourceAgentId, sourceSessionId,
    sourceRunId := event.runId
    sourceQueueItemId, position
    createdEventId := event.id
    status := .pending
    publishedEventId := none
    terminalEventId := none
    updatedAt := event.timestampMs }

/-- A publication begins as pending. -/
theorem readDeferredPublication_status (h : readDeferredPublication event = .ok row) :
    row.status = .pending := by
  simp only [readDeferredPublication, ok_iff] at h
  obtain ⟨_, -, _, -, _, -, _, -, _, -, _, -, _, -, _, -, _, -, _, -, _, -, _, -, _, -, _, -,
    rfl⟩ := h
  rfl

/-- A wait begins as active. -/
theorem readWait_status {row : WaitRow} (h : readWait event = .ok row) : row.status = .active := by
  simp only [readWait, ok_iff] at h
  obtain ⟨_, -, _, -, _, -, _, -, _, -, _, -, _, -, _, -, _, -, _, -, _, -, _, -, rfl⟩ := h
  rfl

end Created

/-- Insert a new wait. -/
def insertWait (row : WaitRow) (p : Projections) : Except DispatchError Projections := do
  ensure (sqlText row.handle ∧ sqlText row.agentId ∧ sqlText row.sessionId ∧ sqlText row.eventType ∧
    sqlText row.sourceQueueItemId ∧ sqlText row.createdEventId) (.database "project wait creation")
  ensure (∀ other ∈ p.waits.rows, other.createdEventId ≠ row.createdEventId ∧
    ¬(other.sessionId = row.sessionId ∧ other.status = .active)) (.database "project wait creation")
  let waits ← require (p.waits.insert? row) (.database "project wait creation")
  return { p with waits }

/-- Insert a new deferred publication. -/
def insertDeferredPublication (row : DeferredPublicationRow) (p : Projections) :
    Except DispatchError Projections := do
  ensure (sqlText row.handle ∧ sqlText row.eventType ∧ sqlText row.sourceAgentId ∧
    sqlText row.sourceQueueItemId ∧ sqlText row.createdEventId)
    (.database "project deferred publication creation")
  ensure (∀ other ∈ p.deferredPublications.rows, other.createdEventId ≠ row.createdEventId)
    (.database "project deferred publication creation")
  let deferredPublications ← require (p.deferredPublications.insert? row)
    (.database "project deferred publication creation")
  return { p with deferredPublications }

/-! ### Terminal facts -/

/-- The event that matched a wait. -/
def matchedEventId (event : Event) (status : WaitStatus) : Except DispatchError (Option String) :=
  if status = .matched then some <$> requiredRuntimeId event "matched_event_id" else .ok none

/-- End an active wait. -/
def indexWaitTerminal (journal : List JournalEntry) (event : Event) (status : WaitStatus)
    (p : Projections) : Except DispatchError Projections := do
  let handle ← requiredRuntimeId event "handle"
  let matched ← matchedEventId event status
  ensure (∀ id ∈ matched, event.causedBy = some id) (invalidLifecycle event "matched_event_id")
  let selected (row : WaitRow) : Bool := row.handle = handle && row.status = .active
  ensure (p.waits.countWhere selected = 0 ∨ ∀ id ∈ matched, journaled journal id)
    (.database "project wait terminal")
  ensure (p.waits.countWhere selected = 1) (invalidLifecycle event "handle")
  return { p with
    waits := p.waits.updateWhere selected
      (fun row => { row with
        status, matchedEventId := matched, terminalEventId := some event.id,
        updatedAt := event.timestampMs })
      (fun _ => rfl) }

/-- The event a deferred publication became. -/
def publishedEventId (event : Event) (status : DeferredPublicationStatus) :
    Except DispatchError (Option String) :=
  if status = .published then some <$> requiredRuntimeId event "published_event_id" else .ok none

/-- End an open deferred publication. -/
def indexDeferredPublicationTerminal (journal : List JournalEntry) (event : Event)
    (status : DeferredPublicationStatus) (p : Projections) : Except DispatchError Projections := do
  let handle ← requiredRuntimeId event "handle"
  let published ← publishedEventId event status
  ensure (∀ id ∈ published, event.causedBy = some id) (invalidLifecycle event "published_event_id")
  let selected (row : DeferredPublicationRow) : Bool :=
    row.handle = handle && (row.status = .pending || row.status = .claimed)
  ensure (p.deferredPublications.countWhere selected = 0 ∨ ∀ id ∈ published, journaled journal id)
    (.database "project deferred publication terminal")
  ensure (p.deferredPublications.countWhere selected = 1) (invalidLifecycle event "handle")
  return { p with
    deferredPublications := p.deferredPublications.updateWhere selected
      (fun row => { row with
        status, publishedEventId := published, terminalEventId := some event.id,
        updatedAt := event.timestampMs })
      (fun _ => rfl) }

section Index

variable [Platform]

/-- Project one wait fact. -/
def indexWait (journal : List JournalEntry) (event : Event) (p : Projections) :
    Except DispatchError Projections :=
  if event.eventType = "runtime.wait.created" then do
    let row ← readWait event
    insertWait row p
  else if event.eventType = "runtime.wait.matched" then indexWaitTerminal journal event .matched p
  else if event.eventType = "runtime.wait.timed_out" then
    indexWaitTerminal journal event .timedOut p
  else if event.eventType = "runtime.wait.cancelled" then
    indexWaitTerminal journal event .cancelled p
  else .error (invalidLifecycle event "event_type")

/-- Project one deferred-publication fact. -/
def indexDeferredPublication (journal : List JournalEntry) (event : Event) (p : Projections) :
    Except DispatchError Projections :=
  if event.eventType = "runtime.deferred_publication.created" then do
    let row ← readDeferredPublication event
    insertDeferredPublication row p
  else if event.eventType = "runtime.deferred_publication.published" then
    indexDeferredPublicationTerminal journal event .published p
  else if event.eventType = "runtime.deferred_publication.cancelled" then
    indexDeferredPublicationTerminal journal event .cancelled p
  else .error (invalidLifecycle event "event_type")

end Index

/-! ### Reading back -/

namespace ReadsBack

variable [Platform] {event event' : Event}

theorem lifecycleTimestampMs_eq (h : ReadsBack event event') (field value : String) :
    lifecycleTimestampMs event' field value = lifecycleTimestampMs event field value := by
  simp only [lifecycleTimestampMs, h.invalidLifecycle_eq]

theorem optionalTimestampMs_eq (h : ReadsBack event event') (field : String)
    (value : Option String) :
    optionalTimestampMs event' field value = optionalTimestampMs event field value := by
  cases value with
  | none => rfl
  | some value => simp only [optionalTimestampMs, h.lifecycleTimestampMs_eq]

/-- Read back, a creation fact describes the same wait, with its fields in canonical form. -/
theorem readWait_ok (h : ReadsBack event event') {row : WaitRow} (hrow : readWait event = .ok row) :
    ∃ fields, canonicalPayload row.fields = .ok fields ∧
      readWait event' = .ok { row with fields } := by
  simp only [readWait, ok_iff] at hrow
  obtain ⟨hd, hhd, ag, hag, ss, hss, _, hes, et, het, _, hrt, fs, hfs, dl, hdl, dm, hdm, sq, hsq,
    pr, hpr, _, hpv, rfl⟩ := hrow
  obtain ⟨fs', hcanonical, hfs'⟩ := h.requiredPayloadObject_ok hfs
  refine ⟨fs', hcanonical, ?_⟩
  simp only [readWait, h.requiredRuntimeId_eq, h.optionalPayloadString_eq, h.invalidLifecycle_eq,
    h.optionalTimestampMs_eq, h.validateOptionalRuntimeId_eq, h.sessionId_eq, h.id_eq,
    h.timestampMs_eq, ok_iff]
  exact ⟨hd, hhd, ag, hag, ss, hss, (), hes, et, het, (), hrt, fs', hfs', dl, hdl, dm, hdm, sq, hsq,
    pr, hpr, (), hpv, rfl⟩

/-- Read back, a creation fact describes the same publication, with its payload in canonical form.
-/
theorem readDeferredPublication_ok (h : ReadsBack event event')
    (hrow : readDeferredPublication event = .ok row) :
    ∃ payload, canonicalPayload row.payload = .ok payload ∧
      readDeferredPublication event' = .ok { row with payload } := by
  simp only [readDeferredPublication, ok_iff] at hrow
  obtain ⟨hd, hhd, et, het, _, hrt, pl, hpl, pa, hpa, pm, hpm, ag, hag, sq, hsq, po, hpo, _, hpos,
    ss, hss, _, hses, _, hsne, _, hrun, rfl⟩ := hrow
  obtain ⟨pl', hcanonical, hpl'⟩ := h.requiredPayloadObject_ok hpl
  refine ⟨pl', hcanonical, ?_⟩
  simp only [readDeferredPublication, h.requiredRuntimeId_eq, h.optionalPayloadString_eq,
    h.invalidLifecycle_eq, h.lifecycleTimestampMs_eq, h.requiredNonnegativeU64_eq, h.sessionId_eq,
    h.runId_eq, h.id_eq, h.timestampMs_eq, ok_iff]
  exact ⟨hd, hhd, et, het, (), hrt, pl', hpl', pa, hpa, pm, hpm, ag, hag, sq, hsq, po, hpo, (),
    hpos, ss, hss, (), hses, (), hsne, (), hrun, rfl⟩

theorem indexWaitTerminal_eq (h : ReadsBack event event') (journal : List JournalEntry)
    (status : WaitStatus) (p : Projections) :
    indexWaitTerminal journal event' status p = indexWaitTerminal journal event status p := by
  simp only [indexWaitTerminal, matchedEventId, h.requiredRuntimeId_eq, h.invalidLifecycle_eq,
    h.causedBy_eq, h.id_eq, h.timestampMs_eq]

theorem indexDeferredPublicationTerminal_eq (h : ReadsBack event event')
    (journal : List JournalEntry) (status : DeferredPublicationStatus) (p : Projections) :
    indexDeferredPublicationTerminal journal event' status p
      = indexDeferredPublicationTerminal journal event status p := by
  simp only [indexDeferredPublicationTerminal, publishedEventId, h.requiredRuntimeId_eq,
    h.invalidLifecycle_eq, h.causedBy_eq, h.id_eq, h.timestampMs_eq]

end ReadsBack

end Zeta
