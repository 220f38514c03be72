import ZetaRuntime.Dispatch.Coordination

/-!
# Reading work back from the tables

Operations do not use table rows directly: they rehydrate them as read models, and a row that does
not rehydrate is reported as corrupt. A queue item reads as claimed whenever a claim row exists for
it, whatever its own status column says.

An attempt read model is the row without its claim token and heartbeat. The model keeps the row;
no operation looks at the two columns through it.
-/

namespace Zeta

open Outcome

variable {attempt : AttemptRow} {rows : List AttemptRow} {found : Option AttemptRow}
  {p : Projections} {queueItemId : String}

/-- A queue item with its visible owner. -/
structure QueueItem extends QueueItemRow where
  claimedBy : Option String
  claimedUntil : Option Int
  deriving DecidableEq, Repr

/-- Join a row with its claim. -/
def QueueItemRow.withClaim (row : QueueItemRow) : Option QueueClaimRow → QueueItem
  | none => { row with claimedBy := none, claimedUntil := none }
  | some claim => { row with
      status := .claimed, claimedBy := some claim.workerName,
      claimedUntil := some claim.claimedUntil }

/-- Rehydrate a queue item. -/
def QueueItem.intoModel (item : QueueItem) : Except DispatchError QueueItem := do
  ensure (item.queueItemId ≠ "") (.corruptProjection "queue_items" "queue_item_id")
  ensure (item.sessionId ≠ some "") (.corruptProjection "queue_items" "session_id")
  ensure (lockKeysValid item.toQueueItemRow) (.corruptProjection "queue_items" "lock_keys_json")
  ensure (0 < item.inputCursor) (.corruptProjection "queue_items" "input_cursor")
  ensure (item.attemptCount ≤ u32Max) (.corruptProjection "queue_items" "attempt_count")
  return item

/-- Rehydrate a queue item, if there is one. -/
def rehydrateItem (p : Projections) : Option QueueItemRow → Except DispatchError (Option QueueItem)
  | none => .ok none
  | some row => some <$> (row.withClaim (p.queueClaims.find? row.queueItemId)).intoModel

/-- The queue item with an id. -/
def loadQueueItem (p : Projections) (queueItemId : String) :
    Except DispatchError (Option QueueItem) :=
  rehydrateItem p (p.queueItems.find? queueItemId)

/-- Rehydrate an attempt. -/
def AttemptRow.intoModel (row : AttemptRow) : Except DispatchError AttemptRow := do
  ensure (row.attemptId ≠ "") (.corruptProjection "attempts" "attempt_id")
  ensure (row.queueItemId ≠ "") (.corruptProjection "attempts" "queue_item_id")
  ensure (row.attemptNumber ≠ 0 ∧ row.attemptNumber ≤ u32Max)
    (.corruptProjection "attempts" "attempt_number")
  ensure (row.sessionId ≠ some "") (.corruptProjection "attempts" "session_id")
  ensure (row.runId ≠ some "") (.corruptProjection "attempts" "run_id")
  return row

/-- Rehydrate an attempt, if there is one. -/
def rehydrateAttempt : Option AttemptRow → Except DispatchError (Option AttemptRow)
  | none => .ok none
  | some row => some <$> row.intoModel

/-- The row with the largest attempt number. -/
def latestAttempt : List AttemptRow → Option AttemptRow
  | [] => none
  | row :: rows =>
    match latestAttempt rows with
    | none => some row
    | some latest => if row.attemptNumber < latest.attemptNumber then some latest else some row

/-- The running attempt that was started under a claim. -/
def loadRunningAttemptForClaim (p : Projections) (claim : QueueClaim) :
    Except DispatchError (Option AttemptRow) :=
  rehydrateAttempt (latestAttempt (p.attempts.rows.filter fun attempt =>
    attempt.queueItemId = claim.queueItemId && attempt.workerName = some claim.workerName
      && attempt.claimToken = some claim.token && attempt.status = .running))

/-- The latest running attempt of an item, whoever started it. -/
def loadLatestRunningAttempt (p : Projections) (queueItemId : String) :
    Except DispatchError (Option AttemptRow) :=
  rehydrateAttempt (latestAttempt (p.attempts.rows.filter fun attempt =>
    attempt.queueItemId = queueItemId && attempt.status = .running))

/-- The run of an item: that of its input event, or of its latest attempt that has one. -/
def queueRunId (p : Projections) (item : QueueItem) (input : Event) : Option String :=
  input.runId.or ((latestAttempt (p.attempts.rows.filter fun attempt =>
    attempt.queueItemId = item.queueItemId && attempt.runId.isSome)).bind (·.runId))

/-- The journaled event a row refers to. -/
def referencedEvent (journal : List JournalEntry) (eventId table field : String) :
    Except DispatchError Event := do
  let found ← entryByEventId journal eventId
  let entry ← require found (.corruptProjection table field)
  return entry.event

/-- A text field that is present only with a value. -/
def optionalField (key : String) : Option String → Map
  | some value => [(key, .string value)]
  | none => []

@[simp] theorem get_optionalField (key : String) (text : Option String) (k : String) :
    Map.get (optionalField key text) k = if key = k then text.map Value.string else none := by
  cases text with
  | none => simp [optionalField]
  | some text => rfl

/-- A fact the runtime authors. -/
def runtimeFact (identity : RuntimeEventIdentity) (eventType : String) (payload : Map)
    (idempotencyKey : String) (causedBy sessionId runId turnId : Option String) : Event where
  id := identity.id
  eventType := eventType
  source := "zeta"
  payload := payload
  idempotencyKey := some idempotencyKey
  causedBy := causedBy
  sessionId := sessionId
  runId := runId
  turnId := turnId
  timestampMs := identity.timestampMs
  cursor := none

/-- The part every fact about a queue item repeats. -/
def queueItemPayload (item : QueueItem) (status : QueueItemStatus) : Map :=
  [("queue_item_id", .string item.queueItemId),
    ("event_id", .string item.eventId),
    ("target_agent", .string item.targetAgent),
    ("status", .string status.display)]
  ++ optionalField "session_id" item.sessionId
  ++ optionalField "project_revision" item.projectRevision

/-- The part every terminal fact about an attempt repeats. -/
def attemptPayload (attempt : AttemptRow) (status : AttemptStatus) : Map :=
  [("attempt_id", .string attempt.attemptId),
    ("queue_item_id", .string attempt.queueItemId),
    ("event_id", .string attempt.eventId),
    ("attempt_number", .number (.int attempt.attemptNumber)),
    ("target_agent", .string attempt.targetAgent),
    ("status", .string status.display),
    ("started_at", .string attempt.startedAt),
    ("finished_at", .null),
    ("error", .null),
    ("session_id", optionalText attempt.sessionId),
    ("run_id", optionalText attempt.runId)]
  ++ optionalField "worker_name" attempt.workerName
  ++ optionalField "project_revision" attempt.projectRevision

/-! ### What was found -/

/-- A read model differs from its row in the status at most. -/
theorem QueueItemRow.toQueueItemRow_withClaim (row : QueueItemRow) (claim : Option QueueClaimRow) :
    (row.withClaim claim).toQueueItemRow
      = { row with status := if claim.isSome then .claimed else row.status } := by
  cases claim <;> rfl

/-- A queue item that was found has a row, and shows its claim. -/
theorem loadQueueItem_some {item : QueueItem} (h : loadQueueItem p queueItemId = .ok (some item)) :
    ∃ row, p.queueItems.find? queueItemId = some row ∧
      item = row.withClaim (p.queueClaims.find? queueItemId) := by
  unfold loadQueueItem at h
  cases hrow : p.queueItems.find? queueItemId with
  | none => rw [hrow] at h; cases h
  | some row =>
    simp only [hrow, rehydrateItem, QueueItem.intoModel, map_ok_iff, ok_iff, Option.some.injEq] at h
    obtain ⟨_, ⟨_, -, _, -, _, -, _, -, _, -, rfl⟩, rfl⟩ := h
    exact ⟨row, rfl, by rw [Table.key_of_find? hrow]⟩

theorem mem_of_latestAttempt {row : AttemptRow} (h : latestAttempt rows = some row) :
    row ∈ rows := by
  induction rows with
  | nil => cases h
  | cons first rows ih =>
    unfold latestAttempt at h
    split at h
    · cases h
      exact .head _
    · rename_i latest hlatest
      split at h
      · cases h
        exact .tail _ (ih hlatest)
      · cases h
        exact .head _

theorem latestAttempt_eq_none (h : latestAttempt rows = none) : rows = [] := by
  cases rows with
  | nil => rfl
  | cons first rows =>
    unfold latestAttempt at h
    split at h
    · cases h
    · split at h <;> cases h

theorem rehydrateAttempt_some (h : rehydrateAttempt found = .ok (some attempt)) :
    found = some attempt := by
  cases found with
  | none => cases h
  | some row =>
    simp only [rehydrateAttempt, AttemptRow.intoModel, map_ok_iff, ok_iff, Option.some.injEq] at h
    obtain ⟨_, ⟨_, -, _, -, _, -, _, -, _, -, rfl⟩, rfl⟩ := h
    rfl

theorem rehydrateAttempt_none (h : rehydrateAttempt found = .ok none) : found = none := by
  cases found with
  | none => rfl
  | some row =>
    simp only [rehydrateAttempt, map_ok_iff, reduceCtorEq, and_false, exists_false] at h

/-- The running attempt of a claim is a row that is running and names the claim. -/
theorem loadRunningAttemptForClaim_some {claim : QueueClaim}
    (h : loadRunningAttemptForClaim p claim = .ok (some attempt)) :
    attempt ∈ p.attempts ∧ attempt.queueItemId = claim.queueItemId ∧ attempt.status = .running := by
  have hmem := mem_of_latestAttempt (rehydrateAttempt_some h)
  simp only [List.mem_filter, Bool.and_eq_true, decide_eq_true_eq] at hmem
  exact ⟨hmem.1, hmem.2.1.1.1, hmem.2.2⟩

theorem loadLatestRunningAttempt_some
    (h : loadLatestRunningAttempt p queueItemId = .ok (some attempt)) :
    attempt ∈ p.attempts ∧ attempt.queueItemId = queueItemId ∧ attempt.status = .running := by
  have hmem := mem_of_latestAttempt (rehydrateAttempt_some h)
  simp only [List.mem_filter, Bool.and_eq_true, decide_eq_true_eq] at hmem
  exact ⟨hmem.1, hmem.2⟩

theorem loadLatestRunningAttempt_none (h : loadLatestRunningAttempt p queueItemId = .ok none)
    (hattempt : attempt ∈ p.attempts) (hitem : attempt.queueItemId = queueItemId) :
    attempt.status ≠ .running := by
  have hnil := latestAttempt_eq_none (rehydrateAttempt_none h)
  rw [List.filter_eq_nil_iff] at hnil
  simpa [hitem] using hnil attempt hattempt

end Zeta
