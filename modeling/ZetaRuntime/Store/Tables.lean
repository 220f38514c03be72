import ZetaRuntime.Identity
import ZetaRuntime.Library.Table

/-!
# The store: journal, projection tables, failures

The store is one database. Its journal is only appended to. Its projection tables are derived:
five of them (queue items, attempts, waits, deferred publications, effects) from journaled facts,
three (claims, locks, effect claims) from coordination that is never journaled. Every operation runs
in one transaction, so it either returns a new store or fails and leaves the old one; the model
passes the store explicitly and a failure carries none.

## What is kept of a column

Status columns are enumerations, since every writer formats one and every reader parses one. Key
columns with a `UNIQUE` or a `FOREIGN KEY` clause are ordinary fields, and the clause is a check of
the write that could break it. A column that holds JSON text holds the tree of that text.
`length(x) > 0` counts the characters before the first NUL, which is what `sqlText` says.
-/

namespace Zeta

/-- A structured Dispatch failure. Of a storage failure the operation is kept, not the database's
own message. -/
inductive DispatchError where
  | append (error : AppendError)
  | verification (error : VerificationError)
  | reservedRuntimeEvent (eventType : String)
  | ingressEventNotFound (eventId : String)
  | runtimeEventIdentityCount (expected actual : ℕ)
  | duplicateRuntimeEventIdentity (eventId : String)
  | runtimeEventIdentityCollision (eventId : String)
  | ingressAlreadyRouted (eventId : String)
  | invalidLifecycleEvent (eventId : String) (field : String)
  | transition (error : TransitionError)
  | session (error : SessionError)
  | sessionNotFound (sessionId : String)
  | sessionOwnerConflict (sessionId : String) (agentIds : List String)
  | corruptProjection (table field : String)
  | invalidCoordinationInput (field : String)
  | claimNotCurrent (queueItemId : String)
  | cancellationSessionMismatch (expected : String) (actual : Option String)
  | invalidCancellationHandle (handle : String)
  | cancellationResourceNotFound (handle : String)
  | cancellationAuthorityMismatch (handle : String)
  | invalidCompletion (field : String)
  | corruptJournal (cursor : Option ℕ) (field : String)
  | database (operation : String)
  deriving DecidableEq, Repr

/-- Whether a text passes a `length(x) > 0` check. -/
def sqlText (s : String) : Bool :=
  match s.toList with
  | [] => false
  | c :: _ => c ≠ '\x00'

/-! ### Rows -/

/-- The life of one event wait. -/
inductive WaitStatus where
  | active
  | matched
  | timedOut
  | cancelled
  deriving DecidableEq, Repr

/-- The life of one future publication. -/
inductive DeferredPublicationStatus where
  | pending
  | claimed
  | published
  | cancelled
  deriving DecidableEq, Repr

/-- The retry guarantee declared for an external effect. -/
inductive EffectDeliverySemantics where
  | idempotentWithKey
  | connectorDeduplicated
  | atLeastOnce
  | unsafeToRetry
  deriving DecidableEq, Repr

/-- The journaled life of one external effect. -/
inductive EffectStatus where
  | planned
  | started
  | completed
  | failed
  | ambiguous
  deriving DecidableEq, Repr

/-- A row of `queue_items`. -/
structure QueueItemRow where
  queueItemId : String
  eventId : String
  targetAgent : String
  projectRevision : Option String
  sessionId : Option String
  lockKeys : List String
  inputCursor : ℕ
  status : QueueItemStatus
  availableAt : Option Int
  cancelRequestedEventId : Option String
  cancelRequestedAt : Option Int
  cancelReason : Option String
  attemptCount : ℕ
  lastError : Option String
  updatedAt : Int
  deriving DecidableEq, Repr

/-- A row of `queue_claims`. -/
structure QueueClaimRow where
  queueItemId : String
  workerName : String
  claimToken : String
  claimedAt : Int
  claimedUntil : Int
  deriving DecidableEq, Repr

/-- A row of `attempts`. -/
structure AttemptRow where
  attemptId : String
  queueItemId : String
  eventId : String
  attemptNumber : ℕ
  targetAgent : String
  workerName : Option String
  claimToken : Option String
  status : AttemptStatus
  startedAt : String
  heartbeatAt : Option Int
  finishedAt : Option String
  error : Option String
  sessionId : Option String
  runId : Option String
  projectRevision : Option String
  deriving DecidableEq, Repr

/-- A row of `locks`. -/
structure LockRow where
  lockKey : String
  owner : String
  acquiredAt : Int
  expiresAt : Int
  deriving DecidableEq, Repr

/-- A row of `waits`. -/
structure WaitRow where
  handle : String
  agentId : String
  sessionId : String
  eventType : String
  fields : Map
  deadlineMs : Option Int
  sourceQueueItemId : String
  projectRevision : Option String
  createdEventId : String
  status : WaitStatus
  matchedEventId : Option String
  terminalEventId : Option String
  updatedAt : Int
  deriving DecidableEq, Repr

/-- A row of `deferred_publications`. -/
structure DeferredPublicationRow where
  handle : String
  eventType : String
  payload : Map
  publishAtMs : Int
  sourceAgentId : String
  sourceSessionId : Option String
  sourceRunId : Option String
  sourceQueueItemId : String
  position : ℕ
  createdEventId : String
  status : DeferredPublicationStatus
  publishedEventId : Option String
  terminalEventId : Option String
  updatedAt : Int
  deriving DecidableEq, Repr

/-- A row of `effects`. -/
structure EffectRow where
  effectKey : String
  operation : String
  semantics : EffectDeliverySemantics
  scope : String
  queueItemId : Option String
  params : Map
  status : EffectStatus
  result : Option Map
  causedBy : String
  plannedEventId : String
  terminalEventId : Option String
  updatedAt : Int
  deliveryAttempts : ℕ
  availableAt : Option Int
  deriving DecidableEq, Repr

/-- A row of `effect_claims`. -/
structure EffectClaimRow where
  effectKey : String
  workerName : String
  claimToken : String
  claimedAt : Int
  claimedUntil : Int
  deriving DecidableEq, Repr

/-! ### The database -/

/-- The projection tables. -/
structure Projections where
  queueItems : Table QueueItemRow.queueItemId
  queueClaims : Table QueueClaimRow.queueItemId
  attempts : Table AttemptRow.attemptId
  locks : Table LockRow.lockKey
  waits : Table WaitRow.handle
  deferredPublications : Table DeferredPublicationRow.handle
  effects : Table EffectRow.effectKey
  effectClaims : Table EffectClaimRow.effectKey

/-- The projection tables as they are created. -/
def Projections.empty : Projections :=
  ⟨.empty, .empty, .empty, .empty, .empty, .empty, .empty, .empty⟩

/-- One Dispatch database: the journal in cursor order, as it is read back, and its projections. -/
structure Store where
  journal : List JournalEntry
  projections : Projections

/-- A newly created database. -/
def Store.empty : Store := ⟨[], .empty⟩

end Zeta
