import ZetaRuntime.Dispatch.Journal

/-!
# Claims, leases and locks

A worker owns a queue item while it holds an unexpired claim on it. Claiming writes a claim row and
the item's locks and nothing else: the item's own status stays `available` until an attempt is
started under the claim. Releasing or losing a claim puts a claimed item back to `available`, again
without a journaled fact. The journal therefore never learns that a claim ended, and the status of
a row can differ from what the facts about it say.
-/

namespace Zeta

open Outcome

/-- One worker's receipt for a claimed queue item. -/
structure QueueClaim where
  queueItemId : String
  workerName : String
  token : String
  claimedUntil : Int
  deriving DecidableEq, Repr

/-- The claim row a receipt names. -/
def QueueClaim.names (claim : QueueClaim) (row : QueueClaimRow) : Bool :=
  row.queueItemId = claim.queueItemId && row.workerName = claim.workerName
    && row.claimToken = claim.token

/-- Whether a receipt still owns its unexpired row. -/
def claimIsCurrentIn (p : Projections) (claim : QueueClaim) (nowMs : Int) : Bool :=
  p.queueClaims.rows.any fun row => claim.names row && nowMs < row.claimedUntil

/-- The end of a lease that starts now. -/
def leaseDeadline (nowMs : Int) (leaseMs : ℕ) : Except DispatchError Int := do
  ensure (leaseMs ≠ 0 ∧ (leaseMs : Int) ≤ i64Max) (.invalidCoordinationInput "lease_ms")
  ensure (nowMs + leaseMs ≤ i64Max) (.invalidCoordinationInput "lease_ms")
  return nowMs + leaseMs

/-- Put claimed items back to available, without a fact. -/
def Projections.unclaimItems (p : Projections) (lost : QueueItemRow → Bool) : Projections :=
  { p with
    queueItems := p.queueItems.updateWhere (fun row => row.status = .claimed && lost row)
      (fun row => { row with status := .available }) (fun _ => rfl) }

/-- Release every claim whose exclusive deadline has passed. -/
def reconcileExpired (p : Projections) (nowMs : Int) : Projections :=
  (p.unclaimItems fun row => p.queueClaims.rows.any fun claim =>
    claim.queueItemId = row.queueItemId && claim.claimedUntil ≤ nowMs).deleteClaimsWhere
      fun claim => claim.claimedUntil ≤ nowMs

/-! ### Claiming -/

/-- Work that keeps later work of its session waiting. -/
def QueueItemRow.blocksSession (row : QueueItemRow) : Bool := !row.status.terminal

/-- Whether an item may be claimed now. -/
def claimable (p : Projections) (nowMs : Int) (row : QueueItemRow) : Bool :=
  row.status = .available
    && row.availableAt.getD row.updatedAt ≤ nowMs
    && (p.queueClaims.rows.all fun claim => claim.queueItemId ≠ row.queueItemId)
    && row.cancelRequestedEventId = none
    && (p.queueItems.rows.all fun barrier =>
      !(barrier.inputCursor < row.inputCursor && barrier.targetAgent = ""
        && barrier.status = .pending))
    && (row.sessionId = none || p.queueItems.rows.all fun earlier =>
      !(earlier.sessionId = row.sessionId && earlier.inputCursor < row.inputCursor
        && earlier.blocksSession))

/-- The order in which items are offered. -/
def QueueItemRow.claimsBefore (a b : QueueItemRow) : Prop :=
  a.inputCursor < b.inputCursor ∨ a.inputCursor = b.inputCursor ∧ a.queueItemId ≤ b.queueItemId

instance : DecidableRel QueueItemRow.claimsBefore := fun _ _ => inferInstanceAs (Decidable (_ ∨ _))

/-- Whether stored lock keys are what a reader accepts. -/
def lockKeysValid (row : QueueItemRow) : Bool := row.lockKeys.Nodup && "" ∉ row.lockKeys

/-- Eligible items, oldest first. -/
def claimCandidates (p : Projections) (nowMs : Int) : Except DispatchError (List QueueItemRow) := do
  let rows := (p.queueItems.rows.filter (claimable p nowMs)).insertionSort
    QueueItemRow.claimsBefore
  ensure (rows.all lockKeysValid) (.corruptProjection "queue_items" "lock_keys_json")
  return rows

/-- Whether no live claim holds one of these locks. -/
def locksAreAvailable (p : Projections) (lockKeys : List String) (nowMs : Int) : Bool :=
  lockKeys.all fun key => p.locks.rows.all fun lock =>
    !(lock.lockKey = key && nowMs < lock.expiresAt)

/-- Acquire one lock for a claim. -/
def acquireLock (owner : String) (nowMs claimedUntil : Int) (p : Projections) (lockKey : String) :
    Except DispatchError Projections := do
  ensure (sqlText lockKey ∧ nowMs < claimedUntil) (.database "acquire queue lock")
  let locks ← require
    (p.locks.insert? { lockKey, owner, acquiredAt := nowMs, expiresAt := claimedUntil })
    (.database "acquire queue lock")
  return { p with locks }

/-- Write the claim row of an item. -/
def insertClaim (row : QueueClaimRow) (p : Projections) : Except DispatchError Projections := do
  ensure (sqlText row.queueItemId ∧ sqlText row.workerName ∧ sqlText row.claimToken ∧
    row.claimedAt < row.claimedUntil) (.database "insert queue claim")
  ensure (∀ other ∈ p.queueClaims.rows, other.claimToken ≠ row.claimToken)
    (.database "insert queue claim")
  let queueClaims ← require (p.queueClaims.insert? row) (.database "insert queue claim")
  return { p with queueClaims }

/-- Write the claim of an item with its locks. -/
def takeClaim (p : Projections) (item : QueueItemRow) (workerName token : String)
    (nowMs claimedUntil : Int) : Except DispatchError Projections := do
  let p ← insertClaim
    { queueItemId := item.queueItemId, workerName, claimToken := token, claimedAt := nowMs,
      claimedUntil } p
  foldOk (acquireLock token nowMs claimedUntil) p item.lockKeys

/-- Take the first candidate whose locks are free. -/
def claimFirst (s : Store) (workerName token : String) (nowMs claimedUntil : Int) :
    List QueueItemRow → Except DispatchError (Option QueueClaim × Store)
  | [] => .ok (none, s)
  | item :: items =>
    if locksAreAvailable s.projections item.lockKeys nowMs then do
      let projections ← takeClaim s.projections item workerName token nowMs claimedUntil
      return (some { queueItemId := item.queueItemId, workerName, token, claimedUntil },
        { s with projections })
    else claimFirst s workerName token nowMs claimedUntil items

/-- Claim the oldest eligible queue item and all of its locks. -/
def claimNextQueueItem (s : Store) (workerName token : String) (leaseMs : ℕ) (nowMs : Int) :
    Except DispatchError (Option QueueClaim × Store) := do
  ensure (workerName ≠ "") (.invalidCoordinationInput "worker_name")
  let claimedUntil ← leaseDeadline nowMs leaseMs
  let s := { s with projections := reconcileExpired s.projections nowMs }
  ensure (∀ claim ∈ s.projections.queueClaims.rows, claim.claimToken ≠ token)
    (.invalidCoordinationInput "claim_token")
  let candidates ← claimCandidates s.projections nowMs
  claimFirst s workerName token nowMs claimedUntil candidates

/-! ### Keeping and giving up a claim -/

/-- Extend the claims a receipt names, with their locks. -/
def Projections.extendClaim (p : Projections) (claim : QueueClaim) (nowMs claimedUntil : Int) :
    Projections :=
  { p with
    queueClaims := p.queueClaims.updateWhere
      (fun row => claim.names row && nowMs < row.claimedUntil)
      (fun row => { row with claimedUntil }) (fun _ => rfl)
    locks := p.locks.updateWhere (fun lock => lock.owner = claim.token)
      (fun lock => { lock with expiresAt := claimedUntil }) (fun _ => rfl) }

/-- Renew one current claim and every lock held by its token. -/
def renewClaim (s : Store) (claim : QueueClaim) (leaseMs : ℕ) (nowMs : Int) :
    Except DispatchError (Bool × Store) := do
  let claimedUntil ← leaseDeadline nowMs leaseMs
  if claimIsCurrentIn s.projections claim nowMs then do
    ensure (∀ row ∈ s.projections.queueClaims.rows, claim.names row → row.claimedAt < claimedUntil)
      (.database "renew queue claim")
    ensure (∀ lock ∈ s.projections.locks.rows, lock.owner = claim.token →
      lock.acquiredAt < claimedUntil) (.database "renew queue locks")
    return (true, { s with projections := s.projections.extendClaim claim nowMs claimedUntil })
  else
    return (false, s)

/-- Release one current claim and all locks owned by its token. -/
def releaseClaim (s : Store) (claim : QueueClaim) (nowMs : Int) : Bool × Store :=
  if claimIsCurrentIn s.projections claim nowMs then
    (true, { s with
      projections := (s.projections.deleteClaimsWhere claim.names).unclaimItems
        fun row => row.queueItemId = claim.queueItemId })
  else (false, s)

/-- Release every claim whose exclusive deadline has passed. -/
def reconcileExpiredClaims (s : Store) (nowMs : Int) : ℕ × Store :=
  (s.projections.queueClaims.countWhere fun claim => claim.claimedUntil ≤ nowMs,
    { s with projections := reconcileExpired s.projections nowMs })

/-- Give up the claim an operation was fenced by. -/
def releaseClaimInTransaction (s : Store) (claim : QueueClaim) : Except DispatchError Store := do
  ensure (s.projections.queueClaims.countWhere claim.names = 1)
    (.claimNotCurrent claim.queueItemId)
  return { s with projections := s.projections.deleteClaimsWhere claim.names }

end Zeta
