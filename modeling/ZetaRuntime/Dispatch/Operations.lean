import ZetaRuntime.Dispatch.Sessions
import ZetaRuntime.Dispatch.Effects

/-!
# Operations and runs

`Op` lists the operations of a Dispatch database that can write to it, with their arguments: what a
caller chooses, clock readings and event identities included. An operation that fails writes
nothing, since each is one transaction; `advanceDue` is the exception, being a sequence of them.

A run applies operations one after the other to a new database. Nothing relates the arguments of one
operation to the results of another, so a run covers workers that crash, present stale or invented
claims, or read clocks that go backwards.

## Reserved events

Types that start with `runtime.` are for the runtime: `ingestEvent` refuses them, and so do the
projections of waits and deferred publications for the types these name. Two operations accept them.
`appendTrustedEvent` is for a host that records effects. And a completion publishes an event of any
type, at once, on behalf of an agent; if the type is that of a lifecycle fact, the event is
projected as one. `Op.Authentic` says that an operation does not use these two ways to write
lifecycle facts.
-/

namespace Zeta

open Outcome

variable {α : Type}

/-- An operation with its arguments. -/
inductive Op where
  | appendTrusted (event : Event)
  | ingest (event : Event)
  | route (eventId : String) (routes : List Route) (identities : List RuntimeEventIdentity)
  | claim (workerName token : String) (leaseMs : ℕ) (nowMs : Int)
  | renew (claim : QueueClaim) (leaseMs : ℕ) (nowMs : Int)
  | release (claim : QueueClaim) (nowMs : Int)
  | reconcile (nowMs : Int)
  | start (claim : QueueClaim) (nowMs : Int) (queueIdentity attemptIdentity : RuntimeEventIdentity)
    (startedAt : String) (claimedRunId : Option String)
  | fail (claim : QueueClaim) (nowMs : Int) (first second : RuntimeEventIdentity)
    (failure : AttemptFailure)
  | complete (claim : QueueClaim) (nowMs : Int) (identities : List RuntimeEventIdentity)
    (completion : AttemptCompletion)
  | cancelRun (runId : String) (expectedSessionId reason : Option String)
    (requestedIdentity cancelledIdentity : RuntimeEventIdentity)
  | cancelQueueItem (queueItemId : String) (expectedSessionId reason : Option String)
    (requestedIdentity cancelledIdentity : RuntimeEventIdentity)
  | finalizeCancellation (attemptIdentity queueIdentity : RuntimeEventIdentity)
    (finishedAt : String)
  | resumeWaits (eventId : String) (identities : List RuntimeEventIdentity)
  | timeoutWait (nowMs : Int) (first second : RuntimeEventIdentity)
  | publishDeferred (nowMs : Int) (identities : List RuntimeEventIdentity)
  | advanceDue (nowMs : Int) (limit : ℕ) (supply : List RuntimeEventIdentity)
    (exhausted : DispatchError)
  | cancelResource (handle : String) (reason sourceAgentId sourceSessionId : Option String)
    (identity : RuntimeEventIdentity)
  | submitMessage (request : SessionMessageRequest)
    (waitIdentity requestedIdentity availableIdentity : RuntimeEventIdentity)
  | claimEgress (workerName token : String) (leaseMs : ℕ) (nowMs : Int)
  | renewEgress (claim : EgressDeliveryClaim) (leaseMs : ℕ) (nowMs : Int)
  | reconcileEgress (nowMs : Int)
  | startEgress (claim : EgressDeliveryClaim) (nowMs : Int) (identity : RuntimeEventIdentity)
  | completeEgress (claim : EgressDeliveryClaim) (nowMs : Int) (identity : RuntimeEventIdentity)
    (result : Map)
  | failEgress (claim : EgressDeliveryClaim) (nowMs : Int) (identity : RuntimeEventIdentity)
    (result : Map) (retryAt : Option Int)
  | markEgressAmbiguous (claim : EgressDeliveryClaim) (nowMs : Int)
    (identity : RuntimeEventIdentity)
    (result : Map)
  | rebuild

/-- The store a transaction leaves behind: a failed one is rolled back. -/
def commit {α : Type} (s : Store) : Except DispatchError (α × Store) → Store
  | .ok (_, s') => s'
  | .error _ => s

@[simp] theorem commit_ok (s : Store) (r : α × Store) : commit s (.ok r) = r.2 := rfl

@[simp] theorem commit_error (s : Store) (e : DispatchError) :
    commit s (.error e : Except DispatchError (α × Store)) = s := rfl

/-- A transaction that leaves behind another store returned it. -/
theorem commit_cases (s : Store) (r : Except DispatchError (α × Store)) :
    commit s r = s ∨ ∃ a, r = .ok (a, commit s r) := by
  cases r with
  | error => exact .inl rfl
  | ok r => exact .inr ⟨r.1, rfl⟩

/-- A transaction that changes nothing when it returns changes nothing. -/
theorem commit_eq_self {s : Store} {r : Except DispatchError (α × Store)}
    (h : ∀ a s', r = .ok (a, s') → s' = s) : commit s r = s := by
  rcases commit_cases s r with heq | ⟨a, hok⟩
  · exact heq
  · exact h a _ hok

section

variable [Platform]

/-- Carry out one operation. -/
def apply (s : Store) : Op → Store
  | .appendTrusted event => commit s (appendTrustedEvent s event)
  | .ingest event => commit s (ingestEvent s event)
  | .route eventId routes identities => commit s (routeIngressEvent s eventId routes identities)
  | .claim workerName token leaseMs nowMs =>
    commit s (claimNextQueueItem s workerName token leaseMs nowMs)
  | .renew claim leaseMs nowMs => commit s (renewClaim s claim leaseMs nowMs)
  | .release claim nowMs => (releaseClaim s claim nowMs).2
  | .reconcile nowMs => (reconcileExpiredClaims s nowMs).2
  | .start claim nowMs queueIdentity attemptIdentity startedAt claimedRunId =>
    commit s
      (startClaimedAttempt s claim nowMs queueIdentity attemptIdentity startedAt claimedRunId)
  | .fail claim nowMs first second failure =>
    commit s (failClaimedAttempt s claim nowMs first second failure)
  | .complete claim nowMs identities completion =>
    commit s (completeClaimedAttempt s claim nowMs identities completion)
  | .cancelRun runId expectedSessionId reason requestedIdentity cancelledIdentity =>
    commit s (cancelRun s runId expectedSessionId reason requestedIdentity cancelledIdentity)
  | .cancelQueueItem queueItemId expectedSessionId reason requestedIdentity cancelledIdentity =>
    commit s (cancelQueueItem s queueItemId expectedSessionId reason requestedIdentity
      cancelledIdentity)
  | .finalizeCancellation attemptIdentity queueIdentity finishedAt =>
    commit s (finalizeNextRequestedCancellation s attemptIdentity queueIdentity finishedAt)
  | .resumeWaits eventId identities => commit s (resumeWaitsForEvent s eventId identities)
  | .timeoutWait nowMs first second => commit s (timeoutNextDueWait s nowMs first second)
  | .publishDeferred nowMs identities =>
    commit s (publishNextDueDeferredPublication s nowMs identities)
  | .advanceDue nowMs limit supply exhausted => (advanceDue nowMs exhausted limit s supply).2
  | .cancelResource handle reason sourceAgentId sourceSessionId identity =>
    commit s (cancelResource s handle reason sourceAgentId sourceSessionId identity)
  | .submitMessage request waitIdentity requestedIdentity availableIdentity =>
    commit s (submitSessionMessage s request waitIdentity requestedIdentity availableIdentity)
  | .claimEgress workerName token leaseMs nowMs =>
    commit s (claimNextEgressDelivery s workerName token leaseMs nowMs)
  | .renewEgress claim leaseMs nowMs => commit s (renewEgressDeliveryClaim s claim leaseMs nowMs)
  | .reconcileEgress nowMs => (reconcileExpiredEgressDeliveryClaims s nowMs).2
  | .startEgress claim nowMs identity =>
    commit s (startClaimedEgressDelivery s claim nowMs identity)
  | .completeEgress claim nowMs identity result =>
    commit s ((completeClaimedEgressDelivery s claim nowMs identity result).map ((), ·))
  | .failEgress claim nowMs identity result retryAt =>
    commit s ((failClaimedEgressDelivery s claim nowMs identity result retryAt).map ((), ·))
  | .markEgressAmbiguous claim nowMs identity result =>
    commit s ((markClaimedEgressDeliveryAmbiguous s claim nowMs identity result).map ((), ·))
  | .rebuild => commit s (rebuildProjections s)

/-- The store after a run. -/
def applyAll (s : Store) (ops : List Op) : Store := ops.foldl apply s

@[simp] theorem applyAll_nil (s : Store) : applyAll s [] = s := rfl

@[simp] theorem applyAll_cons (s : Store) (op : Op) (ops : List Op) :
    applyAll s (op :: ops) = applyAll (apply s op) ops := rfl

theorem applyAll_append (s : Store) (ops ops' : List Op) :
    applyAll s (ops ++ ops') = applyAll (applyAll s ops) ops' :=
  List.foldl_append

end

/-- Whether an event type belongs to the lifecycle facts of work and its resources. -/
def isLifecycleType (eventType : String) : Bool :=
  match eventKind eventType with
  | .wait | .deferredPublication | .cancelRequested | .queueItem | .attempt => true
  | .effect | .ingress | .unprojected => false

theorem ofWork_of_not_isLifecycleType {eventType : String} (h : isLifecycleType eventType = false) :
    (eventKind eventType).ofWork = false := by
  unfold isLifecycleType at h
  cases hkind : eventKind eventType <;> simp_all [EventKind.ofWork]

/-- A control that publishes no lifecycle fact. -/
def AttemptControl.Authentic : AttemptControl → Prop
  | .publish _ eventType _ _ _ => isLifecycleType eventType = false
  | .wait .. => True
  | .cancel .. => True

instance : DecidablePred AttemptControl.Authentic
  | .publish _ eventType _ _ _ => inferInstanceAs (Decidable (isLifecycleType eventType = false))
  | .wait .. => isTrue trivial
  | .cancel .. => isTrue trivial

/-- An operation whose caller authors no lifecycle fact. -/
def Op.Authentic : Op → Prop
  | .appendTrusted event => isLifecycleType event.eventType = false
  | .complete _ _ _ completion => ∀ control ∈ completion.controls, control.Authentic
  | _ => True

/-! ### A world to run in

Where a run is written out, it runs on this platform: the address of a payload is a text that spells
it out, an entry has the address of its event's id, and of civil time the first minute is known. -/

namespace Sample

mutual

/-- A text that spells out a value. -/
def digest : Value → String
  | .null => "null"
  | .bool b => if b then "true" else "false"
  | .number (.int n) => toString n
  | .number (.float token) => token
  | .string s => "'" ++ s ++ "'"
  | .array values => "[" ++ digestList values ++ "]"
  | .object fields => "<" ++ digestFields fields ++ ">"

/-- A text that spells out the elements of an array. -/
def digestList : List Value → String
  | [] => ""
  | value :: values => digest value ++ "," ++ digestList values

/-- A text that spells out the fields of an object. -/
def digestFields : List (String × Value) → String
  | [] => ""
  | (key, value) :: fields => key ++ ":" ++ digest value ++ "," ++ digestFields fields

end

/-- The address of bytes: what they say. -/
def address : Bytes → Hash
  | .json value => ⟨digest value⟩
  | .text s => ⟨s⟩

/-- The address of a journal entry: the id of its event. -/
def chainAddress : Bytes → Hash
  | .json (.array (_ :: .string id :: _)) => ⟨id⟩
  | bytes => address bytes

/-- A platform on which everything can be computed. -/
@[reducible] def platform : Platform where
  parseF64 _ := none
  displayF64 _ := ""
  hashBytes := address
  derive _ := chainAddress
  parseRfc3339 text :=
    if text = "1970-01-01T00:00:00Z" then some 0
    else if text = "1970-01-01T00:00:01Z" then some 1000000000
    else if text = "1970-01-01T00:00:02Z" then some 2000000000
    else none
  civilTime nanos :=
    if 0 ≤ nanos ∧ nanos < 60000000000 then
      some ⟨1970, 1, 1, 0, 0, nanos.toNat / 1000000000, nanos.toNat % 1000000000⟩
    else none
  renderEventTemplate text _ := .ok text

theorem platform_lawful : @LawfulFloatText platform.toFloatText :=
  @LawfulFloatText.mk platform.toFloatText (fun _ _ h => nomatch h) fun _ => rfl

/-- An identity for a fact, at the epoch. -/
def identity (id : String) (h : decide (id ≠ "") = true := by exact Eq.refl true) :
    RuntimeEventIdentity :=
  ⟨id, 0, of_decide_eq_true h⟩

/-- An event from a client. -/
def event (id eventType : String) (payload : Map) : Event :=
  ⟨id, eventType, "client", payload, none, none, none, none, none, 0, none⟩

/-- An agent that takes the events of one type, in one session. -/
def route (agentId eventType : String) : Route :=
  ⟨agentId, [⟨eventType, .exact⟩], .shared, [], none⟩

/-- A receipt of the worker. -/
def claim (queueItemId token : String) : QueueClaim := ⟨queueItemId, "worker", token, 1000⟩

/-- A run on this platform, from a new database. -/
def run (ops : List Op) : Store := @applyAll platform .empty ops

end Sample

end Zeta
