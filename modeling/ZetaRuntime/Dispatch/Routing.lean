import ZetaRuntime.Dispatch.ReadModel

/-!
# Routing an ingress event

Routing decides which agents an event is for and turns its pending row into their work. No match
records the row as unhandled. One match binds the row itself. Several matches close the row and open
one item per agent. Doing it again with fresh identities finds the retained facts under their
idempotency keys and returns them.

Patterns are shell globs. The source matches suffixes with a memo table; the model is the recursion
without the memo, which computes the same answer.
-/

namespace Zeta

open Outcome

variable {c : Char} {a b xs : List Char}

/-! ### Patterns -/

/-- The content of a bracket expression and what follows it. A bracket right after the opening one
is content. -/
def splitClass : List Char → Option (List Char × List Char)
  | ']' :: content => (splitOnce ']' content).map fun p => (']' :: p.1, p.2)
  | content => splitOnce ']' content

/-- Whether a character is in a bracket expression. -/
def classContains (candidate : Char) : List Char → Bool
  | first :: '-' :: last :: rest =>
    (first ≤ candidate && candidate ≤ last) || classContains candidate rest
  | first :: rest => first = candidate || classContains candidate rest
  | [] => false

/-- Match one character against the bracket expression that starts after `[`. -/
def characterClass (pattern : List Char) (candidate : Char) : Option (List Char × Bool) :=
  match pattern with
  | '!' :: content =>
    (splitClass content).map fun p => (p.2, !classContains candidate p.1)
  | content => (splitClass content).map fun p => (p.2, classContains candidate p.1)

theorem length_splitOnce (h : splitOnce c xs = some (a, b)) : b.length < xs.length := by
  induction xs generalizing a with
  | nil => cases h
  | cons x xs ih =>
    unfold splitOnce at h
    split at h
    · cases h; simp
    · obtain ⟨⟨a', b'⟩, hp, he⟩ := Option.map_eq_some_iff.mp h
      cases he
      exact (ih hp).trans (Nat.lt_succ_self _)

theorem length_splitClass (h : splitClass xs = some (a, b)) : b.length < xs.length := by
  unfold splitClass at h
  split at h
  · obtain ⟨⟨a', b'⟩, hp, he⟩ := Option.map_eq_some_iff.mp h
    cases he
    exact (length_splitOnce hp).trans (Nat.lt_succ_self _)
  · exact length_splitOnce h

theorem length_characterClass {rest : List Char} {b : Bool}
    (h : characterClass xs c = some (rest, b)) : rest.length < xs.length := by
  unfold characterClass at h
  split at h
  · obtain ⟨⟨a', b'⟩, hp, he⟩ := Option.map_eq_some_iff.mp h
    cases he
    exact (length_splitClass hp).trans (Nat.lt_succ_self _)
  · obtain ⟨⟨a', b'⟩, hp, he⟩ := Option.map_eq_some_iff.mp h
    cases he
    exact length_splitClass hp

/-- Match a candidate against a shell glob. -/
def globMatches (pattern candidate : List Char) : Bool :=
  match pattern, candidate with
  | [], candidate => candidate = []
  | '*' :: pattern, [] => globMatches pattern []
  | '*' :: pattern, c :: candidate =>
    globMatches pattern (c :: candidate) || globMatches ('*' :: pattern) candidate
  | _ :: _, [] => false
  | '?' :: pattern, _ :: candidate => globMatches pattern candidate
  | '[' :: pattern, c :: candidate =>
    match _hclass : characterClass pattern c with
    | some (rest, true) => globMatches rest candidate
    | some (_, false) => false
    | none => '[' = c && globMatches pattern candidate
  | p :: pattern, c :: candidate => p = c && globMatches pattern candidate
termination_by pattern.length + candidate.length
decreasing_by
  all_goals simp_wf
  · omega
  · have := length_characterClass ‹_›
    omega
  · omega
  · omega

/-- How a pattern is compared with an event type. -/
inductive PatternKind where
  | exact
  | shellGlob
  deriving DecidableEq, Repr

/-- A pattern over event types. -/
structure EventPattern where
  text : String
  kind : PatternKind
  deriving DecidableEq, Repr

/-- Whether a pattern accepts an event. -/
def EventPattern.matches (pattern : EventPattern) (event : Event) : Bool :=
  match pattern.kind with
  | .exact => pattern.text = event.eventType
  | .shellGlob => globMatches pattern.text.toList event.eventType.toList

/-! ### Route plans -/

/-- How an agent's sessions are told apart. -/
inductive SessionRule where
  | shared
  | perEvent
  | template (text : String)
  deriving DecidableEq, Repr

/-- One agent's subscription. -/
structure Route where
  agentId : String
  accepts : List EventPattern
  session : SessionRule
  lockKeys : List String
  projectRevision : Option String
  deriving DecidableEq, Repr

/-- One agent that an event is for. -/
structure RouteDecision where
  agentId : String
  queueItemId : String
  sessionId : String
  lockKeys : List String
  projectRevision : Option String
  deriving DecidableEq, Repr

/-- Whether a route accepts an event. -/
def Route.matches (route : Route) (event : Event) : Bool :=
  route.accepts.any fun pattern => pattern.matches event

section

variable [Platform]

/-- The session of an agent for an event. -/
def SessionRule.resolve (rule : SessionRule) (agentId : String) (event : Event) :
    Except SessionError String :=
  match rule with
  | .shared => .ok (sessionIdForAgent agentId none)
  | .perEvent => .ok (sessionIdForAgent agentId (some event.id))
  | .template text =>
    (Platform.renderEventTemplate text event).map fun suffix =>
      sessionIdForAgent agentId (some suffix)

/-- The decision of one accepting route. -/
def Route.decide (route : Route) (event : Event) : Except SessionError RouteDecision := do
  let sessionId ← route.session.resolve route.agentId event
  return {
    agentId := route.agentId
    queueItemId := queueItemId event.id route.agentId
    sessionId
    lockKeys := route.lockKeys
    projectRevision := route.projectRevision }

/-- The decisions of the accepting routes, in declaration order. -/
def routeDecisions (event : Event) : List Route → Except SessionError (List RouteDecision)
  | [] => .ok []
  | route :: routes =>
    if route.matches event then do
      let decision ← route.decide event
      let rest ← routeDecisions event routes
      return decision :: rest
    else routeDecisions event routes

omit [Platform] in
/-- A single decision takes over the pending row. -/
def bindSingle (event : Event) : List RouteDecision → List RouteDecision
  | [decision] => [{ decision with queueItemId := pendingQueueItemId event.id }]
  | decisions => decisions

/-- Which agents an event is for. -/
def routeEvent (event : Event) (routes : List Route) :
    Except SessionError (List RouteDecision) := do
  let decisions ← routeDecisions event routes
  return bindSingle event decisions

end

/-! ### Committing a plan -/

/-- The part of a queue fact that depends on the decision. -/
structure QueueLifecycleFields where
  queueItemId : String
  targetAgent : String
  status : QueueItemStatus
  sessionId : Option String
  projectRevision : Option String
  lockKeys : List String
  deriving DecidableEq, Repr

/-- The fact that creates or closes a routed item. -/
def queueLifecycleEvent (identity : RuntimeEventIdentity) (input : Event)
    (fields : QueueLifecycleFields) : Event where
  id := identity.id
  eventType := "runtime.queue_item." ++ fields.status.display
  source := "zeta"
  payload := [
    ("queue_item_id", .string fields.queueItemId),
    ("event_id", .string input.id),
    ("target_agent", .string fields.targetAgent),
    ("status", .string fields.status.display)]
    ++ optionalField "session_id" fields.sessionId
    ++ optionalField "project_revision" fields.projectRevision
    ++ (if fields.lockKeys = [] then [] else
      [("lock_keys", .array (fields.lockKeys.map Value.string))])
  idempotencyKey := some (queueItemIdempotencyKey input.id fields.targetAgent fields.status)
  causedBy := some input.id
  sessionId := fields.sessionId.or input.sessionId
  runId := input.runId
  turnId := input.turnId
  timestampMs := identity.timestampMs
  cursor := none

/-- The fact that makes a routed item available. -/
def availableForRoute (input : Event) (identity : RuntimeEventIdentity) (decision : RouteDecision) :
    Event :=
  queueLifecycleEvent identity input {
    queueItemId := decision.queueItemId
    targetAgent := decision.agentId
    status := .available
    sessionId := some decision.sessionId
    projectRevision := decision.projectRevision
    lockKeys := decision.lockKeys }

/-- The fact that ends the pending row without binding it. -/
def closePending (input : Event) (identity : RuntimeEventIdentity) (status : QueueItemStatus) :
    Event :=
  queueLifecycleEvent identity input {
    queueItemId := pendingQueueItemId input.id
    targetAgent := ""
    status
    sessionId := none
    projectRevision := none
    lockKeys := [] }

/-- The facts of a route plan, in journal order. The number of identities has been checked. -/
def lifecycleForRoute (input : Event) :
    List RouteDecision → List RuntimeEventIdentity → List Event
  | [], identity :: _ => [closePending input identity .unhandled]
  | [decision], identity :: _ => [availableForRoute input identity
      { decision with queueItemId := pendingQueueItemId input.id }]
  | decisions, identity :: identities =>
    closePending input identity .completed
      :: List.zipWith (availableForRoute input) identities decisions
  | _, [] => []

/-- The retained event under a candidate's key must have the candidate's intention. -/
def retainedRoutingEvent (journal : List JournalEntry) (candidate : Event) :
    Except DispatchError (Option Event) := do
  let key ← require candidate.idempotencyKey (invalidLifecycle candidate "idempotency_key")
  let entry ← entryByIdempotencyKey journal key
  ensure (∀ retained ∈ entry, sameLifecycleIntention candidate retained.event = true)
    (.ingressAlreadyRouted (candidate.causedBy.getD ""))
  return entry.map (·.event)

/-- The retained event of every candidate that has one. -/
def retainedEvents (journal : List JournalEntry) :
    List Event → Except DispatchError (List (Option Event))
  | [] => .ok []
  | candidate :: candidates => do
    let retained ← retainedRoutingEvent journal candidate
    let rest ← retainedEvents journal candidates
    return retained :: rest

/-- The retained events of a plan, if it is already committed. A plan is committed as a whole. -/
def retainedRoutingEvents (journal : List JournalEntry) (candidates : List Event) :
    Except DispatchError (Option (List Event)) := do
  let retained ← retainedEvents journal candidates
  let events := retained.reduceOption
  if events = [] then
    return none
  else do
    ensure (events.length = candidates.length)
      (.ingressAlreadyRouted ((candidates.head?.bind (·.causedBy)).getD ""))
    return some events

/-- The decisions and durable facts of one routing pass. -/
structure RoutingOutcome where
  decisions : List RouteDecision
  events : List Event
  deriving DecidableEq, Repr

section

variable [Platform]

/-- Commit a plan that is not committed yet: the event's row must still be pending and unbound. -/
def commitRoute (s : Store) (input : Event) (decisions : List RouteDecision)
    (lifecycle : List Event) :
    Option (List Event) → Except DispatchError (RoutingOutcome × Store)
  | some events => .ok (⟨decisions, events⟩, s)
  | none => do
    let pending := s.projections.queueItems.find? (pendingQueueItemId input.id)
    ensure (pending.map (fun row => (row.status, row.targetAgent)) = some (.pending, ""))
      (.ingressAlreadyRouted input.id)
    let (events, s) ← appendBatch sameLogicalEvent s lifecycle
    return (⟨decisions, events⟩, s)

/-- Resolve and persist one ingress event's route plan. -/
def routeIngressEvent (s : Store) (eventId : String) (routes : List Route)
    (identities : List RuntimeEventIdentity) : Except DispatchError (RoutingOutcome × Store) := do
  let found ← entryByEventId s.journal eventId
  let entry ← require found (.ingressEventNotFound eventId)
  let input := entry.event
  let decisions ← (routeEvent input routes).mapError .session
  let expected := if decisions.length > 1 then decisions.length + 1 else 1
  ensure (identities.length = expected) (.runtimeEventIdentityCount expected identities.length)
  validateDistinctRuntimeIdentities identities []
  let lifecycle := lifecycleForRoute input decisions identities
  let retained ← retainedRoutingEvents s.journal lifecycle
  commitRoute s input decisions lifecycle retained

end

end Zeta
