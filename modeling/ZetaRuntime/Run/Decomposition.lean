import ZetaRuntime.Run.Changes

/-!
# Operations as sequences of changes

One lemma for each operation: if it returned, what it did to the store is a sequence of changes, and
the events it recorded are its own. Proofs follow the definition of the operation and never look
inside a projection.

Publishing a deferred publication writes an event of a type that was stored with it. Creating one
refuses reserved types, so the type is not reserved as long as all stored ones are not
(`Unreserved`), which every change keeps.

## Main definitions

* `Op.Records`, `Op.Publishes` — the events an operation may record

## Main results

* `Op.changes_of`, `Op.changes` — every operation but a rebuild is a sequence of changes
-/

namespace Zeta

open Outcome

variable [Platform]

variable {completion : AttemptCompletion} {control : AttemptControl} {renewed : Bool}
  {outcome : CancellationOutcome} {ctx : CompletionContext} {publication : DeferredPublicationRow}
  {effect : EffectRow} {status : EffectStatus} {event input : Event} {claimedUntil nowMs : Int}
  {events : List Event} {identities : List RuntimeEventIdentity} {op : Op} {retryAt : Option Int}
  {expectedSessionId reason sourceAgentId sourceSessionId : Option String} {p p' : Projections}
  {claim : QueueClaim} {item : QueueItem}
  {attemptIdentity cancelledIdentity first identity queueIdentity requestedIdentity second :
    RuntimeEventIdentity}
  {eventId finishedAt handle queueItemId token workerName : String} {leaseMs : ℕ}

/-! ### Reserved types -/

omit [Platform] in
/-- Deferred publications name no reserved type. -/
def Projections.Unreserved (p : Projections) : Prop :=
  ∀ row ∈ p.deferredPublications, startsWith row.eventType "runtime." = false

omit [Platform] in
theorem unreserved_empty : Projections.empty.Unreserved := by
  simp [Projections.Unreserved, Projections.empty]

theorem readDeferredPublication_unreserved {row : DeferredPublicationRow}
    (h : readDeferredPublication event = .ok row) :
    startsWith row.eventType "runtime." = false := by
  simp only [readDeferredPublication, ok_iff] at h
  obtain ⟨_, -, eventType, -, _, hreserved, _, -, _, -, _, -, _, -, _, -, _, -, _, -, _, -, _, -, _,
    -, _, -, rfl⟩ := h
  simpa using hreserved

/-- Projecting an event keeps reserved types out. -/
theorem indexEvent_unreserved {journal : List JournalEntry}
    (h : indexEvent journal event p = .ok p') (hp : p.Unreserved) : p'.Unreserved := by
  have hframe := indexEvent_frame h
  cases hkind : eventKind event.eventType with
  | deferredPublication =>
    simp only [indexEvent, hkind] at h
    rcases indexDeferredPublication_cases h with ⟨row, hread, h⟩ | ⟨status, h⟩
    · simp only [insertDeferredPublication, ok_iff] at h
      obtain ⟨_, -, _, -, publications, hinsert, rfl⟩ := h
      intro other hother
      rcases (Table.mem_of_insert? hinsert).mp hother with hold | rfl
      · exact hp other hold
      · exact readDeferredPublication_unreserved hread
    · simp only [indexDeferredPublicationTerminal, ok_iff] at h
      obtain ⟨_, -, _, -, _, -, _, -, _, -, rfl⟩ := h
      intro other hother
      rw [Table.mem_updateWhere] at hother
      obtain ⟨row, hrow, rfl⟩ := hother
      split
      · exact hp row hrow
      · exact hp row hrow
  | effect | wait | cancelRequested | ingress =>
    rw [hkind] at hframe
    obtain ⟨_, rfl⟩ := hframe
    exact hp
  | queueItem =>
    rw [hkind] at hframe
    obtain ⟨_, _, _, rfl⟩ := hframe
    exact hp
  | attempt =>
    rw [hkind] at hframe
    obtain ⟨_, _, rfl⟩ := hframe
    exact hp
  | unprojected =>
    rw [hkind] at hframe
    exact hframe ▸ hp

variable {P : Event → Prop} {s s' : Store}

/-- Changes keep reserved types out. -/
theorem Changes.unreserved (h : Changes P s s') (hs : s.projections.Unreserved) :
    s'.projections.Unreserved := by
  refine h.induct (I := fun s => s.projections.Unreserved) ?_ ?_ hs
  · rintro s s' event - hs ⟨projected, -, hindex⟩
    exact indexEvent_unreserved hindex hs
  · intro s s' hs hcoordinated
    unfold Projections.Unreserved
    rw [hcoordinated.deferredPublications]
    exact hs

/-! ### Facts -/

/-- A queue fact that does not claim. -/
theorem internal_of_status (status : QueueItemStatus) (hsource : event.source = "zeta")
    (htype : event.eventType = "runtime.queue_item." ++ status.display)
    (hstatus : status ≠ .claimed ∧ status ≠ .pending) : Internal event := by
  refine ⟨by simp [hsource], boundClaim_of_status ?_, fun _ => ?_, numbersDelivery_of_kind ?_⟩
  · simpa [htype] using hstatus.1
  · simpa [htype] using hstatus.2
  · simp [htype]

/-- A queue fact that does not claim and declares no locks. -/
theorem routine_of_status (status : QueueItemStatus) (hsource : event.source = "zeta")
    (htype : event.eventType = "runtime.queue_item." ++ status.display)
    (hstatus : status ≠ .claimed ∧ status ≠ .pending)
    (hlocks : event.payload.get "lock_keys" = none) : Routine event :=
  ⟨internal_of_status status hsource htype hstatus, fun _ => hlocks⟩

omit [Platform] in
/-- A fact of the runtime that is not about work. -/
theorem aside_of_kind (hsource : event.source = "zeta")
    (hkind : (eventKind event.eventType).ofWork = false ∧ eventKind event.eventType ≠ .effect) :
    Aside event :=
  ⟨by simp [hsource], hkind.1, numbersDelivery_of_kind hkind.2⟩

/-- A fact of the runtime that is not about a queue item. -/
theorem routine_of_kind (hsource : event.source = "zeta")
    (hkind : eventKind event.eventType ≠ .queueItem ∧ eventKind event.eventType ≠ .effect) :
    Routine event :=
  ⟨⟨by simp [hsource], boundClaim_of_kind hkind.1, fun hqueue => absurd hqueue hkind.1,
    numbersDelivery_of_kind hkind.2⟩, fun hqueue => absurd hqueue hkind.1⟩

section

omit [Platform]

theorem text_target_agent_queueItemPayload (item : QueueItem) (status : QueueItemStatus)
    (rest : Map) : Map.text (queueItemPayload item status ++ rest) "target_agent"
      = some item.targetAgent := by
  simp [Map.text, queueItemPayload]

@[simp] theorem get_lock_keys_queueItemPayload (item : QueueItem) (status : QueueItemStatus) :
    (queueItemPayload item status).get "lock_keys" = none := by
  simp [queueItemPayload, Map.get_append]

/-- An event published for an agent. -/
theorem aside_of_agent {agent : String} (hsource : event.source = "agent:" ++ agent)
    (hkind : (eventKind event.eventType).ofWork = false) {position : ℕ}
    (hkey : event.idempotencyKey =
      some ("agent.publish:" ++ queueItemId ++ ":" ++ toString position)) : Aside event := by
  refine ⟨fun huser => ?_, hkind, numbersDelivery_of_key hkey ?_⟩
  rotate_left
  · simp [startsWith, String.toList_append, List.isPrefixOf]
  have := congrArg (String.toList · |>.head?) (hsource.symm.trans huser)
  simp at this

end

/-! ### Coordination -/

section

omit [Platform]

/-- Taking a claim writes a claim, and locks. -/
theorem takeClaim_frame {item : QueueItemRow}
    (h : takeClaim p item workerName token nowMs claimedUntil = .ok p') :
    ∃ queueClaims locks, p.queueClaims.insert? ⟨item.queueItemId, workerName, token, nowMs,
      claimedUntil⟩ = some queueClaims ∧ p' = { p with queueClaims, locks } := by
  simp only [takeClaim, insertClaim, ok_iff] at h
  obtain ⟨_, ⟨_, -, _, -, queueClaims, hinsert, rfl⟩, h⟩ := h
  obtain ⟨locks, rfl⟩ : ∃ locks, p' = { p with queueClaims, locks } := by
    refine foldOk_invariant
      (P := fun q : Projections => ∃ locks, q = { p with queueClaims, locks }) ?_ ⟨p.locks, rfl⟩ h
    rintro _ _ key - ⟨locks, rfl⟩ hlock
    simp only [acquireLock, ok_iff] at hlock
    obtain ⟨_, -, locks, -, rfl⟩ := hlock
    exact ⟨_, rfl⟩
  exact ⟨queueClaims, locks, hinsert, rfl⟩

/-- A claim is taken on a candidate whose locks are free, unless there is none. -/
theorem claimFirst_ok {items : List QueueItemRow} {claim : Option QueueClaim}
    (h : claimFirst s workerName token nowMs claimedUntil items = .ok (claim, s')) :
    (claim = none ∧ s' = s ∧
        ∀ item ∈ items, locksAreAvailable s.projections item.lockKeys nowMs = false) ∨
      ∃ item ∈ items, locksAreAvailable s.projections item.lockKeys nowMs = true ∧ ∃ projections,
        takeClaim s.projections item workerName token nowMs claimedUntil = .ok projections ∧
        claim = some ⟨item.queueItemId, workerName, token, claimedUntil⟩ ∧
        s' = { s with projections } := by
  induction items with
  | nil =>
    cases h
    exact .inl ⟨rfl, rfl, List.forall_mem_nil _⟩
  | cons item items ih =>
    unfold claimFirst at h
    split at h
    · next hfree =>
      simp only [ok_iff, Prod.mk.injEq] at h
      obtain ⟨p, htake, rfl, rfl⟩ := h
      exact .inr ⟨item, .head _, hfree, p, htake, rfl, rfl⟩
    · next hheld =>
      rcases ih h with ⟨hnone, heq, hrest⟩ | ⟨other, hother, htaken⟩
      · exact .inl ⟨hnone, heq, List.forall_mem_cons.mpr ⟨Bool.eq_false_iff.mpr hheld, hrest⟩⟩
      · exact .inr ⟨other, .tail _ hother, htaken⟩

theorem coordinated_claimFirst {items : List QueueItemRow} {claim : Option QueueClaim}
    (hitems : ∀ item ∈ items, item ∈ s.projections.queueItems)
    (h : claimFirst s workerName token nowMs claimedUntil items = .ok (claim, s')) :
    Coordinated s s' := by
  rcases claimFirst_ok h with ⟨-, rfl, -⟩ | ⟨item, hitem, -, p, htake, -, rfl⟩
  · exact .refl s'
  · have hlocked (hs : Locked s.projections) : Locked p := hs.takeClaim (hitems item hitem) htake
    obtain ⟨_, _, -, rfl⟩ := takeClaim_frame htake
    exact coordinated_of_eq rfl rfl rfl rfl rfl rfl hlocked

theorem mem_of_claimCandidates {rows : List QueueItemRow} (h : claimCandidates p nowMs = .ok rows)
    {row : QueueItemRow} (hrow : row ∈ rows) :
    row ∈ p.queueItems ∧ claimable p nowMs row = true := by
  simp only [claimCandidates, ok_iff] at h
  obtain ⟨_, -, rfl⟩ := h
  rwa [List.mem_insertionSort, List.mem_filter] at hrow

theorem coordinated_claimNextQueueItem {claim : Option QueueClaim}
    (h : claimNextQueueItem s workerName token leaseMs nowMs = .ok (claim, s')) :
    Coordinated s s' := by
  simp only [claimNextQueueItem, bind_ok_iff] at h
  obtain ⟨_, -, _, -, _, -, _, hcandidates, h⟩ := h
  exact (coordinated_reconcileExpired s nowMs).trans
    (coordinated_claimFirst (fun _ hitem => (mem_of_claimCandidates hcandidates hitem).1) h)

theorem coordinated_renewClaim (h : renewClaim s claim leaseMs nowMs = .ok (renewed, s')) :
    Coordinated s s' := by
  simp only [renewClaim, bind_ok_iff] at h
  obtain ⟨_, -, h⟩ := h
  split at h
  · next hcurrent =>
    simp only [ok_iff, Prod.mk.injEq] at h
    obtain ⟨_, -, _, -, -, rfl⟩ := h
    exact coordinated_of_eq rfl rfl rfl rfl rfl rfl fun hs => hs.extendClaim hcurrent _
  · cases h
    exact .refl s

theorem coordinated_releaseClaim (s : Store) (claim : QueueClaim) (nowMs : Int) :
    Coordinated s (releaseClaim s claim nowMs).2 := by
  unfold releaseClaim
  split
  · exact (coordinated_deleteClaimsWhere s _).trans (coordinated_unclaimItems _ _)
  · exact .refl s

theorem coordinated_releaseClaimInTransaction (h : releaseClaimInTransaction s claim = .ok s') :
    Coordinated s s' := by
  simp only [releaseClaimInTransaction, ok_iff] at h
  obtain ⟨_, -, rfl⟩ := h
  exact coordinated_deleteClaimsWhere s _

end

/-! ### Attempts -/

theorem changes_startClaimedAttempt {startedAt : String} {claimedRunId : Option String}
    {started : StartedAttempt}
    (h : startClaimedAttempt s claim nowMs queueIdentity attemptIdentity startedAt claimedRunId =
      .ok (started, s')) : Changes Routine s s' := by
  simp only [startClaimedAttempt, ok_iff] at h
  obtain ⟨_, -, _, -, _, -, found, -, item, -, _, hagent, input, -, running, -, h⟩ := h
  cases running with
  | some attempt =>
    simp only [startOrRepeat, repeatStart, ok_iff, Prod.mk.injEq] at h
    obtain ⟨_, -, _, -, _, -, _, -, -, rfl⟩ := h
    exact .refl
  | none =>
    simp only [startOrRepeat, startNext, ok_iff, pair_iff] at h
    obtain ⟨_, -, events, t, hbatch, -, rfl⟩ := h
    refine (changes_of_appendBatch ?_ hbatch).trans
      (Changes.coordinate (coordinated_fenceAttempt t _ _ _))
    simp only [startEvents, List.forall_mem_cons, List.not_mem_nil, false_imp_iff, implies_true,
      and_true]
    refine ⟨⟨⟨by
      simp [claimedQueueEvent, runtimeFact], ?_, fun _ => ?_, numbersDelivery_of_kind ?_⟩,
      fun _ => ?_⟩, routine_of_kind rfl (by simp only [startedAttemptEvent, runtimeFact]; decide)⟩
    · exact boundClaim_of_targetAgent hagent (text_target_agent_queueItemPayload item .claimed _)
    · simp only [claimedQueueEvent, runtimeFact]
      decide
    · simp only [claimedQueueEvent, runtimeFact]
      decide
    · simp [claimedQueueEvent, runtimeFact, Map.get_append]

theorem routine_liveCancelledEvents {attempt : AttemptRow} {rawResult : Option Map} :
    ∀ event ∈ liveCancelledEvents first second input item attempt finishedAt rawResult,
      Routine event := by
  simp only [liveCancelledEvents, List.forall_mem_cons, List.not_mem_nil, false_imp_iff,
    implies_true, and_true]
  exact ⟨routine_of_kind rfl (by simp only [runtimeFact]; decide),
    routine_of_status .cancelled rfl rfl (by decide) (by simp [runtimeFact])⟩

theorem changes_failClaimedAttempt {failure : AttemptFailure}
    (h : failClaimedAttempt s claim nowMs first second failure = .ok (events, s')) :
    Changes Routine s s' := by
  simp only [failClaimedAttempt, ok_iff, pair_iff] at h
  obtain ⟨_, -, _, -, _, -, _, -, _, -, attempt, -, _, -, item, -, input, -, facts, hfacts, _, t,
    hbatch, u, hrelease, -, rfl⟩ := h
  refine (changes_of_appendBatch ?_ hbatch).trans
    (Changes.coordinate (coordinated_releaseClaimInTransaction hrelease))
  unfold failureEvents at hfacts
  split at hfacts
  · cases hfacts
    exact routine_liveCancelledEvents
  · simp only [ok_iff] at hfacts
    obtain ⟨disposition, hdisposition, rfl⟩ := hfacts
    simp only [List.forall_mem_cons, List.not_mem_nil, false_imp_iff, implies_true, and_true]
    refine ⟨routine_of_kind rfl (by simp only [failedAttemptEvent, runtimeFact]; decide), ?_⟩
    unfold failedQueueDispositionEvent at hdisposition
    split at hdisposition
    · simp only [ok_iff] at hdisposition
      obtain ⟨_, -, rfl⟩ := hdisposition
      exact routine_of_status .available rfl rfl (by decide)
        (by simp [retryEvent, runtimeFact, Map.get_append])
    · cases hdisposition
      exact routine_of_status .deadLettered rfl rfl (by decide)
        (by simp [deadLetteredEvent, runtimeFact, Map.get_append])

/-! ### Resources -/

/-- What cancelling a resource can record. -/
def CancellationEvent (identity : RuntimeEventIdentity)
    (reason sourceAgentId sourceSessionId : Option String) (event : Event) : Prop :=
  (∃ wait, event = waitCancelledEvent identity wait reason sourceAgentId sourceSessionId) ∨
    ∃ publication, event =
      deferredPublicationCancelledEvent identity publication reason sourceAgentId sourceSessionId

omit [Platform] in
theorem CancellationEvent.aside
    (h : CancellationEvent identity reason sourceAgentId sourceSessionId event) : Aside event := by
  rcases h with ⟨wait, rfl⟩ | ⟨publication, rfl⟩
  · exact aside_of_kind rfl (by simp only [waitCancelledEvent, runtimeFact]; decide)
  · exact aside_of_kind rfl (by simp only [deferredPublicationCancelledEvent, runtimeFact]; decide)

theorem recordings_cancelResourceInTransaction {kind : ResourceKind}
    {outcome : ResourceCancellationOutcome}
    (h : cancelResourceInTransaction s handle reason sourceAgentId sourceSessionId identity kind =
      .ok (outcome, s')) :
    Recordings (CancellationEvent identity reason sourceAgentId sourceSessionId) s s' := by
  have hrecord {handle : String} {kind : ResourceKind} {event : Event} {table : String}
      (hevent : CancellationEvent identity reason sourceAgentId sourceSessionId event)
      (h : recordResourceCancellation s handle kind event table = .ok (outcome, s')) :
      Recordings (CancellationEvent identity reason sourceAgentId sourceSessionId) s s' := by
    simp only [recordResourceCancellation, ok_iff, pair_iff] at h
    obtain ⟨_, t, happend, _, -, -, rfl⟩ := h
    exact recordings_of_appendCandidate hevent happend
  cases kind with
  | wait =>
    simp only [cancelResourceInTransaction, bind_ok_iff] at h
    obtain ⟨_, -, wait, -, _, -, h⟩ := h
    unfold cancelWait at h
    split at h
    · exact hrecord (.inl ⟨wait, rfl⟩) h
    all_goals
      cases h
      exact .refl
  | deferredPublication =>
    simp only [cancelResourceInTransaction, bind_ok_iff] at h
    obtain ⟨_, -, publication, -, _, -, h⟩ := h
    unfold cancelDeferredPublication at h
    split at h
    · exact hrecord (.inr ⟨publication, rfl⟩) h
    all_goals
      cases h
    all_goals exact .refl

theorem recordings_cancelResource
    {outcome : ResourceCancellationOutcome}
    (h : cancelResource s handle reason sourceAgentId sourceSessionId identity =
      .ok (outcome, s')) :
    Recordings Aside s s' := by
  simp only [cancelResource, bind_ok_iff] at h
  obtain ⟨_, -, kind, -, h⟩ := h
  exact (recordings_cancelResourceInTransaction h).mono fun _ => CancellationEvent.aside

theorem changes_resumeWait {wait : WaitRow} {ended : Event} (hended : Routine ended)
    (h : resumeWait s wait ended identity = .ok (events, s')) : Changes Routine s s' := by
  simp only [resumeWait, ok_iff, pair_iff] at h
  obtain ⟨outcome, t, hended', _, u, hnext, -, rfl⟩ := h
  exact (changes_of_appendCandidate hended hended').trans (changes_of_appendCandidate
    (routine_of_status .available rfl rfl (by decide)
      (by simp [waitContinuationEvent, runtimeFact])) hnext)

theorem changes_resumeWaits {waits : List WaitRow}
    (h : resumeWaits input s waits identities = .ok (events, s')) : Changes Routine s s' := by
  induction waits generalizing s identities events with
  | nil => simp only [resumeWaits, Except.ok.injEq, Prod.mk.injEq] at h; exact h.2 ▸ .refl
  | cons wait waits ih =>
    match identities with
    | [] | [_] => simp only [resumeWaits, Except.ok.injEq, Prod.mk.injEq] at h; exact h.2 ▸ .refl
    | first :: second :: identities =>
      simp only [resumeWaits, ok_iff, pair_iff] at h
      obtain ⟨_, t, hfirst, _, u, hrest, -, rfl⟩ := h
      exact (changes_resumeWait (routine_of_kind rfl (by
        simp only [waitMatchedEvent, runtimeFact]; decide)) hfirst).trans (ih hrest)

theorem changes_resumeWaitsForEvent
    (h : resumeWaitsForEvent s eventId identities = .ok (events, s')) : Changes Routine s s' := by
  simp only [resumeWaitsForEvent, bind_ok_iff] at h
  obtain ⟨_, -, _, -, _, -, _, -, _, -, h⟩ := h
  exact changes_resumeWaits h

theorem changes_timeoutNextDueWait {events : Option (List Event)}
    (h : timeoutNextDueWait s nowMs first second = .ok (events, s')) : Changes Routine s s' := by
  simp only [timeoutNextDueWait, bind_ok_iff] at h
  obtain ⟨due, -, h⟩ := h
  cases due with
  | none => cases h; exact .refl
  | some wait =>
    simp only [timeoutWait, waitTimedOutEvent, ok_iff, pair_iff] at h
    obtain ⟨_, -, _, ⟨_, -, deadline, -, rfl⟩, _, t, hresume, -, rfl⟩ := h
    exact changes_resumeWait (routine_of_kind rfl (by simp only [runtimeFact]; decide)) hresume

/-- A due publication is published: its event is appended, the waits it matches are resumed, and the
fact that it was published is appended. -/
structure Publishes (s : Store) (nowMs : Int) (publication : DeferredPublicationRow)
    (published : Event) (t u s' : Store) : Prop where
  found : publication ∈ s.projections.deferredPublications
  pending : publication.status = .pending
  due : publication.publishAtMs ≤ nowMs
  appended : ∃ first outcome, published = outcome.event ∧
    appendRuntimeEvent s (deferredPublicationEvent first publication) = .ok (outcome, t)
  resumed : ∃ probe waits identities events,
    matchingWaits s (deferredPublicationEvent probe publication) = .ok waits ∧
      identities.length = waits.length * 2 ∧
        resumeWaits published t waits identities = .ok (events, u)
  ended : ∃ last outcome, appendRuntimeEvent u
    (deferredPublicationPublishedEvent last publication published) = .ok (outcome, s')

/-- Publishing publishes what is due, if anything. -/
theorem publishNextDueDeferredPublication_ok {events : Option (List Event)}
    (h : publishNextDueDeferredPublication s nowMs identities = .ok (events, s')) :
    s' = s ∨ ∃ publication published t u, Publishes s nowMs publication published t u s' := by
  simp only [publishNextDueDeferredPublication, bind_ok_iff] at h
  obtain ⟨due, hdue, h⟩ := h
  cases due with
  | none =>
    simp only [publishIfDue, ok_iff, Prod.mk.injEq] at h
    obtain ⟨_, -, -, rfl⟩ := h
    exact .inl rfl
  | some publication =>
    rcases identities with _ | ⟨first, _ | ⟨second, identities⟩⟩
    · simp [publishIfDue, publishDeferred] at h
    · simp [publishIfDue, publishDeferred] at h
    · simp only [publishIfDue, publishDeferred, ok_iff, pair_iff] at h
      obtain ⟨waits, hwaits, _, hcount, _, -, published, t, hpublish, _, u, hresume, terminal, v,
        hterminal, -, rfl⟩ := h
      obtain ⟨hmem, hpending, hle, -⟩ := (nextDueDeferredPublication_spec hdue).1 publication rfl
      refine .inr ⟨publication, published.event, t, u, hmem, hpending, hle,
        ⟨first, published, rfl, hpublish⟩, ⟨first, waits, _, _, hwaits, ?_, hresume⟩,
        ⟨_, terminal, hterminal⟩⟩
      rw [List.length_dropLast, List.length_cons]
      omega

theorem changes_publishNextDueDeferredPublication (hs : s.projections.Unreserved)
    {events : Option (List Event)}
    (h : publishNextDueDeferredPublication s nowMs identities = .ok (events, s')) :
    Changes Routine s s' := by
  rcases publishNextDueDeferredPublication_ok h with rfl | ⟨publication, _, t, u, hpublishes⟩
  · exact .refl
  have hreserved := hs publication hpublishes.found
  obtain ⟨first, outcome, rfl, hpublish⟩ := hpublishes.appended
  obtain ⟨_, _, _, _, -, -, hresume⟩ := hpublishes.resumed
  obtain ⟨_, _, hterminal⟩ := hpublishes.ended
  exact ((changes_of_appendCandidate (aside_of_agent rfl (ofWork_of_unreserved hreserved)
    rfl).routine hpublish).trans (changes_resumeWaits hresume)).trans (changes_of_appendCandidate
      (routine_of_kind rfl (by simp only [deferredPublicationPublishedEvent, runtimeFact]; decide))
      hterminal)

theorem changes_runDueStep (hs : s.projections.Unreserved) {exhausted : DispatchError}
    {supply rest : List RuntimeEventIdentity} {step : DueStep} {events : Option (List Event)}
    (h : runDueStep s nowMs exhausted supply step = .ok ((events, s'), rest)) :
    Changes Routine s s' := by
  cases step with
  | timeout =>
    match supply with
    | [] | [_] => simp [runDueStep] at h
    | first :: second :: supply =>
      simp only [runDueStep, ok_iff, Prod.mk.injEq] at h
      obtain ⟨_, h, rfl, -⟩ := h
      exact changes_timeoutNextDueWait h
  | publish n =>
    simp only [runDueStep, ok_iff, pair_iff] at h
    obtain ⟨_, _, -, _, _, h, ⟨rfl, rfl⟩, -⟩ := h
    exact changes_publishNextDueDeferredPublication hs h

theorem changes_advanceDue (nowMs : Int) (exhausted : DispatchError) (limit : ℕ) (s : Store)
    (hs : s.projections.Unreserved) (supply : List RuntimeEventIdentity) :
    Changes Routine s (advanceDue nowMs exhausted limit s supply).2 := by
  induction limit generalizing s supply with
  | zero => exact .refl
  | succ limit ih =>
    unfold advanceDue
    split
    · exact .refl
    · exact .refl
    · split
      · exact .refl
      · rename_i hstep
        have hchanges := changes_runDueStep hs hstep
        exact hchanges.trans (ih _ (hchanges.unreserved hs) _)

/-! ### Completion -/

/-- What applying a control can record. -/
inductive ControlEvent (ctx : CompletionContext) (identity : RuntimeEventIdentity) :
    AttemptControl → Event → Prop where
  | create {control : AttemptControl} {event : Event}
    (h : completionControlEvent identity ctx control = .ok event) : ControlEvent ctx identity
      control event
  | cancel {handle sourceAgentId sourceSessionId : String} {reason : Option String} {position : ℕ}
    {event : Event}
    (h : CancellationEvent identity reason (some sourceAgentId) (some sourceSessionId) event) :
    ControlEvent ctx identity (.cancel handle reason sourceAgentId sourceSessionId position) event

theorem recordings_applyControl (h : applyControl s ctx identity control = .ok (events, s')) :
    Recordings (ControlEvent ctx identity control) s s' := by
  have hcreate (h : applyCreation s ctx control identity = .ok (events, s')) :
      Recordings (ControlEvent ctx identity control) s s' := by
    simp only [applyCreation, ok_iff, pair_iff] at h
    obtain ⟨event, hevent, _, t, happend, -, rfl⟩ := h
    exact recordings_of_appendCandidate (.create hevent) happend
  cases control with
  | cancel handle reason sourceAgentId sourceSessionId position =>
    simp only [applyControl, ok_iff, pair_iff] at h
    obtain ⟨_, -, kind, -, _, t, hcancel, -, rfl⟩ := h
    exact (recordings_cancelResourceInTransaction hcancel).mono fun _ => .cancel
  | publish | wait => exact hcreate h

/-- What a control can record, if it publishes no lifecycle fact, is not about work. -/
theorem ControlEvent.aside (hcontrol : control.Authentic)
    (h : ControlEvent ctx identity control event) : Aside event := by
  cases h with
  | cancel h => exact h.aside
  | create h =>
    cases control with
    | cancel => cases h
    | publish handle eventType payload at_ position =>
      simp only [completionControlEvent, ok_iff] at h
      obtain ⟨immediate, -, rfl⟩ := h
      split
      · exact aside_of_agent rfl (ofWork_of_not_isLifecycleType hcontrol) rfl
      · exact aside_of_kind rfl
          (by simp only [deferredPublicationCreatedEvent, runtimeFact]; decide)
    | wait handle eventType fields deadline position =>
      cases h
      exact aside_of_kind rfl (by simp only [waitCreatedEvent, runtimeFact]; decide)

/-- Controls record what each of them can record. -/
theorem recordings_applyControls {controls : List (AttemptControl × RuntimeEventIdentity)}
    (hcontrols : ∀ c ∈ controls, ∀ event, ControlEvent ctx c.2 c.1 event → P event)
    (h : applyControls ctx s controls = .ok (events, s')) : Recordings P s s' := by
  induction controls generalizing s events with
  | nil => cases h; exact .refl
  | cons control controls ih =>
    obtain ⟨control, identity⟩ := control
    simp only [applyControls, ok_iff, pair_iff] at h
    obtain ⟨_, t, hfirst, _, u, hrest, -, rfl⟩ := h
    exact ((recordings_applyControl hfirst).mono (hcontrols _ (.head _))).trans
      (ih (fun c hc => hcontrols c (.tail _ hc)) hrest)

/-- The controls of a completion are those its caller gave. -/
theorem mem_of_completionControls {completedAt : Int} {controls : List AttemptControl}
    (h : completionControls completion = .ok (completedAt, controls))
    (hcontrol : control ∈ controls) : control ∈ completion.controls := by
  simp only [completionControls, ok_iff, Prod.mk.injEq] at h
  obtain ⟨_, -, _, -, _, -, -, rfl⟩ := h
  simpa using hcontrol

/-- A completion records facts of its own and what its controls record. -/
theorem changes_completeClaimedAttempt (hroutine : ∀ event, Routine event → P event)
    (hcontrol : ∀ control ∈ completion.controls, ∀ ctx identity event,
      ControlEvent ctx identity control event → P event)
    (h : completeClaimedAttempt s claim nowMs identities completion = .ok (events, s')) :
    Changes P s s' := by
  obtain ⟨completedAt, controls, _, _, _, _, _, _, _, t, hcontrols, -, -, -, -, -, -, -, hrecord,
    hrelease⟩ := completeClaimedAttempt_ok h
  refine Relation.ReflTransGen.trans ?_
    (Changes.coordinate (coordinated_releaseClaimInTransaction hrelease))
  unfold recordCompletion at hrecord
  split at hrecord
  · exact changes_of_appendBatch
      (fun event hevent => hroutine event (routine_liveCancelledEvents event hevent)) hrecord
  · simp only [recordSuccess, ok_iff, pair_iff] at hrecord
    obtain ⟨completed, v, hcompleted, _, x, happly, _, y, hended, -, rfl⟩ := hrecord
    refine ((changes_of_appendCandidate (hroutine _ (routine_of_kind rfl (by
      simp only [completedAttemptEvent, runtimeFact]; decide))) hcompleted).trans
      ((recordings_applyControls (P := P) ?_ happly).changes fun _ => id)).trans
        (changes_of_appendCandidate (hroutine _ (routine_of_status .completed rfl rfl (by decide)
          (by simp [completedQueueEvent, runtimeFact, Map.get_append]))) hended)
    exact fun c hc => hcontrol c.1 (mem_of_completionControls hcontrols (List.of_mem_zip hc).1) _ _

/-! ### Cancellation -/

theorem changes_cancelFoundItem
    (h : cancelFoundItem s reason requestedIdentity cancelledIdentity item = .ok (outcome, s')) :
    Changes Routine s s' := by
  have hopen (h : cancelOpenItem s item reason requestedIdentity cancelledIdentity
      = .ok (outcome, s')) : Changes Routine s s' := by
    simp only [cancelOpenItem, bind_ok_iff, Prod.exists] at h
    obtain ⟨input, -, requested, kept, t, hrequest, hend⟩ := h
    have hfirst : Changes Routine s t := by
      unfold requestCancellation at hrequest
      split at hrequest
      · simp only [ok_iff, Prod.mk.injEq] at hrequest
        obtain ⟨_, -, -, -, rfl⟩ := hrequest
        exact .refl
      · simp only [ok_iff, pair_iff] at hrequest
        obtain ⟨_, t', happend, -, -, rfl⟩ := hrequest
        exact changes_of_appendCandidate (routine_of_kind rfl (by
          simp only [cancellationRequestedEvent, runtimeFact]; decide)) happend
    refine hfirst.trans ?_
    unfold endRequested at hend
    split at hend
    · cases hend; exact .refl
    · simp only [ok_iff, pair_iff] at hend
      obtain ⟨_, u, happend, -, rfl⟩ := hend
      exact changes_of_appendCandidate
        (routine_of_status .cancelled rfl rfl (by decide)
          (by simp [cancellationTerminalEvent, runtimeFact, Map.get_append])) happend
  cases hstatus : item.status with
  | pending | available | claimed | retryScheduled =>
    exact hopen (by simpa only [cancelFoundItem, hstatus] using h)
  | cancelled =>
    simp only [cancelFoundItem, hstatus, ok_iff, Prod.mk.injEq] at h
    obtain ⟨_, -, -, rfl⟩ := h
    exact .refl
  | completed | failed | deadLettered | unhandled =>
    simp only [cancelFoundItem, hstatus] at h
    cases h
    exact .refl

theorem changes_cancelQueueItem
    (h : cancelQueueItem s queueItemId expectedSessionId reason requestedIdentity
      cancelledIdentity = .ok (outcome, s')) : Changes Routine s s' := by
  simp only [cancelQueueItem, bind_ok_iff] at h
  obtain ⟨_, -, _, -, item, -, h⟩ := h
  cases item with
  | none => cases h; exact .refl
  | some item =>
    simp only [cancelLoadedItem, bind_ok_iff] at h
    obtain ⟨_, -, h⟩ := h
    exact changes_cancelFoundItem h

theorem changes_cancelRun {runId : String}
    (h : cancelRun s runId expectedSessionId reason requestedIdentity cancelledIdentity =
      .ok (outcome, s')) : Changes Routine s s' := by
  unfold cancelRun at h
  split at h
  · cases h; exact .refl
  · simp only [bind_ok_iff] at h
    obtain ⟨_, -, h⟩ := h
    exact changes_cancelQueueItem h

theorem changes_finalizeNextRequestedCancellation {outcome : Option CancellationOutcome}
    (h : finalizeNextRequestedCancellation s attemptIdentity queueIdentity finishedAt =
      .ok (outcome, s')) : Changes Routine s s' := by
  simp only [finalizeNextRequestedCancellation, bind_ok_iff] at h
  obtain ⟨_, -, _, -, h⟩ := h
  cases hnext : nextFinalizable s.projections with
  | none => rw [hnext] at h; cases h; exact .refl
  | some row =>
    simp only [hnext, finalizeIfFound, finalizeItem, ok_iff, pair_iff] at h
    obtain ⟨_, -, _, -, item, -, _, -, requested, -, attempt, -, _, t, hend, input, -, _, u,
      hcancel, -, rfl⟩ := h
    have hfirst : Changes Routine s t := by
      cases attempt with
      | none => cases hend; exact .refl
      | some attempt =>
        simp only [endRecoveredAttempt, ok_iff, pair_iff] at hend
        obtain ⟨_, t', happend, -, rfl⟩ := hend
        exact changes_of_appendCandidate (routine_of_kind rfl (by
          simp only [recoveredAttemptCancelledEvent, runtimeFact]; decide)) happend
    exact (hfirst.trans (changes_of_appendCandidate
      (routine_of_status .cancelled rfl rfl (by decide)
        (by simp [cancellationTerminalEvent, runtimeFact, Map.get_append])) hcancel)).trans
      (Changes.coordinate (coordinated_deleteClaimsWhere u _))

/-! ### Routing and messages -/

theorem internal_queueLifecycleEvent {fields : QueueLifecycleFields}
    (h : fields.status ≠ .claimed ∧ fields.status ≠ .pending) :
    Internal (queueLifecycleEvent identity input fields) :=
  internal_of_status fields.status rfl rfl h

theorem internal_lifecycleForRoute {decisions : List RouteDecision} :
    ∀ event ∈ lifecycleForRoute input decisions identities, Internal event := by
  intro event hevent
  have havailable {identity : RuntimeEventIdentity} {decision : RouteDecision} :
      Internal (availableForRoute input identity decision) :=
    internal_queueLifecycleEvent (by simp)
  unfold lifecycleForRoute at hevent
  split at hevent
  · rw [List.mem_singleton] at hevent
    exact hevent ▸ internal_queueLifecycleEvent (by simp)
  · rw [List.mem_singleton] at hevent
    exact hevent ▸ havailable
  · rcases List.mem_cons.mp hevent with rfl | hevent
    · exact internal_queueLifecycleEvent (by simp)
    · rw [← List.map_uncurry_zip_eq_zipWith] at hevent
      obtain ⟨pair, -, rfl⟩ := List.mem_map.mp hevent
      exact havailable
  · cases hevent

theorem changes_routeIngressEvent {routes : List Route} {outcome : RoutingOutcome}
    (h : routeIngressEvent s eventId routes identities = .ok (outcome, s')) :
    Changes Internal s s' := by
  simp only [routeIngressEvent, bind_ok_iff] at h
  obtain ⟨_, -, entry, -, decisions, -, _, -, _, -, retained, -, h⟩ := h
  cases retained with
  | some events => cases h; exact .refl
  | none =>
    simp only [commitRoute, ok_iff, pair_iff] at h
    obtain ⟨_, -, _, t, hbatch, -, rfl⟩ := h
    exact changes_of_appendBatch internal_lifecycleForRoute hbatch

/-- A new message that was appended was recorded. -/
theorem appendSessionMessage_ok {candidate requested : Event}
    (h : appendSessionMessage s candidate = .ok (requested, s')) :
    requested = { candidate with cursor := some (nextCursor s.journal) } ∧
      Recorded s candidate s' := by
  simp only [appendSessionMessage, ok_iff, pair_iff, appendLifecycleCandidate_ok_iff] at h
  obtain ⟨outcome, journal, happend, _, hinserted, p, hindex, rfl, rfl⟩ := h
  rcases appendInTransaction_ok happend with ⟨hnot, -⟩ | ⟨-, hins⟩
  · rw [hinserted] at hnot
    cases hnot
  · exact ⟨hins.projected_eq, outcome.event, hins, hindex⟩

theorem changes_submitSessionMessage {request : SessionMessageRequest}
    {waitIdentity availableIdentity : RuntimeEventIdentity} {submitted : SubmittedSessionMessage}
    (hroutine : ∀ event, Routine event → P event)
    (hrequested : P (sessionMessageRequestedEvent requestedIdentity request))
    (h : submitSessionMessage s request waitIdentity requestedIdentity availableIdentity =
      .ok (submitted, s')) : Changes P s s' := by
  simp only [submitSessionMessage, ok_iff, pair_iff] at h
  obtain ⟨_, -, _, -, _, -, retained, -, requested, cancelled, t, hrecord, available, u, happend, -,
    rfl⟩ := h
  refine Relation.ReflTransGen.trans ?_ (changes_of_appendCandidate
    (hroutine _ ⟨internal_queueLifecycleEvent (by simp),
      fun _ => by simp [queueLifecycleEvent, Map.get_append]⟩) happend)
  cases retained with
  | some retained => cases hrecord; exact .refl
  | none =>
    simp only [recordSessionMessage, ok_iff, pair_iff] at hrecord
    obtain ⟨wait, -, _, v, hcancel, _, x, hmessage, -, rfl⟩ := hrecord
    refine Relation.ReflTransGen.trans ?_
      (.single (.record hrequested (appendSessionMessage_ok hmessage).2))
    cases wait with
    | none => cases hcancel; exact .refl
    | some wait =>
      simp only [cancelSessionWait, ok_iff, pair_iff] at hcancel
      obtain ⟨_, y, hcancel, -, rfl⟩ := hcancel
      exact (recordings_cancelResourceInTransaction hcancel).changes
        fun _ h => hroutine _ (CancellationEvent.aside h).routine

/-! ### Effects -/

section

omit [Platform]

theorem aside_effectEvent {deliveryAttempt : ℕ} {result : Option Map} :
    Aside (effectEvent effect status identity deliveryAttempt result retryAt) := by
  refine ⟨by simp [effectEvent, runtimeFact], ?_, fun _ fact hread => ?_⟩
  · cases status <;> (simp only [effectEvent, runtimeFact]; decide)
  · simp only [readEffectFact, ok_iff] at hread
    obtain ⟨_, -, _, -, _, -, _, -, _, -, _, -, _, -, _, -, _, -, _, -, number, hnumber, _, -, _, -,
      _, -, _, -, rfl⟩ := hread
    rintro rfl
    simp only [optionalPayloadU32, bind_ok_iff] at hnumber
    obtain ⟨value, hvalue, hnone⟩ := hnumber
    cases value with
    | none =>
      simp [optionalPayloadI64, effectEvent, runtimeFact, decodeOptionalI64] at hvalue
    | some value => simp [positiveU32] at hnone

theorem coordinated_claimNextEgressDelivery {claim : Option (EgressDeliveryClaim × EffectRow)}
    (h : claimNextEgressDelivery s workerName token leaseMs nowMs = .ok (claim, s')) :
    Coordinated s s' := by
  simp only [claimNextEgressDelivery, bind_ok_iff] at h
  obtain ⟨_, -, _, -, effect, -, h⟩ := h
  cases effect with
  | none => cases h; exact coordinated_effectClaims s _
  | some effect =>
    simp only [claimEffect, insertEffectClaim, ok_iff, Prod.mk.injEq] at h
    obtain ⟨_, ⟨_, -, _, -, _, -, rfl⟩, -, rfl⟩ := h
    exact coordinated_effectClaims s _

theorem coordinated_renewEgressDeliveryClaim {claim : EgressDeliveryClaim}
    (h : renewEgressDeliveryClaim s claim leaseMs nowMs = .ok (renewed, s')) :
    Coordinated s s' := by
  simp only [renewEgressDeliveryClaim, ok_iff, Prod.mk.injEq] at h
  obtain ⟨_, -, _, -, -, rfl⟩ := h
  exact coordinated_effectClaims s _

end

theorem changes_startClaimedEgressDelivery {claim : EgressDeliveryClaim}
    (h : startClaimedEgressDelivery s claim nowMs identity = .ok (effect, s')) :
    Changes Routine s s' := by
  simp only [startClaimedEgressDelivery, bind_ok_iff] at h
  obtain ⟨effect, -, h⟩ := h
  split at h
  · cases h; exact .refl
  · simp only [startDelivery, ok_iff, pair_iff] at h
    obtain ⟨_, -, _, t, happend, _, -, _, -, -, rfl⟩ := h
    exact changes_of_appendCandidate aside_effectEvent.routine happend

theorem changes_finishClaimedEgressDelivery {claim : EgressDeliveryClaim} {result : Map}
    (h : finishClaimedEgressDelivery s claim nowMs identity status result retryAt = .ok s') :
    Changes Routine s s' := by
  simp only [finishClaimedEgressDelivery, ok_iff, Prod.exists] at h
  obtain ⟨effect, -, _, -, _, -, _, t, happend, rfl⟩ := h
  exact (changes_of_appendCandidate aside_effectEvent.routine happend).trans
    (Changes.coordinate (coordinated_effectClaims t _))

/-! ### All operations -/

/-- The events an operation may record: its own, and the one its caller hands in. -/
def Op.Records : Op → Event → Prop
  | .appendTrusted event, e => e = event
  | .ingest event, e => e = event ∧ startsWith e.eventType "runtime." = false
  | .route .., e => Internal e
  | .submitMessage request _ requestedIdentity _, e =>
    Routine e ∨ e = sessionMessageRequestedEvent requestedIdentity request
  | _, e => Routine e

theorem changes_appendTrustedEvent {outcome : AppendOutcome} (hP : P event)
    (h : appendTrustedEvent s event = .ok (outcome, s')) : Changes P s s' := by
  rcases appendTrustedEvent_ok h with ⟨-, rfl, -⟩ | ⟨-, hrecorded⟩
  · exact .refl
  · exact .single (.record hP hrecorded)

/-- What a transaction did is a sequence of changes if what it does when it returns is one. -/
theorem changes_commit {α : Type} {r : Except DispatchError (α × Store)}
    (h : ∀ a s', r = .ok (a, s') → Changes P s s') : Changes P s (commit s r) := by
  rcases commit_cases s r with heq | ⟨a, hok⟩
  · rw [heq]
  · exact h a _ hok

/-- The events that the controls of a completion record, whatever they publish. -/
def Op.Publishes : Op → Event → Prop
  | .complete _ _ _ completion, e =>
    ∃ control ∈ completion.controls, ∃ ctx identity, ControlEvent ctx identity control e
  | _, _ => False

/-- Every operation but a rebuild is a sequence of changes. -/
theorem Op.changes_of (hs : s.projections.Unreserved) (hrebuild : op ≠ .rebuild)
    (hrecords : ∀ event, op.Records event → P event)
    (hpublishes : ∀ event, op.Publishes event → P event) : Changes P s (apply s op) := by
  refine Changes.mono (P := fun event => op.Records event ∨ op.Publishes event)
    (fun event hevent => hevent.elim (hrecords event) (hpublishes event)) ?_
  cases op with
  | appendTrusted event => exact changes_commit fun _ _ h => changes_appendTrustedEvent (.inl rfl) h
  | ingest event =>
    refine changes_commit fun _ _ h => ?_
    unfold ingestEvent at h
    split at h
    · cases h
    · rename_i hreserved
      exact changes_appendTrustedEvent (.inl ⟨rfl, by simpa using hreserved⟩) h
  | route => exact changes_commit fun _ _ h => (changes_routeIngressEvent h).mono fun _ => .inl
  | claim =>
    exact changes_commit fun _ _ h => Changes.coordinate (coordinated_claimNextQueueItem h)
  | renew => exact changes_commit fun _ _ h => Changes.coordinate (coordinated_renewClaim h)
  | release => exact Changes.coordinate (coordinated_releaseClaim s _ _)
  | reconcile => exact Changes.coordinate (coordinated_reconcileExpired s _)
  | start => exact changes_commit fun _ _ h => (changes_startClaimedAttempt h).mono fun _ => .inl
  | fail => exact changes_commit fun _ _ h => (changes_failClaimedAttempt h).mono fun _ => .inl
  | complete =>
    refine changes_commit fun _ _ => changes_completeClaimedAttempt (fun _ => .inl) ?_
    exact fun control hcontrol ctx identity event hevent =>
      .inr ⟨control, hcontrol, ctx, identity, hevent⟩
  | cancelRun => exact changes_commit fun _ _ h => (changes_cancelRun h).mono fun _ => .inl
  | cancelQueueItem => exact changes_commit fun _ _ h => (changes_cancelQueueItem h).mono fun _ =>
    .inl
  | finalizeCancellation =>
    exact changes_commit fun _ _ h => (changes_finalizeNextRequestedCancellation h).mono fun _ =>
      .inl
  | resumeWaits => exact changes_commit fun _ _ h => (changes_resumeWaitsForEvent h).mono fun _ =>
    .inl
  | timeoutWait => exact changes_commit fun _ _ h => (changes_timeoutNextDueWait h).mono fun _ =>
    .inl
  | publishDeferred =>
    exact changes_commit fun _ _ h => (changes_publishNextDueDeferredPublication hs h).mono fun _ =>
      .inl
  | advanceDue => exact (changes_advanceDue _ _ _ s hs _).mono fun _ => .inl
  | cancelResource =>
    exact changes_commit fun _ _ h => (recordings_cancelResource h).changes fun _ h =>
      .inl h.routine
  | submitMessage =>
    exact changes_commit fun _ _ =>
      changes_submitSessionMessage (fun _ h => .inl (.inl h)) (.inl (.inr rfl))
  | claimEgress =>
    exact changes_commit fun _ _ h => Changes.coordinate (coordinated_claimNextEgressDelivery h)
  | renewEgress =>
    exact changes_commit fun _ _ h => Changes.coordinate (coordinated_renewEgressDeliveryClaim h)
  | reconcileEgress => exact Changes.coordinate (coordinated_effectClaims s _)
  | startEgress =>
    exact changes_commit fun _ _ h => (changes_startClaimedEgressDelivery h).mono fun _ => .inl
  | completeEgress | failEgress | markEgressAmbiguous =>
    refine changes_commit fun _ s' h => ?_
    obtain ⟨t, hfinish, ht⟩ := map_ok_iff.mp h
    cases ht
    exact (changes_finishClaimedEgressDelivery hfinish).mono fun _ => .inl
  | rebuild => exact absurd rfl hrebuild

theorem Op.changes_any (hs : s.projections.Unreserved) (hrebuild : op ≠ .rebuild) :
    Changes (fun _ => True) s (apply s op) :=
  Op.changes_of hs hrebuild (fun _ _ => trivial) fun _ _ => trivial

/-- If no lifecycle fact is authored by a caller, the changes are those of the runtime. -/
theorem Op.changes (hs : s.projections.Unreserved) (hop : op.Authentic) (hrebuild : op ≠ .rebuild) :
    Changes op.Records s (apply s op) := by
  refine Op.changes_of hs hrebuild (fun _ => id) fun event hevent => ?_
  cases op with
  | complete =>
    obtain ⟨control, hcontrol, ctx, identity, hevent⟩ := hevent
    exact (hevent.aside (hop control hcontrol)).routine
  | _ => cases hevent

end Zeta
