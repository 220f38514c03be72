import ZetaRuntime.Refinement.Routing

/-!
# Messages and waits refine the abstract machine

A message to a session and the end of a wait open an item for an agent directly, without a route.
Two facts are recorded in a row: the event the item is about, and that the item is available. If the
event is new, both together are one step: the item has the newest cursor, and whatever row the event
opened on its own is gone again.

A message can repeat an event that is there already. If the item of that event was never offered, it
is opened now, under an old cursor, which a run has to allow.

## Main results

* `steps_submitSessionMessage` — messages
* `steps_of_resumes`, `resumes_timeoutNextDueWait` — waits
* `steps_publishNextDueDeferredPublication` — publications, with the waits they end
-/

namespace Zeta

open Outcome

variable {s s' t u : Store} {G : Work.Guard} [Platform]

variable {outcome : AppendOutcome} {cause ended event : Event} {nowMs : Int} {events : List Event}
  {identities : List RuntimeEventIdentity} {waits : List WaitRow} {status : QueueItemStatus}
  {identity : RuntimeEventIdentity} {request : SessionMessageRequest} {handle q : String}
  {wait : WaitRow} {new : Work.Item}

/-! ### A new event -/

/-- The item that is opened under the cursor of a new event. -/
def Work.Item.opened (new : Work.Item) (cursor : ℕ) : Work.Item :=
  { new with cursor, status := .available, cancelRequested := false, attempts := 0 }

/-- An event that is not about work leaves the items alone but for its own row. -/
theorem Recorded.items_of_ne (h : Recorded s cause t)
    (hkind : (eventKind cause.eventType).ofWork = false) (hne : q ≠ pendingQueueItemId cause.id) :
    t.work.items q = s.work.items q := by
  by_cases hingress : eventKind cause.eventType = .ingress
  · rcases h.work_eq_of_ingress hingress with ht | ⟨-, ht⟩
    · rw [ht]
    · rw [ht]
      exact Function.update_of_ne hne ..
  · rw [h.work_eq_of_quiet hkind hingress]

/-- What a new event and the fact about its item leave of the other rows. -/
theorem cleared_of_recorded (hinv : s.work.Inv) (hcause : Recorded s cause t)
    (hkind : (eventKind cause.eventType).ofWork = false) (hrecorded : Recorded t event u)
    (hmoves : event.Moves q new status) (hevent : new.event = cause.id)
    (hne : q ≠ pendingQueueItemId cause.id) {v : Work} (hv : t.work.Cleared q cause.id v)
    (hitems : ∀ x, x ≠ q → u.work.items x = v.items x) :
    s.work.Cleared q cause.id { v with cursors := s.work.cursors } := by
  have hquiet : t.work = { s.work with cursors := t.work.cursors } →
      s.work.Cleared q cause.id { v with cursors := s.work.cursors } := by
    intro ht
    rcases hv with rfl | ⟨-, it, hit, hagent, rfl⟩
    · rw [ht]
      exact .inl rfl
    · rw [ht] at hit ⊢
      exact .inr ⟨hne, it, hit, hagent, rfl⟩
  by_cases hingress : eventKind cause.eventType = .ingress
  · rcases hcause.work_eq_of_ingress hingress with ht | ⟨hfree, ht⟩
    · exact hquiet ht
    · rcases hv with rfl | ⟨-, it, hit, hagent, rfl⟩
      · -- The row the event opened is still there, but the item's fact removes it.
        have hrow := (hitems _ hne.symm).trans (congrArg (fun w : Work => w.items _) ht)
        dsimp only at hrow
        rw [Function.update_self] at hrow
        rw [← hevent] at hrow
        exact absurd rfl (hrecorded.clears hmoves (hevent ▸ hne) hrow)
      · have hunowned : s.work.claims (pendingQueueItemId cause.id) = none := by
          by_contra howned
          obtain ⟨_, hsome, -⟩ := hinv.owned _ howned
          rw [hfree] at hsome
          cases hsome
        refine .inl ?_
        rw [ht]
        simp only [Function.update_idem]
        rw [← hfree, Function.update_eq_self, ← hunowned, Function.update_eq_self]
  · exact hquiet (hcause.work_eq_of_quiet hkind hingress)

/-- The fact about the item of a new event is recorded: nothing was logged about the event. -/
theorem recorded_of_new (hinv : s.work.Inv) (hs : Ordered s.journal) (hcause : Recorded s cause t)
    (hkind : (eventKind cause.eventType).ofWork = false) (hmoves : event.Moves q new status)
    (hevent : new.event = cause.id) (h : appendRuntimeEvent t event = .ok (outcome, u)) :
    Recorded t event u := by
  refine recorded_of_unlogged (fun _ _ => fact_eq_of_sameLifecycleIntention) h hmoves.fact_eq
    fun hlogged => ?_
  rw [(hcause.arrived hs hkind).log] at hlogged
  obtain ⟨c, hc⟩ := hinv.logKnown _ hlogged
  rw [Work.Fact.event, hevent, (hcause.newest hs).unknown] at hc
  cases hc

/-- A new event and its item are one step. -/
theorem steps_open (hinv : s.work.Inv) (hs : Ordered s.journal) (hcause : Recorded s cause t)
    (hkind : (eventKind cause.eventType).ofWork = false) (new : Work.Item)
    (hmoves : event.Moves (queueItemId cause.id new.agent) new .available)
    (hevent : new.event = cause.id)
    (hkey : event.idempotencyKey = some (queueItemIdempotencyKey cause.id new.agent .available))
    (hrecorded : Recorded t event u) :
    Work.Steps G s.work u.work ∧ u.work.items (queueItemId cause.id new.agent)
      = some (new.opened (nextCursor s.journal)) := by
  have hnew := hcause.newest hs
  have hne := queueItemId_ne_pendingQueueItemId cause.id new.agent
  obtain ⟨v, cursor, hv, hcursor, hident, -, hu⟩ := hrecorded.moved hmoves
  rw [hevent] at hv hcursor
  have hnone : t.work.items (queueItemId cause.id new.agent) = none := by
    cases hold : t.work.items (queueItemId cause.id new.agent) with
    | none => rfl
    | some it =>
      have hsame := (hident it hold).1
      rw [hcause.items_of_ne hkind hne] at hold
      have hknown := hinv.known _ it hold
      rw [hsame, hevent, hnew.unknown] at hknown
      cases hknown
  obtain rfl : nextCursor s.journal = cursor := by
    have hknown : t.work.cursors cause.id = some (nextCursor s.journal) := by
      rw [hcause.cursors_eq, Function.update_self]
    exact Option.some.inj ((hrecorded.grows _ _ hknown).symm.trans hcursor)
  have hitems : ∀ x, x ≠ queueItemId cause.id new.agent → u.work.items x = v.items x := by
    intro x hx
    rw [hu]
    exact Function.update_of_ne hx ..
  have hcleared := cleared_of_recorded hinv hcause hkind hrecorded hmoves hevent hne hv hitems
  have hclears : Work.Steps G s.work { v with cursors := s.work.cursors } := by
    refine hcleared.steps fun it hit hpending => absurd (hinv.known _ it hit) ?_
    rw [← pendingQueueItemId_inj (hinv.unbound _ it hit hpending).2, hnew.unknown]
    exact fun h => nomatch h
  rw [hnone] at hu
  have hopens : Work.Step G { v with cursors := s.work.cursors } u.work := by
    have hlog : t.work.log ++ [.queue (queueItemId cause.id new.agent) new.event .available
        event.idempotencyKey] = v.log ++ [(new.opened (nextCursor s.journal)).openFact
          (queueItemId cause.id new.agent)] := by
      rw [hv.log_eq, hkey, ← hevent]
      rfl
    rw [hu, hlog]
    refine .open (.inl ⟨(congrArg s.work.cursors hevent).trans hnew.unknown, hnew.newest⟩)
      ((congrArg u.work.cursors hevent).trans hcursor) (fun e c hc => ?_)
      (hv.items_self.trans hnone) ⟨?_, rfl, rfl, rfl⟩
    · exact hrecorded.grows e c (hcause.grows e c hc)
    · rw [← hevent]
      rfl
  refine ⟨hclears.tail hopens, ?_⟩
  rw [hu]
  exact Function.update_self ..

/-! ### An event that was there before -/

/-- Whether it has been recorded that the item of an event for an agent is available. -/
def Store.offers (s : Store) (eventId agentId : String) : Prop :=
  ∃ entry ∈ s.journal,
    entry.event.idempotencyKey = some (queueItemIdempotencyKey eventId agentId .available)

/-- The item of an event that was there before is opened, or there is nothing to do. -/
theorem steps_reopen (hinv : s.work.Inv) (new : Work.Item)
    (hrebind : ¬s.offers new.event new.agent → G.rebind)
    (hmoves : event.Moves (queueItemId new.event new.agent) new .available)
    (hagent : new.agent ≠ "")
    (hkey : event.idempotencyKey = some (queueItemIdempotencyKey new.event new.agent .available))
    (hknown : s.work.cursors new.event ≠ none)
    (h : appendRuntimeEvent s event = .ok (outcome, s')) :
    Work.Steps G s.work s'.work := by
  rcases appendCandidate_ok h with ⟨-, rfl, -⟩ | ⟨-, hrecorded⟩
  · exact .refl
  have hrebind : G.rebind := by
    refine hrebind ?_
    rintro ⟨entry, hentry, hoffers⟩
    exact hrecorded.fresh_key hkey hentry hoffers
  have hne := queueItemId_ne_pendingQueueItemId new.event new.agent
  obtain ⟨v, cursor, hv, hcursor, hident, -, hs'⟩ := hrecorded.moved hmoves
  -- An item that is there was offered under the key of this fact.
  have hnone : s.work.items (queueItemId new.event new.agent) = none := by
    cases hold : s.work.items (queueItemId new.event new.agent) with
    | none => rfl
    | some it =>
      obtain ⟨hevent, hsame⟩ := hident it hold
      have hsame : it.agent = new.agent := by
        refine hsame.resolve_right fun hpending => hne ?_
        rw [(hinv.unbound _ it hold hpending).2, hevent]
      have hlogged := hinv.offered _ it hold (by rw [hevent, hsame])
      obtain ⟨entry, hentry, hfact⟩ := entry_of_mem_log hlogged
      refine absurd ?_ (hrecorded.fresh_key hkey hentry)
      rw [Event.key_of_fact hfact, hevent, hsame]
  have hclears : Work.Steps G s.work v := hv.steps fun _ _ _ => .inr hrebind
  have hpending : ∀ x other, v.items x = some other → other.event = new.event →
      other.status ≠ .pending := by
    intro x other hother hevent hpending
    have hunbound := (hclears.inv hinv).unbound x other hother hpending
    rw [hevent] at hunbound
    obtain ⟨hother', rfl⟩ := hunbound
    have hrow : s'.work.items (pendingQueueItemId new.event) = some other := by
      rw [hs']
      exact (Function.update_of_ne hne.symm ..).trans hother
    refine hrecorded.clears hmoves hne hrow ?_
    rw [hother']
    rfl
  have hcursor' : v.cursors new.event = some cursor := by
    obtain ⟨c, hc⟩ := Option.ne_none_iff_exists'.mp hknown
    rw [hv.cursors_eq, hc, ← hcursor, hrecorded.grows _ _ hc]
  refine hclears.tail ?_
  rw [hnone] at hs'
  rw [hs', ← hv.log_eq, hkey]
  refine .open (.inr ⟨hrebind, hcursor', hagent, hpending⟩) hcursor (fun e c hc => ?_)
    (hv.items_self.trans hnone) ⟨rfl, rfl, rfl, rfl⟩
  rw [hv.cursors_eq] at hc
  exact hrecorded.grows e c hc

/-! ### Messages -/

section

omit [Platform]

/-- The fields of the fact that a message's item is available. -/
def SessionMessageRequest.fields (request : SessionMessageRequest) (requested : Event) :
    QueueLifecycleFields where
  queueItemId := queueItemId requested.id request.agentId
  targetAgent := request.agentId
  status := .available
  sessionId := some request.sessionId
  projectRevision := some request.projectRevision
  lockKeys := []

theorem moves_sessionMessageAvailableEvent (identity : RuntimeEventIdentity) (requested : Event)
    (request : SessionMessageRequest) :
    (sessionMessageAvailableEvent identity requested request).Moves
      (queueItemId requested.id request.agentId) ((request.fields requested).item requested)
      .available :=
  moves_queueLifecycleEvent identity requested (request.fields requested)

theorem key_sessionMessageAvailableEvent (identity : RuntimeEventIdentity) (requested : Event)
    (request : SessionMessageRequest) :
    (sessionMessageAvailableEvent identity requested request).idempotencyKey
      = some (queueItemIdempotencyKey requested.id request.agentId .available) := rfl

/-- A message that is retained is journaled and can be read, with the same intention. -/
theorem retainedSessionMessage_some {candidate retained : Event}
    (h : retainedSessionMessage s.journal candidate = .ok (some retained)) :
    (∃ entry ∈ s.journal, entry.event = retained ∧ readable entry.payloadBytes = true) ∧
      sameLifecycleIntention candidate retained = true := by
  simp only [retainedSessionMessage, ok_iff, entryByEventId, decodeFound_ok_iff] at h
  obtain ⟨_, ⟨rfl, hread⟩, byKey, hbyKey, -, -, -, hsame, hretained⟩ := h
  have hkeyed : ∀ entry ∈ byKey, entry ∈ s.journal ∧ readable entry.payloadBytes = true := by
    cases hkey : candidate.idempotencyKey with
    | none =>
      rw [hkey] at hbyKey
      cases hbyKey
      simp
    | some key =>
      rw [hkey, entryByOptionalKey, entryByIdempotencyKey, decodeFound_ok_iff] at hbyKey
      rw [hbyKey.1]
      exact fun entry hentry => ⟨List.mem_of_find?_eq_some hentry, hbyKey.2 entry hentry⟩
  refine ⟨?_, hsame retained hretained⟩
  obtain ⟨entry, hentry, hevent⟩ := Option.map_eq_some_iff.mp hretained
  rcases Option.or_eq_some_iff.mp hentry with hentry | ⟨-, hentry⟩
  · exact ⟨entry, (hkeyed _ hentry).1, hevent, (hkeyed _ hentry).2⟩
  · exact ⟨entry, List.mem_of_find?_eq_some hentry, hevent, hread entry hentry⟩

theorem known_of_mem_journal {entry : JournalEntry} (h : entry ∈ s.journal) :
    s.work.cursors entry.event.id ≠ none := by
  show cursorOf s.journal entry.event.id ≠ none
  rw [cursorOf, Ne, Option.map_eq_none_iff, List.find?_eq_none]
  exact fun hnone => hnone entry h (by simp)

end

/-- Cancelling the wait of a session is not about work. -/
theorem recordings_cancelSessionWait {wait : Option WaitRow}
    (h : cancelSessionWait s request identity wait = .ok (events, s')) : Recordings Aside s s' := by
  cases wait with
  | none =>
    cases h
    exact .refl
  | some wait =>
    simp only [cancelSessionWait, ok_iff, pair_iff] at h
    obtain ⟨_, _, hcancel, -, rfl⟩ := h
    exact (recordings_cancelResourceInTransaction hcancel).mono fun _ => CancellationEvent.aside

/-- A message is a few steps; one that repeats an event has to be allowed to. -/
theorem steps_submitSessionMessage (hinv : s.work.Inv) (hs : Ordered s.journal)
    {waitIdentity requestedIdentity availableIdentity : RuntimeEventIdentity}
    (hrebind : ∀ retained,
      retainedSessionMessage s.journal (sessionMessageRequestedEvent requestedIdentity request) =
      .ok (some retained) → ¬s.offers retained.id request.agentId → G.rebind)
    {submitted : SubmittedSessionMessage}
    (h : submitSessionMessage s request waitIdentity requestedIdentity availableIdentity =
      .ok (submitted, s')) : Work.Steps G s.work s'.work := by
  simp only [submitSessionMessage, ok_iff, pair_iff] at h
  obtain ⟨_, hvalid, _, -, _, -, retained, hretained, requested, cancelled, t, hrecord, available,
    u, happend, -, rfl⟩ := h
  have hmoves := moves_sessionMessageAvailableEvent availableIdentity requested request
  cases retained with
  | some retained =>
    cases hrecord
    have hagent : request.agentId ≠ "" := by
      simp only [validateSessionMessageRequest, ok_iff] at hvalid
      exact hvalid.choose_spec.2.choose_spec.1
    obtain ⟨⟨entry, hentry, rfl, -⟩, -⟩ := retainedSessionMessage_some hretained
    exact steps_reopen hinv ((request.fields _).item _) (hrebind _ hretained) hmoves hagent
      (key_sessionMessageAvailableEvent ..) (known_of_mem_journal hentry) happend
  | none =>
    simp only [recordSessionMessage, ok_iff, pair_iff] at hrecord
    obtain ⟨wait, -, _, v, hcancel, _, x, hmessage, ⟨rfl, -⟩, rfl⟩ := hrecord
    obtain ⟨harrived, hv⟩ := (recordings_cancelSessionWait hcancel).arrived hs
    obtain ⟨rfl, hrecorded⟩ := appendSessionMessage_ok hmessage
    have hsteps := harrived.toSteps G
    have hkind : (eventKind "session.message.requested").ofWork = false := by decide
    have hinv := hsteps.inv hinv
    have hopened := recorded_of_new hinv hv hrecorded hkind hmoves rfl happend
    exact hsteps.trans (steps_open hinv hv hrecorded hkind ((request.fields _).item _) hmoves rfl
      (key_sessionMessageAvailableEvent ..) hopened).1

/-! ### Waits -/

/-- The item that continues a wait. -/
def WaitRow.continuation (wait : WaitRow) (ended : String) : Work.Item where
  event := ended
  agent := wait.agentId
  session := some wait.sessionId
  revision := wait.projectRevision
  cursor := 0
  status := .available
  cancelRequested := false
  attempts := 0

section

omit [Platform]

theorem moves_waitContinuationEvent (identity : RuntimeEventIdentity) (wait : WaitRow)
    (ended : Event) :
    (waitContinuationEvent identity wait ended).Moves (queueItemId ended.id wait.agentId)
      (wait.continuation ended.id) .available := by
  refine ⟨show eventKind "runtime.queue_item.available" = .queueItem by decide,
    show QueueItemStatus.fromStr (lastSegment "runtime.queue_item.available") = some .available by
      decide, rfl, rfl, rfl, ?_, ?_⟩
  · cases hrevision : wait.projectRevision <;>
      simp [waitContinuationEvent, runtimeFact, Map.text, WaitRow.continuation, optionalField,
        hrevision]
  · cases hrevision : wait.projectRevision <;>
      simp [waitContinuationEvent, runtimeFact, Map.text, WaitRow.continuation, optionalField,
        hrevision]

theorem key_waitContinuationEvent (identity : RuntimeEventIdentity) (wait : WaitRow)
    (ended : Event) :
    (waitContinuationEvent identity wait ended).idempotencyKey
      = some (queueItemIdempotencyKey ended.id wait.agentId .available) := rfl

/-- A wait has been ended by a new fact, and its agent goes on. -/
structure Resumed (s : Store) (wait : WaitRow) (ended : Event) (s' : Store) : Prop where
  intro ::
  facts : ∃ t identity, Recorded s ended t ∧
    Recorded t (waitContinuationEvent identity wait ended) s'

theorem Event.kind_of_endsWait (h : event.endsWait = some handle) :
    eventKind event.eventType = .wait := by
  by_contra hkind
  rw [Event.endsWait_eq_none hkind] at h
  cases h

theorem Event.ofWork_of_endsWait (h : event.endsWait = some handle) :
    (eventKind event.eventType).ofWork = false := by
  rw [Event.kind_of_endsWait h]
  rfl

end

/-- The fact that ends an active wait is new. -/
theorem recorded_of_active (hr : Resources s) (hwait : wait ∈ s.projections.waits)
    (hactive : wait.status = .active) (hends : ended.endsWait = some wait.handle)
    (h : appendRuntimeEvent s ended = .ok (outcome, t)) :
    outcome.event = { ended with cursor := some (nextCursor s.journal) } ∧ Recorded s ended t := by
  rcases appendCandidate_ok h with ⟨-, rfl, ⟨entry, hentry, hevent, -⟩, hsame⟩
    | ⟨hinserted, hrecorded⟩
  · refine absurd ?_ (hr.waits.not_ends hwait (by simp [WaitRow.isActive, hactive]) hentry)
    rw [← hevent, ← hends]
    simp only [sameLifecycleIntention, Bool.and_eq_true, decide_eq_true_eq] at hsame
    exact (Event.endsWait_congr hsame.1.1.1.1.1.1.1 (Map.text_eq_of_same hsame.1.1.1.1.1.2)).symm
  · exact ⟨appendCandidate_event h hinserted, hrecorded⟩

/-- Resuming an active wait ends it by a new fact, and continues its agent. -/
theorem resumeWait_ok (hinv : s.work.Inv) (hs : Ordered s.journal) (hr : Resources s)
    (hwait : wait ∈ s.projections.waits) (hactive : wait.status = .active)
    (hends : ended.endsWait = some wait.handle)
    (h : resumeWait s wait ended identity = .ok (events, s')) : Resumed s wait ended s' := by
  simp only [resumeWait, ok_iff, pair_iff] at h
  obtain ⟨outcome, t, hended, _, _, hnext, -, rfl⟩ := h
  obtain ⟨houtcome, hrecorded⟩ := recorded_of_active hr hwait hactive hends hended
  rw [houtcome] at hnext
  exact ⟨t, identity, hrecorded, recorded_of_new hinv hs hrecorded (Event.ofWork_of_endsWait hends)
    (moves_waitContinuationEvent ..) rfl hnext⟩

/-- Resuming a wait is one step. -/
theorem Resumed.steps (h : Resumed s wait ended s') (hinv : s.work.Inv) (hs : Ordered s.journal)
    (hends : ended.endsWait = some wait.handle) :
    Work.Steps G s.work s'.work ∧ s'.work.items (queueItemId ended.id wait.agentId)
      = some ((wait.continuation ended.id).opened (nextCursor s.journal)) := by
  obtain ⟨t, identity, hended, hnext⟩ := h
  exact steps_open hinv hs hended (Event.ofWork_of_endsWait hends) (wait.continuation ended.id)
    (moves_waitContinuationEvent ..) rfl (key_waitContinuationEvent ..) hnext

omit [Platform] in
/-- What every run keeps, as far as work and resources go. -/
structure Coherent (s : Store) : Prop where
  ordered : Ordered s.journal
  resources : Resources s
  inv : s.work.Inv

/-- An active wait is ended by a fact and its agent goes on. -/
structure Resumes (s s' : Store) : Prop where
  intro ::
  resumed : ∃ wait ∈ s.projections.waits, wait.status = .active ∧ ∃ ended : Event,
    ended.endsWait = some wait.handle ∧
      (waitEnd ended.eventType = some .matched ∨ waitEnd ended.eventType = some .timedOut) ∧
      Resumed s wait ended s'

theorem Resumes.steps (h : Resumes s s') (hs : Coherent s) : Work.Steps G s.work s'.work := by
  obtain ⟨wait, -, -, ended, hends, -, hresumed⟩ := h
  exact (hresumed.steps hs.inv hs.ordered hends).1

theorem Resumes.coherent (h : Resumes s s') (hs : Coherent s) : Coherent s' := by
  have hinv := (h.steps (G := .none) hs).inv hs.inv
  obtain ⟨wait, -, -, ended, -, -, t, identity, hended, hnext⟩ := h
  exact ⟨hnext.ordered (hended.ordered hs.ordered), hnext.resources (hended.resources hs.resources),
    hinv⟩

/-- Resuming waits one after the other. -/
theorem steps_of_resumes (h : Relation.ReflTransGen Resumes s s') (hs : Coherent s) :
    Work.Steps G s.work s'.work ∧ Coherent s' := by
  induction h with
  | refl => exact ⟨.refl, hs⟩
  | tail _ hstep ih => exact ⟨ih.1.trans (hstep.steps ih.2), hstep.coherent ih.2⟩

/-- Resuming a wait leaves the others alone. -/
theorem Resumed.waits_of_ne (h : Resumed s wait ended s')
    (hends : ended.endsWait = some wait.handle) {other : WaitRow}
    (hother : other ∈ s.projections.waits) (hne : other.handle ≠ wait.handle) :
    other ∈ s'.projections.waits := by
  obtain ⟨t, identity, hended, hnext⟩ := h
  have hkind : eventKind (waitContinuationEvent identity wait ended).eventType ≠ .wait := by
    rw [(moves_waitContinuationEvent identity wait ended).kind]
    decide
  obtain ⟨row, -, hhandle, -, status, matched, -, hwaits⟩ := hended.waits_of_ends hends
  rw [hnext.waits_eq hkind, hwaits, Table.mem_updateWhere]
  exact ⟨other, hother, by simp [hhandle, hne]⟩

omit [Platform] in
theorem endsWait_waitMatchedEvent (identity : RuntimeEventIdentity) (wait : WaitRow)
    (input : Event) :
    (waitMatchedEvent identity wait input).endsWait = some wait.handle := by
  rw [Event.endsWait, if_pos]
  · rfl
  · exact ⟨show eventKind "runtime.wait.matched" = .wait by decide,
      show "runtime.wait.matched" ≠ "runtime.wait.created" by decide⟩

/-- Resuming the waits of an event. -/
theorem resumes_resumeWaits {input : Event} (hs : Coherent s)
    (hwaits : ∀ wait ∈ waits, wait ∈ s.projections.waits ∧ wait.status = .active)
    (hnodup : (waits.map WaitRow.handle).Nodup)
    (h : resumeWaits input s waits identities = .ok (events, s')) :
    Relation.ReflTransGen Resumes s s' := by
  induction waits generalizing s identities events with
  | nil =>
    cases h
    exact .refl
  | cons wait waits ih =>
    match identities with
    | [] | [_] =>
      cases h
      exact .refl
    | first :: second :: identities =>
      rw [List.map_cons, List.nodup_cons] at hnodup
      rw [List.forall_mem_cons] at hwaits
      simp only [resumeWaits, ok_iff, pair_iff] at h
      obtain ⟨_, t, hresume, _, _, hrest, -, rfl⟩ := h
      have hends := endsWait_waitMatchedEvent first wait input
      have hresumed := resumeWait_ok hs.inv hs.ordered hs.resources hwaits.1.1 hwaits.1.2 hends
        hresume
      have hresumes : Resumes s t :=
        ⟨wait, hwaits.1.1, hwaits.1.2, _, hends, .inl (if_pos rfl), hresumed⟩
      refine .head hresumes (ih (hresumes.coherent hs) (fun other hother => ?_) hnodup.2 hrest)
      refine ⟨hresumed.waits_of_ne hends (hwaits.2 other hother).1 fun heq => ?_,
        (hwaits.2 other hother).2⟩
      exact hnodup.1 (heq ▸ List.mem_map_of_mem hother)

omit [Platform] in
/-- Rehydrating rows gives the rows. -/
theorem eq_of_mapM_intoModel {rows : List WaitRow} (h : rows.mapM WaitRow.intoModel = .ok waits) :
    waits = rows := by
  induction rows generalizing waits with
  | nil =>
    cases h
    rfl
  | cons row rows ih =>
    simp only [List.mapM_cons, ok_iff, WaitRow.intoModel] at h
    obtain ⟨_, ⟨_, -, _, -, _, -, rfl⟩, rest, hrest, rfl⟩ := h
    rw [ih hrest]

omit [Platform] in
/-- The waits an event matches are active, and each is there once. -/
theorem matchingWaits_ok (h : matchingWaits s event = .ok waits) :
    (∀ wait, wait ∈ waits ↔ wait ∈ s.projections.waits ∧ wait.status = .active ∧
      wait.eventType = event.eventType ∧ journaled s.journal wait.createdEventId = true ∧
      wait.matches event = true) ∧ (waits.map WaitRow.handle).Nodup := by
  simp only [matchingWaits, activeWaits, ok_iff] at h
  obtain ⟨active, hactive, rfl⟩ := h
  rw [eq_of_mapM_intoModel hactive]
  constructor
  · intro wait
    simp only [List.mem_filter, List.mem_insertionSort, Bool.and_eq_true, decide_eq_true_eq]
    constructor
    · rintro ⟨⟨hmem, ⟨hstatus, htype⟩, hjournaled⟩, hmatches⟩
      exact ⟨hmem, hstatus, htype, hjournaled, hmatches⟩
    · rintro ⟨hmem, hstatus, htype, hjournaled, hmatches⟩
      exact ⟨⟨hmem, ⟨hstatus, htype⟩, hjournaled⟩, hmatches⟩
  · refine List.Nodup.sublist ((List.filter_sublist).map _) ?_
    refine (((List.perm_insertionSort _ _).map WaitRow.handle).nodup_iff).mpr ?_
    exact s.projections.waits.nodup_keys.sublist ((List.filter_sublist).map _)

/-- Resuming the waits a journaled event matches. -/
theorem resumes_resumeWaitsForEvent (hs : Coherent s) {eventId : String}
    (h : resumeWaitsForEvent s eventId identities = .ok (events, s')) :
    Relation.ReflTransGen Resumes s s' := by
  simp only [resumeWaitsForEvent, bind_ok_iff] at h
  obtain ⟨_, -, entry, -, waits, hwaits, _, -, _, -, h⟩ := h
  unfold resumableWaits at hwaits
  split at hwaits
  · cases hwaits
    cases identities <;> cases h <;> exact .refl
  · obtain ⟨hmem, hnodup⟩ := matchingWaits_ok hwaits
    exact resumes_resumeWaits hs
      (fun wait hwait => ⟨((hmem wait).mp hwait).1, ((hmem wait).mp hwait).2.1⟩)
      hnodup h

omit [Platform] in
/-- The wait that times out is active. -/
theorem nextDueWait_some (h : nextDueWait s nowMs = .ok (some wait)) :
    wait ∈ s.projections.waits ∧ wait.status = .active := by
  obtain ⟨hmem, hactive, -⟩ := (nextDueWait_spec h).1 wait rfl
  exact ⟨hmem, hactive⟩

/-- What the fact about a deadline ends. -/
theorem waitTimedOutEvent_ok (h : waitTimedOutEvent identity wait = .ok ended) :
    ended.endsWait = some wait.handle ∧ waitEnd ended.eventType = some .timedOut := by
  simp only [waitTimedOutEvent, ok_iff] at h
  obtain ⟨deadlineMs, -, deadline, -, rfl⟩ := h
  constructor
  · exact (if_pos ⟨show eventKind "runtime.wait.timed_out" = .wait by decide,
      show "runtime.wait.timed_out" ≠ "runtime.wait.created" by decide⟩).trans rfl
  · exact show waitEnd "runtime.wait.timed_out" = some .timedOut by decide

/-- Timing out a wait. -/
theorem resumes_timeoutNextDueWait (hs : Coherent s) {first second : RuntimeEventIdentity}
    {events : Option (List Event)}
    (h : timeoutNextDueWait s nowMs first second = .ok (events, s')) :
    Relation.ReflTransGen Resumes s s' := by
  simp only [timeoutNextDueWait, bind_ok_iff] at h
  obtain ⟨due, hdue, h⟩ := h
  cases due with
  | none =>
    cases h
    exact .refl
  | some wait =>
    simp only [timeoutWait, ok_iff, pair_iff] at h
    obtain ⟨_, -, timedOut, htimedOut, _, _, hresume, -, rfl⟩ := h
    obtain ⟨hwait, hactive⟩ := nextDueWait_some hdue
    obtain ⟨hends, hend⟩ := waitTimedOutEvent_ok htimedOut
    exact .single ⟨wait, hwait, hactive, timedOut, hends, .inr hend,
      resumeWait_ok hs.inv hs.ordered hs.resources hwait hactive hends hresume⟩

/-! ### Publications -/

/-- Recording what is not about work. -/
theorem Recordings.coherent (h : Recordings Aside s t) (hs : Coherent s) : Coherent t := by
  obtain ⟨harrived, hordered⟩ := h.arrived hs.ordered
  exact ⟨hordered, (h.changes fun _ => id).resources hs.resources,
    (harrived.toSteps .none).inv hs.inv⟩

omit [Platform] in
theorem aside_deferredPublicationEvent {publication : DeferredPublicationRow}
    (hreserved : startsWith publication.eventType "runtime." = false)
    (first : RuntimeEventIdentity) :
    Aside (deferredPublicationEvent first publication) :=
  aside_of_agent rfl (ofWork_of_unreserved hreserved) rfl

omit [Platform] in
theorem aside_deferredPublicationPublishedEvent (last : RuntimeEventIdentity)
    (publication : DeferredPublicationRow) (published : Event) :
    Aside (deferredPublicationPublishedEvent last publication published) :=
  aside_of_kind rfl (by simp only [deferredPublicationPublishedEvent, runtimeFact]; decide)

namespace Publishes

variable {nowMs : Int} {publication : DeferredPublicationRow} {published : Event}

/-- Appending the event leaves waits alone. -/
theorem waits_eq (h : Publishes s nowMs publication published t u s')
    (hreserved : startsWith publication.eventType "runtime." = false) :
    t.projections.waits = s.projections.waits := by
  obtain ⟨first, outcome, -, hpublish⟩ := h.appended
  rcases appendCandidate_ok hpublish with ⟨-, rfl, -⟩ | ⟨-, hrecorded⟩
  · rfl
  · refine hrecorded.waits_eq ?_
    rcases eventKind_of_unreserved hreserved with hkind | hkind <;>
      rw [deferredPublicationEvent, hkind] <;> decide

/-- The three parts of a publication. -/
theorem parts (h : Publishes s nowMs publication published t u s') (hs : Coherent s)
    (hreserved : startsWith publication.eventType "runtime." = false) :
    Recordings Aside s t ∧ Coherent t ∧ Relation.ReflTransGen Resumes t u ∧
      Recordings Aside u s' := by
  obtain ⟨first, outcome, -, hpublish⟩ := h.appended
  obtain ⟨probe, waits, identities, events, hwaits, -, hresume⟩ := h.resumed
  obtain ⟨last, terminal, hterminal⟩ := h.ended
  have hst : Recordings Aside s t :=
    recordings_of_appendCandidate (aside_deferredPublicationEvent hreserved first) hpublish
  have ht := hst.coherent hs
  obtain ⟨hmem, hnodup⟩ := matchingWaits_ok hwaits
  refine ⟨hst, ht, resumes_resumeWaits ht (fun wait hwait => ?_) hnodup hresume, ?_⟩
  · rw [h.waits_eq hreserved]
    exact ⟨((hmem wait).mp hwait).1, ((hmem wait).mp hwait).2.1⟩
  · exact recordings_of_appendCandidate (aside_deferredPublicationPublishedEvent ..) hterminal

end Publishes

/-- Publishing what is due is a few steps. -/
theorem steps_publishNextDueDeferredPublication (hs : Coherent s)
    (hreserved : s.projections.Unreserved) {events : Option (List Event)}
    (h : publishNextDueDeferredPublication s nowMs identities = .ok (events, s')) :
    Work.Steps G s.work s'.work ∧ Coherent s' := by
  rcases publishNextDueDeferredPublication_ok h with rfl
    | ⟨publication, published, t, u, hpublishes⟩
  · exact ⟨.refl, hs⟩
  · obtain ⟨hst, ht, htu, hus⟩ := hpublishes.parts hs (hreserved publication hpublishes.found)
    obtain ⟨hsteps, hu⟩ := steps_of_resumes (G := G) htu ht
    refine ⟨?_, hus.coherent hu⟩
    exact (((hst.arrived hs.ordered).1.toSteps G).trans hsteps).trans
      ((hus.arrived hu.ordered).1.toSteps G)

end Zeta
