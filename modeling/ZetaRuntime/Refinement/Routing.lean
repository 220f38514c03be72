import ZetaRuntime.Refinement.Resources

/-!
# Routing refines the abstract machine

A route plan begins with a pending item about whose event nothing has been logged. So the facts of a
plan that is committed are all recorded. The first one closes the pending row or binds it, which is
a step of its own if it is the only one. If several agents take the event, the first of their items
to be recorded removes the closed row; the others find it gone. All facts of the plan together are
then one step.
-/

namespace Zeta

open Outcome

variable {s s' t t' : Store} {G : Work.Guard}

variable {outcome : AppendOutcome} {event input : Event} {retained : List Event}
  {routes : List Route} {decisions : List RouteDecision} {identities : List RuntimeEventIdentity}
  {opens : List Work.Fact} {key : Option String} {status : QueueItemStatus}
  {decision : RouteDecision} {identity : RuntimeEventIdentity} {e q x : String}
  {opened : String → Option Work.Item} {v w : Work} {it new : Work.Item}

/-! ### What the facts say -/

/-- The item a routing fact describes. -/
def QueueLifecycleFields.item (fields : QueueLifecycleFields) (input : Event) : Work.Item where
  event := input.id
  agent := fields.targetAgent
  session := fields.sessionId.or input.sessionId
  revision := fields.projectRevision
  cursor := 0
  status := fields.status
  cancelRequested := false
  attempts := 0

theorem moves_queueLifecycleEvent (identity : RuntimeEventIdentity) (input : Event)
    (fields : QueueLifecycleFields) :
    (queueLifecycleEvent identity input fields).Moves fields.queueItemId (fields.item input)
      fields.status := by
  refine ⟨by simp [queueLifecycleEvent], by simp [queueLifecycleEvent], rfl, rfl, rfl, ?_, ?_⟩
  · cases hsession : fields.sessionId <;> cases hrevision : fields.projectRevision <;>
      by_cases hlocks : fields.lockKeys = [] <;>
      simp [queueLifecycleEvent, Map.text, QueueLifecycleFields.item, optionalField, hsession,
        hrevision, hlocks]
  · cases hsession : fields.sessionId <;> cases hrevision : fields.projectRevision <;>
      by_cases hlocks : fields.lockKeys = [] <;>
      simp [queueLifecycleEvent, Map.text, QueueLifecycleFields.item, optionalField, hsession,
        hrevision, hlocks]

/-- The item a decision describes. -/
def RouteDecision.item (decision : RouteDecision) (input : Event) : Work.Item where
  event := input.id
  agent := decision.agentId
  session := some decision.sessionId
  revision := decision.projectRevision
  cursor := 0
  status := .available
  cancelRequested := false
  attempts := 0

theorem moves_availableForRoute (input : Event) (identity : RuntimeEventIdentity)
    (decision : RouteDecision) :
    (availableForRoute input identity decision).Moves decision.queueItemId (decision.item input)
      .available :=
  moves_queueLifecycleEvent identity input _

/-- The unbound item of an event is about that event. -/
theorem Work.Shape.event_of_unrouted (hinv : w.Shape)
    (hit : w.items (pendingQueueItemId e) = some it) (hunrouted : it.Unrouted) : it.event = e :=
  (pendingQueueItemId_inj (hinv.unbound _ it hit hunrouted.1).2).symm

/-- A fact about the unbound item itself closes no other row. -/
theorem Work.Cleared.eq_of_pending (h : w.Cleared (pendingQueueItemId e) e v) : v = w := by
  rcases h with rfl | ⟨hne, -⟩
  · rfl
  · exact absurd rfl hne

variable [Platform]

/-- After a fact about another item of its event, no unbound row is left. -/
theorem Recorded.clears (h : Recorded s event s') (hmoves : event.Moves q new status)
    (hne : q ≠ pendingQueueItemId new.event)
    (hit : s'.work.items (pendingQueueItemId new.event) = some it) : it.agent ≠ "" := by
  obtain ⟨-, -, -, -, -, hindex⟩ := h.journal_eq
  simp only [indexEvent, hmoves.kind, indexQueueItem_ok_iff] at hindex
  obtain ⟨fact, hread, closed, hclosed, -, -, -, -, cursor, -, -, hp⟩ := hindex
  have hreads := readQueueFact_reads hread
  obtain rfl : q = fact.queueItemId := Option.some.inj (hmoves.item.symm.trans hreads.queueItemId)
  have hevent : new.event = fact.eventId := Option.some.inj (hmoves.event.symm.trans hreads.eventId)
  obtain ⟨row, hrow, rfl⟩ := find?_of_work_items hit
  have hkey : (fact.row cursor (closed.queueItems.find? fact.queueItemId)).queueItemId
      = fact.queueItemId := by
    cases closed.queueItems.find? fact.queueItemId <;> rfl
  rw [hp, Projections.upsertQueueItem, Table.find?_upsert, hkey, if_neg hne, hevent] at hrow
  rw [hevent] at hne
  rcases closePendingRouteBarrier_ok_iff.mp hclosed with ⟨hkeeps, rfl⟩ | ⟨-, -, rfl⟩
  · exact fun hagent => hkeeps ⟨hne, row, hrow, hagent⟩
  · simp only [Projections.deleteQueueItem, Table.find?_deleteWhere] at hrow
    rw [Option.filter_eq_some_iff] at hrow
    simp [Table.key_of_find? hrow.1] at hrow

/-- A fact about the event of a pending item is recorded. -/
theorem recorded_of_unrouted (hinv : s.work.Inv) (hit : s.work.items q = some it)
    (hunrouted : it.Unrouted) (hmoves : event.Moves x new status) (hevent : new.event = it.event)
    (h : appendCandidate sameLogicalEvent s event = .ok (outcome, s')) : Recorded s event s' := by
  refine recorded_of_unlogged (fun _ _ => fact_eq_of_sameLogicalEvent) h hmoves.fact_eq
    fun hlogged => ?_
  exact hinv.unlogged q it hit hunrouted.1 _ hlogged hevent

/-! ### One fact -/

/-- A fact about a pending item changes nothing but that item. -/
theorem Recorded.moved_pending (h : Recorded s event s') (hinv : s.work.Inv)
    (hit : s.work.items (pendingQueueItemId e) = some it) (hunrouted : it.Unrouted)
    (hmoves : event.Moves (pendingQueueItemId e) new status) (hevent : new.event = e)
    (hkey : event.idempotencyKey = key) {agent : String} (hagent : new.agent = agent) :
    s'.work = { s.work with
      cursors := s'.work.cursors
      items := Function.update s.work.items (pendingQueueItemId e) (some { it with
        agent
        session := new.session
        revision := new.revision
        status })
      log := s.work.log ++ [.queue (pendingQueueItemId e) it.event status key] } := by
  have hunbound := (hinv.unbound _ it hit hunrouted.1).1
  have hit_event := hinv.event_of_unrouted hit hunrouted
  obtain ⟨v, cursor, hcleared, hcursor, -, -, hs'⟩ := h.moved hmoves
  rw [hevent] at hcleared hcursor hs'
  obtain rfl := hcleared.eq_of_pending
  have hknown := h.grows _ _ (hinv.known _ it hit)
  rw [hit_event] at hknown
  obtain rfl : it.cursor = cursor := Option.some.inj (hknown.symm.trans hcursor)
  have hsession : it.session = none := by rw [hunbound]; rfl
  have hrevision : it.revision = none := by rw [hunbound]; rfl
  rw [hs']
  simp only [hit, Work.Item.moved, hsession, hrevision, Option.or_none, hit_event, hkey, hagent]

/-- Nobody takes an event. -/
theorem steps_unhandled (hinv : s.work.Inv)
    (hit : s.work.items (pendingQueueItemId input.id) = some it) (hunrouted : it.Unrouted)
    (h : appendCandidate sameLogicalEvent s (closePending input identity .unhandled) =
      .ok (outcome, s')) : Work.Steps G s.work s'.work := by
  have hmoves := moves_queueLifecycleEvent identity input
    ⟨pendingQueueItemId input.id, "", .unhandled, none, none, []⟩
  have hevent := (hinv.event_of_unrouted hit hunrouted).symm
  have hrecorded := recorded_of_unrouted hinv hit hunrouted hmoves hevent h
  rw [hrecorded.moved_pending hinv hit hunrouted hmoves rfl rfl hunrouted.2.symm]
  exact .single (.unhandled hit hunrouted hrecorded.grows)

/-- One agent takes an event. -/
theorem steps_bind (hinv : s.work.Inv) (hit : s.work.items (pendingQueueItemId input.id) = some it)
    (hunrouted : it.Unrouted)
    (h : appendCandidate sameLogicalEvent s
      (availableForRoute input identity
      { decision with queueItemId := pendingQueueItemId input.id }) = .ok (outcome, s')) :
    Work.Steps G s.work s'.work := by
  have hmoves := moves_availableForRoute input identity
    { decision with queueItemId := pendingQueueItemId input.id }
  have hevent := hinv.event_of_unrouted hit hunrouted
  have hrecorded := recorded_of_unrouted hinv hit hunrouted hmoves hevent.symm h
  have hkey : (availableForRoute input identity { decision with
      queueItemId := pendingQueueItemId input.id }).idempotencyKey
        = some (queueItemIdempotencyKey it.event decision.agentId .available) := by
    rw [hevent]
    rfl
  rw [hrecorded.moved_pending hinv hit hunrouted hmoves rfl hkey rfl]
  exact .single (.bind hit hunrouted hrecorded.grows)

/-! ### Several facts -/

/-- Part of a fan-out has been recorded: the pending item is closed, and some items are open. -/
structure Fanned (w w' : Work) (q : String) (it : Work.Item) (key : Option String)
    (opened : String → Option Work.Item) (opens : List Work.Fact) : Prop where
  items : ∀ x, x ≠ q → w'.items x = (opened x).or (w.items x)
  closed : ∀ i, w'.items q = some i → i.agent = ""
  fresh : ∀ x i, opened x = some i →
    w.items x = none ∧ Work.Opened x i ∧ i.event = it.event ∧ i.cursor = it.cursor
  facts : ∀ fact, fact ∈ opens ↔ ∃ x i, opened x = some i ∧ fact = i.openFact x
  log : w'.log = w.log ++ .queue q it.event .completed key :: opens
  claims : w'.claims = w.claims
  attempts : w'.attempts = w.attempts
  grows : Work.Grows w.cursors w'.cursors

omit [Platform] in
/-- Once the closed row is gone, a fan-out is complete. -/
theorem Fanned.step {w' : Work} (h : Fanned w w' q it key opened opens) (hit : w.items q = some it)
    (hunrouted : it.Unrouted) (hunowned : w.claims q = none) (hgone : w'.items q = none) :
    Work.Step G w w' := by
  convert Work.Step.fanOut (G := G) (w := w) hit hunrouted h.grows h.fresh h.facts using 1
  refine Work.ext ?_ ?_ h.attempts rfl h.log
  · funext x
    by_cases hx : x = q
    · exact (hx ▸ hgone).trans (if_pos hx).symm
    · exact (h.items x hx).trans (if_neg hx).symm
  · rw [h.claims, ← hunowned, Function.update_eq_self]

omit [Platform] in
/-- One more item is opened. -/
theorem Fanned.add {v' : Work} {i : Work.Item} (h : Fanned w v q it key opened opens) (hx : x ≠ q)
    (hfree : v.items x = none) (hopen : Work.Opened x i) (hevent : i.event = it.event)
    (hcursor : i.cursor = it.cursor)
    (hitems : ∀ y, y ≠ q → v'.items y = Function.update v.items x (some i) y)
    (hgone : v'.items q = none) (hlog : v'.log = v.log ++ [i.openFact x])
    (hclaims : v'.claims = v.claims) (hattempts : v'.attempts = v.attempts)
    (hgrows : Work.Grows v.cursors v'.cursors) :
    Fanned w v' q it key (Function.update opened x (some i)) (opens ++ [i.openFact x]) := by
  rw [h.items x hx, Option.or_eq_none_iff] at hfree
  refine ⟨fun y hy => ?_, fun j hj => ?_, fun y j hj => ?_, fun fact => ?_, ?_,
    hclaims.trans h.claims, hattempts.trans h.attempts, fun e c hc => hgrows e c (h.grows e c hc)⟩
  · rw [hitems y hy]
    by_cases hyx : y = x
    · subst hyx
      simp
    · rw [Function.update_of_ne hyx, Function.update_of_ne hyx, h.items y hy]
  · rw [hgone] at hj
    cases hj
  · by_cases hyx : y = x
    · subst hyx
      rw [Function.update_self] at hj
      cases hj
      exact ⟨hfree.2, hopen, hevent, hcursor⟩
    · rw [Function.update_of_ne hyx] at hj
      exact h.fresh y j hj
  · rw [List.mem_append, List.mem_singleton, h.facts]
    constructor
    · rintro (⟨y, j, hj, rfl⟩ | rfl)
      · have hyx : y ≠ x := by
          rintro rfl
          simp [hfree.1] at hj
        exact ⟨y, j, (Function.update_of_ne hyx ..).trans hj, rfl⟩
      · exact ⟨x, i, Function.update_self .., rfl⟩
    · rintro ⟨y, j, hj, rfl⟩
      by_cases hyx : y = x
      · subst hyx
        rw [Function.update_self] at hj
        cases hj
        exact .inr rfl
      · rw [Function.update_of_ne hyx] at hj
        exact .inl ⟨y, j, hj, rfl⟩
  · rw [hlog, h.log, List.append_assoc]
    rfl

/-- One more item of a fan-out is recorded, and the closed row is gone. -/
theorem Fanned.record (hinv : w.Inv) (hit : w.items (pendingQueueItemId input.id) = some it)
    (hunrouted : it.Unrouted) (hunowned : w.claims (pendingQueueItemId input.id) = none)
    (h : Fanned w t.work (pendingQueueItemId input.id) it key opened opens)
    (hname : decision.queueItemId = queueItemId input.id decision.agentId)
    (hrecorded : Recorded t (availableForRoute input identity decision) t') :
    t'.work.items (pendingQueueItemId input.id) = none ∧
      ∃ opened opens, Fanned w t'.work (pendingQueueItemId input.id) it key opened opens := by
  have hevent := hinv.event_of_unrouted hit hunrouted
  have hmoves := moves_availableForRoute input identity decision
  have hne : decision.queueItemId ≠ pendingQueueItemId input.id := by
    rw [hname]
    exact queueItemId_ne_pendingQueueItemId _ _
  obtain ⟨v, cursor, hcleared, hcursor, hident, hedge, ht'⟩ := hrecorded.moved hmoves
  have hv : ∀ x, x ≠ pendingQueueItemId input.id → v.items x = t.work.items x := by
    intro x hx
    rcases hcleared with rfl | ⟨-, -, -, -, rfl⟩
    · rfl
    · exact Function.update_of_ne hx ..
  -- The item is new: the pending item was the only one for its event.
  have hnone : t.work.items decision.queueItemId = none := by
    cases hold : t.work.items decision.queueItemId with
    | none => rfl
    | some i =>
      have hsame := (hident i hold).1
      rw [h.items _ hne, Option.or_eq_some_iff] at hold
      rcases hold with hopened | ⟨-, hold⟩
      · obtain ⟨-, hopen, -⟩ := h.fresh _ i hopened
        rw [h.items _ hne, hopened] at hedge
        simp [hopen.status, QueueItemStatus.canTransition] at hedge
      · exact absurd (hinv.sole _ it hit hunrouted.1 _ i hold (hsame.trans hevent.symm)) hne
  have hgone : t'.work.items (pendingQueueItemId input.id) = none := by
    cases hrow : t'.work.items (pendingQueueItemId input.id) with
    | none => rfl
    | some i =>
      refine absurd ?_ (hrecorded.clears hmoves hne hrow)
      rw [ht'] at hrow
      have hrow : v.items (pendingQueueItemId input.id) = some i :=
        (Function.update_of_ne hne.symm ..).symm.trans hrow
      rcases hcleared with rfl | ⟨-, -, -, -, rfl⟩
      · exact h.closed i hrow
      · simp [RouteDecision.item] at hrow
  have hclaims : v.claims = t.work.claims := by
    rcases hcleared with rfl | ⟨-, -, -, -, rfl⟩
    · rfl
    · have hnone : t.work.claims (pendingQueueItemId input.id) = none := by rw [h.claims, hunowned]
      exact (congrArg _ hnone.symm).trans (Function.update_eq_self ..)
  have hcursor' : cursor = it.cursor := by
    have hknown := h.grows _ _ (hinv.known _ it hit)
    rw [hevent] at hknown
    exact Option.some.inj (hcursor.symm.trans (hrecorded.grows _ _ hknown))
  rw [hnone] at ht'
  refine ⟨hgone, _, _, h.add hne hnone
    (i := Work.Item.moved (decision.item input) cursor .available none) ⟨hname, rfl, rfl, rfl⟩
    hevent.symm hcursor' (fun y hy => ?_) hgone ?_ ?_ ?_ hrecorded.grows⟩
  · rw [ht']
    by_cases hyx : y = decision.queueItemId
    · subst hyx
      simp
    · simp [Function.update_of_ne hyx, hv y hy]
  · rw [ht']
    rfl
  · rw [ht']
    exact hclaims
  · rw [ht']
    exact hcleared.attempts_eq

/-- The items of a fan-out are recorded, one after the other. -/
theorem Fanned.records (hinv : w.Inv) (hit : w.items (pendingQueueItemId input.id) = some it)
    (hunrouted : it.Unrouted) (hunowned : w.claims (pendingQueueItemId input.id) = none)
    (hnames : ∀ d ∈ decisions, d.queueItemId = queueItemId input.id d.agentId)
    (hgone : t.work.items (pendingQueueItemId input.id) = none)
    (h : ∃ opened opens, Fanned w t.work (pendingQueueItemId input.id) it key opened opens)
    (hbatch : appendBatch sameLogicalEvent t
      (List.zipWith (availableForRoute input) identities decisions) = .ok (retained, t')) :
    t'.work.items (pendingQueueItemId input.id) = none ∧
      ∃ opened opens, Fanned w t'.work (pendingQueueItemId input.id) it key opened opens := by
  induction identities generalizing t decisions retained with
  | nil =>
    cases hbatch
    exact ⟨hgone, h⟩
  | cons identity identities ih =>
    cases decisions with
    | nil =>
      cases hbatch
      exact ⟨hgone, h⟩
    | cons decision decisions =>
      rw [List.forall_mem_cons] at hnames
      simp only [List.zipWith_cons_cons, appendBatch, ok_iff, pair_iff] at hbatch
      obtain ⟨_, u, hfirst, _, _, hrest, -, rfl⟩ := hbatch
      rcases appendCandidate_ok hfirst with ⟨-, rfl, -⟩ | ⟨-, hrecorded⟩
      · exact ih hnames.2 hgone h hrest
      · obtain ⟨opened, opens, hfanned⟩ := h
        obtain ⟨hgone, h⟩ := hfanned.record hinv hit hunrouted hunowned hnames.1 hrecorded
        exact ih hnames.2 hgone h hrest

/-- Several agents take an event. -/
theorem steps_fanOut (hinv : s.work.Inv)
    (hit : s.work.items (pendingQueueItemId input.id) = some it) (hunrouted : it.Unrouted)
    {first second : RuntimeEventIdentity}
    (hnames : ∀ d ∈ decision :: decisions, d.queueItemId = queueItemId input.id d.agentId)
    (h : appendBatch sameLogicalEvent s
      (closePending input first .completed :: List.zipWith (availableForRoute input)
      (second :: identities) (decision :: decisions)) = .ok (retained, s')) :
    Work.Steps G s.work s'.work := by
  have hunowned : s.work.claims (pendingQueueItemId input.id) = none := by
    by_contra howned
    exact (hinv.open_of_owned hit howned).2 hunrouted.1
  rw [List.forall_mem_cons] at hnames
  simp only [List.zipWith_cons_cons, appendBatch, ok_iff, pair_iff] at h
  obtain ⟨_, t, hclose, _, _, ⟨_, u, hfirst, _, _, hrest, -, rfl⟩, -, rfl⟩ := h
  have hmoves := moves_queueLifecycleEvent first input
    ⟨pendingQueueItemId input.id, "", .completed, none, none, []⟩
  have hevent := hinv.event_of_unrouted hit hunrouted
  have hclosed := recorded_of_unrouted hinv hit hunrouted hmoves hevent.symm hclose
  have ht := hclosed.moved_pending hinv hit hunrouted hmoves rfl rfl hunrouted.2.symm
  have hstart : Fanned s.work t.work (pendingQueueItemId input.id) it
      (closePending input first .completed).idempotencyKey (fun _ => none) [] := by
    refine ⟨fun x hx => ?_, fun i hi => ?_, fun _ _ h => absurd h (by simp), fun _ => ?_, ?_, ?_,
      ?_, hclosed.grows⟩
    · rw [ht]
      exact Function.update_of_ne hx ..
    · rw [ht] at hi
      dsimp only at hi
      rw [Function.update_self, Option.some.injEq] at hi
      rw [← hi]
      exact hunrouted.2
    · simp
    · rw [ht]
      rfl
    · rw [ht]
    · rw [ht]
  -- Nothing about the event was logged but its end, so the first item is recorded.
  have hopened : Recorded t (availableForRoute input second decision) u := by
    refine recorded_of_unlogged (fun _ _ => fact_eq_of_sameLogicalEvent) hfirst
      (moves_availableForRoute input second decision).fact_eq fun hlogged => ?_
    rw [hstart.log, List.mem_append, List.mem_singleton] at hlogged
    rcases hlogged with hlogged | hlogged
    · exact hinv.unlogged _ it hit hunrouted.1 _ hlogged hevent.symm
    · obtain ⟨-, -, hstatus, -⟩ := Work.Fact.queue.inj hlogged
      cases hstatus
  obtain ⟨hgone, hfanned⟩ := hstart.record hinv hit hunrouted hunowned hnames.1 hopened
  obtain ⟨hgone, opened, opens, hfanned⟩ :=
    Fanned.records hinv hit hunrouted hunowned hnames.2 hgone hfanned hrest
  exact .single (hfanned.step hit hunrouted hunowned hgone)

/-- The items of a plan for several agents are named after the agents. -/
theorem queueItemId_of_routeEvent (h : routeEvent event routes = .ok decisions)
    (hlength : decisions.length ≠ 1) (hdecision : decision ∈ decisions) :
    decision.queueItemId = queueItemId event.id decision.agentId := by
  have hroutes {routes : List Route} {decisions : List RouteDecision}
      (h : routeDecisions event routes = .ok decisions) :
      ∀ d ∈ decisions, d.queueItemId = queueItemId event.id d.agentId := by
    induction routes generalizing decisions with
    | nil =>
      cases h
      simp
    | cons route routes ih =>
      unfold routeDecisions at h
      split at h
      · simp only [Route.decide, ok_iff] at h
        obtain ⟨first, ⟨_, -, rfl⟩, rest, hrest, rfl⟩ := h
        rw [List.forall_mem_cons]
        exact ⟨rfl, ih hrest⟩
      · exact ih h
  simp only [routeEvent, ok_iff] at h
  obtain ⟨all, hall, rfl⟩ := h
  rcases all with _ | ⟨first, _ | ⟨second, rest⟩⟩
  · cases hdecision
  · exact absurd rfl hlength
  · exact hroutes hall _ hdecision

/-- Routing is one step, or resolves to an earlier one. -/
theorem steps_routeIngressEvent (hinv : s.work.Inv) {eventId : String} {outcome : RoutingOutcome}
    (h : routeIngressEvent s eventId routes identities = .ok (outcome, s')) :
    Work.Steps G s.work s'.work := by
  simp only [routeIngressEvent, ok_iff] at h
  obtain ⟨_, -, entry, -, decisions, hdecisions, _, hcount, _, -, retained, -, h⟩ := h
  cases retained with
  | some events =>
    cases h
    exact .refl
  | none =>
    simp only [commitRoute, ok_iff, pair_iff] at h
    obtain ⟨_, hpending, events, _, hbatch, -, rfl⟩ := h
    obtain ⟨row, hrow, hstatus⟩ := Option.map_eq_some_iff.mp hpending
    simp only [Prod.mk.injEq] at hstatus
    have hit := work_items_of_find? hrow
    have hdecisions := mapError_ok_iff.mp hdecisions
    have hunrouted : row.toItem.Unrouted := hstatus
    rcases identities with _ | ⟨first, identities⟩
    · split at hcount <;> simp at hcount
    rcases decisions with _ | ⟨decision, _ | ⟨next, decisions⟩⟩
    · simp only [lifecycleForRoute, appendBatch, ok_iff, pair_iff] at hbatch
      obtain ⟨_, _, happend, _, _, ⟨-, rfl⟩, -, rfl⟩ := hbatch
      exact steps_unhandled hinv hit hunrouted happend
    · simp only [lifecycleForRoute, appendBatch, ok_iff, pair_iff] at hbatch
      obtain ⟨_, _, happend, _, _, ⟨-, rfl⟩, -, rfl⟩ := hbatch
      exact steps_bind hinv hit hunrouted happend
    · rcases identities with _ | ⟨second, identities⟩
      · simp at hcount
      · exact steps_fanOut hinv hit hunrouted
          (fun _ => queueItemId_of_routeEvent hdecisions (by simp)) hbatch

end Zeta
