import ZetaRuntime.Replay.History
import ZetaRuntime.Work.Invariants

/-!
# A store as a state of work

`Store.work` forgets everything about a store that the abstract machine does not speak of: of a row
it keeps the columns that decide what may happen next, of the journal the cursors and the facts
about work. The facts are read off the journaled events by their types and three texts of their
payloads. These survive the canonical encoding and are the same for two events with the same
intention, so a fact that was retained instead of inserted is a fact that is in the log already.

Recording an event is then one of a few changes of the state of work. The lemmas below say which,
by the kind of the event. They do not use what the event is recorded for; that is left to the
lemmas about operations.

## Main definitions

* `Store.work` — the state of work a store is in
* `Work.Arrived`, `Work.Cleared` — other events arrived, and an unbound row closed

## Main results

* `Recorded.arrived`, `Recorded.moves`, `Recorded.requests`, `Recorded.runs`, `Recorded.ends` — what
  recording an event does to it, by kind
-/

namespace Zeta

open Outcome

variable {G : Guard}

variable {a b e event : Event} {entry : JournalEntry} {status : QueueItemStatus} {s : Store}
  {id input q : String} {it : Work.Item} {cursor : ℕ}

/-! ### The abstraction -/

/-- A queue row as an item. -/
def QueueItemRow.toItem (row : QueueItemRow) : Work.Item where
  event := row.eventId
  agent := row.targetAgent
  session := row.sessionId
  revision := row.projectRevision
  cursor := row.inputCursor
  status := row.status
  cancelRequested := row.cancelRequestedEventId.isSome
  attempts := row.attemptCount

/-- The owner a claim row names. -/
def QueueClaimRow.toClaim (row : QueueClaimRow) : Work.Claim := ⟨row.workerName, row.claimToken⟩

/-- An attempt row as an attempt. -/
def AttemptRow.toAttempt (row : AttemptRow) : Work.Attempt where
  item := row.queueItemId
  event := row.eventId
  number := row.attemptNumber
  status := row.status
  session := row.sessionId

/-- A text of a payload, empty if it is missing. -/
def Event.text (event : Event) (field : String) : String := (event.payload.text field).getD ""

/-- What a journaled event says about work. -/
def Event.fact (event : Event) : Option Work.Fact :=
  match eventKind event.eventType with
  | .queueItem => (QueueItemStatus.fromStr (lastSegment event.eventType)).map fun status =>
    .queue (event.text "queue_item_id") (event.text "event_id") status event.idempotencyKey
  | .cancelRequested => some (.requested (event.text "queue_item_id") (event.text "event_id"))
  | .attempt => (attemptStatusOfType (lastSegment event.eventType)).map fun status =>
    .attempt (event.text "attempt_id") (event.text "queue_item_id") (event.text "event_id") status
  | .effect | .wait | .deferredPublication | .ingress | .unprojected => none

/-- The state of work a store is in. -/
def Store.work (s : Store) : Work where
  items q := (s.projections.queueItems.find? q).map QueueItemRow.toItem
  claims q := (s.projections.queueClaims.find? q).map QueueClaimRow.toClaim
  attempts id := (s.projections.attempts.find? id).map AttemptRow.toAttempt
  cursors := cursorOf s.journal
  log := s.journal.filterMap (·.event.fact)

theorem work_empty : Store.empty.work = Work.empty := rfl

theorem work_items_of_find? {row : QueueItemRow} (h : s.projections.queueItems.find? q = some row) :
    s.work.items q = some row.toItem := by
  simp [Store.work, h]

theorem find?_of_work_items (h : s.work.items q = some it) :
    ∃ row, s.projections.queueItems.find? q = some row ∧ row.toItem = it :=
  Option.map_eq_some_iff.mp h

theorem work_attempts_of_mem {row : AttemptRow} (h : row ∈ s.projections.attempts) :
    s.work.attempts row.attemptId = some row.toAttempt := by
  simp [Store.work, Table.find?_of_mem h]

/-- Events of the same type with the same texts and key say the same. -/
theorem Event.fact_congr (htype : a.eventType = b.eventType)
    (htext : ∀ field, a.payload.text field = b.payload.text field)
    (hkey : a.idempotencyKey = b.idempotencyKey) : a.fact = b.fact := by
  simp only [Event.fact, Event.text, htype, htext, hkey]

/-- A queue fact carries the key of its event. -/
theorem Event.key_of_fact {e : String} {key : Option String}
    (h : event.fact = some (.queue q e status key)) : event.idempotencyKey = key := by
  unfold Event.fact at h
  split at h <;> simp_all

theorem ReadsBack.fact_eq [FloatText] {event' : Event} (h : ReadsBack event event') :
    event'.fact = event.fact :=
  Event.fact_congr h.eventType_eq h.text_eq h.idempotencyKey_eq

theorem fact_eq_of_sameLifecycleIntention (h : sameLifecycleIntention a b = true) :
    a.fact = b.fact := by
  simp only [sameLifecycleIntention, Bool.and_eq_true, decide_eq_true_eq] at h
  exact Event.fact_congr h.1.1.1.1.1.1.1 (Map.text_eq_of_same h.1.1.1.1.1.2) h.1.1.1.1.2

theorem fact_eq_of_sameLogicalEvent (h : sameLogicalEvent a b = true) : a.fact = b.fact := by
  simp only [sameLogicalEvent, Bool.and_eq_true, decide_eq_true_eq] at h
  exact Event.fact_congr h.1.1.1.1.1.1.1.1.2 (Map.text_eq_of_same h.1.1.1.1.1.1.2) h.1.1.1.1.1.2

/-! ### Journals -/

theorem mem_log_of_fact (hentry : entry ∈ s.journal) {fact : Work.Fact}
    (h : entry.event.fact = some fact) : fact ∈ s.work.log :=
  List.mem_filterMap.mpr ⟨entry, hentry, h⟩

theorem entry_of_mem_log {fact : Work.Fact} (h : fact ∈ s.work.log) :
    ∃ entry ∈ s.journal, entry.event.fact = some fact :=
  List.mem_filterMap.mp h

section Recorded

variable [Platform] {s s' : Store} {event : Event}

/-- A recorded event gets the next cursor. -/
theorem Recorded.cursors_eq (h : Recorded s event s') :
    s'.work.cursors = Function.update s.work.cursors event.id (some (nextCursor s.journal)) := by
  obtain ⟨projected, ⟨hfresh, -⟩, -⟩ := id h
  obtain ⟨entry, -, hjournal, hback, hentry, -⟩ := h.entry
  have hid : entry.stored.event.id = event.id := by rw [hback.id_eq, hentry]
  have hcursor : entry.stored.cursor = nextCursor s.journal := by
    rw [JournalEntry.cursor, hback.cursor_eq, hentry]
    rfl
  funext x
  simp only [Store.work, cursorOf, hjournal, List.find?_append]
  by_cases hx : x = event.id
  · subst hx
    have hnone : (s.journal.find? fun entry => decide (entry.event.id = event.id)) = none := by
      simpa using hfresh
    simp [hnone, hid, hcursor]
  · have hne : ¬entry.stored.event.id = x := by rw [hid]; exact fun he => hx he.symm
    simp [Function.update_of_ne hx, cursorOf, hne]

/-- A recorded event is new, and newer than all others. -/
theorem Recorded.newest (h : Recorded s event s') (hs : Ordered s.journal) :
    s.work.Newest event.id (nextCursor s.journal) where
  unknown := by
    obtain ⟨projected, ⟨hfresh, -⟩, -⟩ := h
    simpa [Store.work, cursorOf] using hfresh
  newest other c hc := by
    obtain ⟨entry, hentry, rfl⟩ := Option.map_eq_some_iff.mp hc
    exact hs entry (List.mem_of_find?_eq_some hentry)

/-- What was known stays known. -/
theorem Recorded.grows (h : Recorded s event s') : Work.Grows s.work.cursors s'.work.cursors := by
  obtain ⟨projected, ⟨hfresh, -⟩, -⟩ := id h
  intro x c hx
  rw [h.cursors_eq, Function.update_of_ne, hx]
  rintro rfl
  obtain ⟨entry, hentry, -⟩ := Option.map_eq_some_iff.mp hx
  have := hfresh entry (List.mem_of_find?_eq_some hentry)
  simp only [ne_eq] at this
  exact this (by simpa using List.find?_some hentry)

/-- A recorded event adds its fact to the log. -/
theorem Recorded.log_eq (h : Recorded s event s') :
    s'.work.log = s.work.log ++ event.fact.toList := by
  obtain ⟨entry, -, hjournal, hback, hentry, -⟩ := h.entry
  have hfact : entry.stored.event.fact = event.fact := by
    rw [hback.fact_eq, hentry]
    exact Event.fact_congr rfl (fun _ => rfl) rfl
  simp only [Store.work, hjournal, List.filterMap_append]
  cases hevent : event.fact <;> simp [hfact, hevent]

/-- The key of a recorded event was not in use. -/
theorem Recorded.fresh_key (h : Recorded s event s') {key : String}
    (hkey : event.idempotencyKey = some key) (hentry : entry ∈ s.journal) :
    entry.event.idempotencyKey ≠ some key := by
  obtain ⟨projected, ⟨-, hfresh, -⟩, -⟩ := h
  exact hfresh key hkey entry hentry

/-- Recording changes cursors and log as it always does. -/
theorem Recorded.work_eq (h : Recorded s event s') {items : String → Option Work.Item}
    {claims : String → Option Work.Claim} {attempts : String → Option Work.Attempt}
    (hitems : s'.work.items = items) (hclaims : s'.work.claims = claims)
    (hattempts : s'.work.attempts = attempts) :
    s'.work = ⟨items, claims, attempts, s'.work.cursors, s.work.log ++ event.fact.toList⟩ :=
  Work.ext hitems hclaims hattempts rfl h.log_eq

end Recorded

/-! ### Events that are not about work -/

theorem Event.fact_eq_none (h : (eventKind event.eventType).ofWork = false) :
    event.fact = none := by
  unfold Event.fact
  cases hkind : eventKind event.eventType <;> simp_all [EventKind.ofWork]

/-- Events that are not about work have arrived. Neither attempts nor the log play a part in that,
so the steps can be taken whatever these are. -/
structure Work.Arrived (w w' : Work) : Prop where
  claims : w'.claims = w.claims
  attempts : w'.attempts = w.attempts
  log : w'.log = w.log
  keeps : ∀ q it, w.items q = some it → w'.items q = some it
  grows : Work.Grows w.cursors w'.cursors
  steps : ∀ G attempts log, Work.Steps G { w with attempts, log } { w' with attempts, log }

namespace Work

variable {w w' w'' : Work}

theorem Arrived.refl (w : Work) : Arrived w w :=
  ⟨rfl, rfl, rfl, fun _ _ => id, fun _ _ => id, fun _ _ _ => .refl⟩

theorem Arrived.trans (h : Arrived w w') (h' : Arrived w' w'') : Arrived w w'' where
  claims := h'.claims.trans h.claims
  attempts := h'.attempts.trans h.attempts
  log := h'.log.trans h.log
  keeps q it hit := h'.keeps q it (h.keeps q it hit)
  grows e c hc := h'.grows e c (h.grows e c hc)
  steps G attempts log := (h.steps G attempts log).trans (h'.steps G attempts log)

theorem Arrived.toSteps (h : Arrived w w') (G : Guard) : Steps G w w' := by
  have hsteps := h.steps G w.attempts w.log
  have heq : { w' with attempts := w.attempts, log := w.log } = w' :=
    Work.ext rfl rfl h.attempts.symm rfl h.log.symm
  rwa [heq] at hsteps

theorem Newest.grows {event : String} (h : w.Newest event cursor) :
    Grows w.cursors (Function.update w.cursors event (some cursor)) := by
  intro e c hc
  rw [Function.update_of_ne, hc]
  rintro rfl
  simp [h.unknown] at hc

theorem arrived_note {event : String} (h : w.Newest event cursor) :
    Arrived w { w with cursors := Function.update w.cursors event (some cursor) } where
  claims := rfl
  attempts := rfl
  log := rfl
  keeps _ _ := id
  grows := h.grows
  steps _ _ _ := .single (.note ⟨h.unknown, h.newest⟩)

theorem arrived_arrive {event : String} (h : w.Newest event cursor)
    (hfree : w.items (pendingQueueItemId event) = none) :
    Arrived w { w with
      cursors := Function.update w.cursors event (some cursor)
      items := Function.update w.items (pendingQueueItemId event)
        (some (Item.unbound event cursor)) } where
  claims := rfl
  attempts := rfl
  log := rfl
  keeps q it hit := by
    have hne : q ≠ pendingQueueItemId event := by
      rintro rfl
      simp [hfree] at hit
    exact (Function.update_of_ne hne ..).trans hit
  grows := h.grows
  steps _ _ _ := .single (.arrive ⟨h.unknown, h.newest⟩ hfree)

end Work

section Recorded

variable [Platform] {s s' : Store} {event : Event}

/-- Recording an event of another kind leaves the state of work alone. -/
theorem Recorded.work_eq_of_quiet (h : Recorded s event s')
    (hkind : (eventKind event.eventType).ofWork = false)
    (hingress : eventKind event.eventType ≠ .ingress) :
    s'.work = { s.work with cursors := s'.work.cursors } := by
  obtain ⟨entry, -, -, -, hentry, hindex⟩ := h.entry
  have htype : entry.event.eventType = event.eventType := by rw [hentry]
  have hframe := indexEvent_frame hindex
  rw [htype] at hframe
  have htables : s'.projections.queueItems = s.projections.queueItems ∧
      s'.projections.queueClaims = s.projections.queueClaims ∧
      s'.projections.attempts = s.projections.attempts := by
    cases hk : eventKind event.eventType with
    | effect | wait | deferredPublication =>
      rw [hk] at hframe
      obtain ⟨_, hp⟩ := hframe
      simp [hp]
    | unprojected =>
      rw [hk] at hframe
      simp [show s'.projections = s.projections from hframe]
    | ingress => exact absurd hk hingress
    | cancelRequested | queueItem | attempt => simp [hk, EventKind.ofWork] at hkind
  obtain ⟨hitems, hclaims, hattempts⟩ := htables
  rw [h.work_eq rfl rfl rfl, Event.fact_eq_none hkind, Option.toList_none, List.append_nil]
  simp only [Store.work, hitems, hclaims, hattempts]

/-- Recording an event that opens work opens its unbound item, unless the name is taken. -/
theorem Recorded.work_eq_of_ingress (h : Recorded s event s')
    (hkind : eventKind event.eventType = .ingress) :
    s'.work = { s.work with cursors := s'.work.cursors } ∨
      s.work.items (pendingQueueItemId event.id) = none ∧
        s'.work = { s.work with
          cursors := s'.work.cursors
          items := Function.update s.work.items (pendingQueueItemId event.id)
            (some (Work.Item.unbound event.id (nextCursor s.journal))) } := by
  obtain ⟨entry, -, -, -, hentry, hindex⟩ := h.entry
  have hnone : event.fact = none := Event.fact_eq_none (by simp [hkind, EventKind.ofWork])
  simp only [indexEvent, hentry, hkind, indexPendingQueueItem_ok_iff] at hindex
  obtain ⟨cursor, hcursor, -, -, -, ⟨-, hp⟩ | ⟨hfree, -, hp⟩⟩ := hindex
  · refine .inl ?_
    rw [h.work_eq rfl rfl rfl, hnone, Option.toList_none, List.append_nil]
    simp only [Store.work, hp]
  · obtain rfl : nextCursor s.journal = cursor := Option.some.inj hcursor
    refine .inr ⟨by simp [Store.work, hfree], ?_⟩
    rw [h.work_eq rfl rfl rfl, hnone, Option.toList_none, List.append_nil]
    simp only [Store.work, hp, Table.find?_upsert]
    congr 1
    funext q
    by_cases hq : q = pendingQueueItemId event.id
    · subst hq
      simp [pendingRow, QueueItemRow.toItem, Work.Item.unbound]
    · have hne : ¬(pendingRow { event with cursor := some (nextCursor s.journal) }
          (nextCursor s.journal)).queueItemId = q := fun he => hq he.symm
      simp [Function.update_of_ne hq, hne]

/-- Recording an event that is not about work is an arrival. -/
theorem Recorded.arrived (h : Recorded s event s') (hs : Ordered s.journal)
    (hkind : (eventKind event.eventType).ofWork = false) : s.work.Arrived s'.work := by
  have hnew := h.newest hs
  by_cases hingress : eventKind event.eventType = .ingress
  · rcases h.work_eq_of_ingress hingress with heq | ⟨hfree, heq⟩
    · rw [heq, h.cursors_eq]
      exact Work.arrived_note hnew
    · rw [heq, h.cursors_eq]
      exact Work.arrived_arrive hnew hfree
  · rw [h.work_eq_of_quiet hkind hingress, h.cursors_eq]
    exact Work.arrived_note hnew

end Recorded

/-! ### Queue facts -/

namespace Work

/-- What a fact about an item does to the unbound row of its event: it closes it, if the row is
another one and has no agent. -/
def Cleared (w : Work) (q event : String) (v : Work) : Prop :=
  v = w ∨ q ≠ pendingQueueItemId event ∧ ∃ it, w.items (pendingQueueItemId event) = some it ∧
    it.agent = "" ∧ v = { w with
      items := Function.update w.items (pendingQueueItemId event) none
      claims := Function.update w.claims (pendingQueueItemId event) none }

namespace Cleared

variable {w v : Work} {q event : String}

theorem items_self (h : w.Cleared q event v) : v.items q = w.items q := by
  rcases h with rfl | ⟨hne, -, -, -, rfl⟩
  · rfl
  · exact Function.update_of_ne hne ..

theorem claims_self (h : w.Cleared q event v) : v.claims q = w.claims q := by
  rcases h with rfl | ⟨hne, -, -, -, rfl⟩
  · rfl
  · exact Function.update_of_ne hne ..

theorem attempts_eq (h : w.Cleared q event v) : v.attempts = w.attempts := by
  rcases h with rfl | ⟨-, -, -, -, rfl⟩ <;> rfl

theorem cursors_eq (h : w.Cleared q event v) : v.cursors = w.cursors := by
  rcases h with rfl | ⟨-, -, -, -, rfl⟩ <;> rfl

theorem log_eq (h : w.Cleared q event v) : v.log = w.log := by
  rcases h with rfl | ⟨-, -, -, -, rfl⟩ <;> rfl

/-- Closing a row has nothing to do with attempts and the log. -/
theorem rebase (h : w.Cleared q event v) (attempts : String → Option Attempt) (log : List Fact) :
    Cleared { w with attempts, log } q event { v with attempts, log } := by
  rcases h with rfl | ⟨hne, it, hit, hagent, rfl⟩
  · exact .inl rfl
  · exact .inr ⟨hne, it, hit, hagent, rfl⟩

/-- Closing a row is a step, if the row is not waiting for its route. -/
theorem steps (h : w.Cleared q event v)
    (hallowed : ∀ it, w.items (pendingQueueItemId event) = some it → it.status = .pending → q =
      pendingQueueItemId event ∨ G.rebind) : Steps G w v := by
  rcases h with rfl | ⟨hne, it, hit, hagent, rfl⟩
  · exact .refl
  · exact .single (.discard hit hagent fun hpending =>
      (hallowed it hit hpending).resolve_left hne)

/-- A fact about an item that is there closes no row that waits for its route. -/
theorem steps_of_present (h : w.Cleared q event v) (hinv : Shape w) {it : Item}
    (hit : w.items q = some it) (hevent : it.event = event) : Steps G w v := by
  refine h.steps fun other hother hpending => .inl ?_
  have hname := (hinv.unbound _ other hother hpending).2
  have hsame : it.event = other.event := by
    rw [hevent]
    simpa [pendingQueueItemId] using hname
  exact hinv.sole _ other hother hpending q it hit hsame

end Cleared

/-- An item after a fact, from what there was and what the fact says. -/
def Item.moved (new : Item) (cursor : ℕ) (status : QueueItemStatus) : Option Item → Item
  | none => { new with cursor, status, cancelRequested := false, attempts := 0 }
  | some it => { it with
      agent := new.agent
      session := new.session.or it.session
      revision := new.revision.or it.revision
      cursor
      status }

end Work

/-- The event says that an item moves to a status, and what of the item a queue fact repeats. -/
structure Event.Moves (e : Event) (q : String) (it : Work.Item) (status : QueueItemStatus) :
    Prop where
  kind : eventKind e.eventType = .queueItem
  status : QueueItemStatus.fromStr (lastSegment e.eventType) = some status
  item : e.payload.text "queue_item_id" = some q
  event : e.payload.text "event_id" = some it.event
  agent : e.payload.text "target_agent" = some it.agent
  session : (e.payload.text "session_id").or e.sessionId = it.session
  revision : e.payload.text "project_revision" = it.revision

theorem Event.Moves.fact_eq (h : event.Moves q it status) :
    event.fact = some (.queue q it.event status event.idempotencyKey) := by
  simp [Event.fact, Event.text, h.kind, h.status, h.item, h.event]

/-- Closing the unbound row, abstractly. -/
theorem cleared_of_closePendingRouteBarrier (journal : List JournalEntry) {event : String}
    {p closed : Projections} (h : closePendingRouteBarrier q event p = .ok closed) :
    (Store.work ⟨journal, p⟩).Cleared q event (Store.work ⟨journal, closed⟩) := by
  rcases closePendingRouteBarrier_ok_iff.mp h with ⟨-, rfl⟩ | ⟨⟨hne, row, hrow, hagent⟩, -, rfl⟩
  · exact .inl rfl
  refine .inr ⟨hne, row.toItem, by simp [Store.work, hrow], hagent, ?_⟩
  simp only [Store.work, Projections.deleteQueueItem, Projections.deleteClaimsWhere,
    Table.find?_deleteWhere, Work.mk.injEq, and_true]
  constructor
  · funext x
    by_cases hx : x = pendingQueueItemId event
    · subst hx
      cases hfind : p.queueItems.find? (pendingQueueItemId event) with
      | none => simp
      | some r => simp [Option.filter, Table.key_of_find? hfind]
    · rw [Function.update_of_ne hx]
      cases hfind : p.queueItems.find? x with
      | none => simp
      | some r => simp [Option.filter, Table.key_of_find? hfind, hx]
  · funext x
    by_cases hx : x = pendingQueueItemId event
    · subst hx
      cases hfind : p.queueClaims.find? (pendingQueueItemId event) with
      | none => simp
      | some r => simp [Option.filter, Table.key_of_find? hfind]
    · rw [Function.update_of_ne hx]
      cases hfind : p.queueClaims.find? x with
      | none => simp
      | some r => simp [Option.filter, Table.key_of_find? hfind, hx]

section Recorded

variable [Platform] {s s' : Store} {event : Event}

/-- Recording a queue fact moves its item, or creates it. -/
theorem Recorded.moved (h : Recorded s event s') {new : Work.Item}
    (hmoves : event.Moves q new status) :
    ∃ v cursor, s.work.Cleared q new.event v ∧ s'.work.cursors new.event = some cursor ∧
      (∀ it ∈ s.work.items q, it.event = new.event ∧
        (it.agent = new.agent ∨ it.status = .pending)) ∧
      (QueueItemStatus.canTransition ((s.work.items q).map (·.status)) status = true ∨
        ∃ it ∈ s.work.items q, it.status = .pending) ∧
      s'.work = { v with
        cursors := s'.work.cursors
        items := Function.update v.items q (some (new.moved cursor status (s.work.items q)))
        log := s.work.log ++ [.queue q new.event status event.idempotencyKey] } := by
  obtain ⟨entry, -, -, -, hentry, hindex⟩ := h.entry
  simp only [indexEvent, hentry, hmoves.kind, indexQueueItem_ok_iff] at hindex
  obtain ⟨fact, hread, closed, hclosed, hident, hallowed, -, -, cursor, hcursor, -, hp⟩ := hindex
  have hreads := readQueueFact_reads hread
  obtain rfl : q = fact.queueItemId := Option.some.inj (hmoves.item.symm.trans hreads.queueItemId)
  have hevent : new.event = fact.eventId := Option.some.inj (hmoves.event.symm.trans hreads.eventId)
  have hagent : new.agent = fact.targetAgent :=
    Option.some.inj (hmoves.agent.symm.trans hreads.targetAgent)
  obtain rfl : status = fact.status := Option.some.inj (hmoves.status.symm.trans hreads.status)
  have hsession : fact.sessionId = new.session := hreads.sessionId.trans hmoves.session
  have hrevision : fact.projectRevision = new.revision :=
    hreads.projectRevision.trans hmoves.revision
  have hself := find?_self_of_closePendingRouteBarrier hclosed
  rw [hself] at hident hallowed hp
  have hitems : s.work.items fact.queueItemId
      = (s.projections.queueItems.find? fact.queueItemId).map QueueItemRow.toItem := rfl
  refine ⟨_, cursor, hevent ▸ cleared_of_closePendingRouteBarrier s.journal hclosed,
    hevent ▸ hcursor, ?_, ?_, ?_⟩
  · intro it hit
    rw [hitems, Option.mem_def, Option.map_eq_some_iff] at hit
    obtain ⟨row, hrow, rfl⟩ := hit
    have := hident row hrow
    rw [hevent, hagent]
    exact this
  · rcases hallowed with hexception | hedge
    · cases hrow : s.projections.queueItems.find? fact.queueItemId with
      | none => simp [hrow, pendingException] at hexception
      | some row =>
        simp only [hrow, pendingException, Bool.and_eq_true, decide_eq_true_eq] at hexception
        exact .inr ⟨row.toItem, by simp [hitems, hrow], hexception.1⟩
    · refine .inl ?_
      rw [hitems, Option.map_map]
      exact hedge
  · rw [h.work_eq rfl rfl rfl, hmoves.fact_eq, Option.toList_some]
    simp only [Store.work, hp, Projections.upsertQueueItem, Work.mk.injEq, and_true]
    funext x
    rw [Table.find?_upsert]
    have hkey : (fact.row cursor (s.projections.queueItems.find? fact.queueItemId)).queueItemId
        = fact.queueItemId := by
      cases s.projections.queueItems.find? fact.queueItemId <;> rfl
    rw [hkey]
    by_cases hx : x = fact.queueItemId
    · subst hx
      rw [if_pos rfl, Function.update_self, Option.map_some]
      cases hrow : s.projections.queueItems.find? fact.queueItemId with
      | none =>
        simp [QueueFact.row, QueueItemRow.toItem, Work.Item.moved, hevent, hagent, hsession,
          hrevision]
      | some row =>
        simp [QueueFact.row, QueueItemRow.toItem, Work.Item.moved, hagent, hsession, hrevision,
          (hident row hrow).1]
    · rw [if_neg (fun he => hx he.symm), Function.update_of_ne hx]

/-- Recording a queue fact that repeats what is known of an item changes its status. -/
theorem Recorded.moves (h : Recorded s event s') (hmoves : event.Moves q it status)
    (hit : s.work.items q = some it) (hknown : s.work.cursors it.event = some it.cursor) :
    ∃ v, s.work.Cleared q it.event v ∧
      (QueueItemStatus.canTransition (some it.status) status = true ∨ it.status = .pending) ∧
      s'.work = { v with
        cursors := s'.work.cursors
        items := Function.update v.items q (some { it with status })
        log := s.work.log ++ [.queue q it.event status event.idempotencyKey] } := by
  obtain ⟨v, cursor, hcleared, hcursor, -, hedge, heq⟩ := h.moved hmoves
  obtain rfl : it.cursor = cursor := Option.some.inj ((h.grows _ _ hknown).symm.trans hcursor)
  refine ⟨v, hcleared, ?_, ?_⟩
  · simpa [hit] using hedge
  · rw [heq]
    simp [hit, Work.Item.moved]

/-! ### Cancellation requests -/

/-- The event requests that an item be cancelled. -/
structure Event.Requests (e : Event) (q : String) (it : Work.Item) : Prop where
  kind : eventKind e.eventType = .cancelRequested
  item : e.payload.text "queue_item_id" = some q
  event : e.payload.text "event_id" = some it.event
  agent : e.payload.text "target_agent" = some it.agent

omit [Platform] in
theorem Event.Requests.fact_eq (h : e.Requests q it) : e.fact = some (.requested q it.event) := by
  simp [Event.fact, Event.text, h.kind, h.item, h.event]

/-- Recording a request marks its item. -/
theorem Recorded.requests (h : Recorded s event s') (hrequests : event.Requests q it)
    (hit : s.work.items q = some it) :
    s'.work = { s.work with
      cursors := s'.work.cursors
      items := Function.update s.work.items q (some { it with cancelRequested := true })
      log := s.work.log ++ [.requested q it.event] } := by
  obtain ⟨entry, -, -, -, hentry, hindex⟩ := h.entry
  obtain ⟨row, hrow, rfl⟩ := find?_of_work_items hit
  simp only [indexEvent, hentry, hrequests.kind, indexQueueItemCancelRequested, bind_ok_iff,
    requiredRuntimeId_ok_iff, requiredPayloadString_ok_iff, pure_ok_iff] at hindex
  obtain ⟨x, ⟨hx, -⟩, e, ⟨he, -⟩, a, ⟨ha, -⟩, _, -, _, -, reason, -, _, -, hp⟩ := hindex
  obtain rfl : q = x := Option.some.inj (hrequests.item.symm.trans hx)
  obtain rfl : row.eventId = e := Option.some.inj (hrequests.event.symm.trans he)
  obtain rfl : row.targetAgent = a := Option.some.inj (hrequests.agent.symm.trans ha)
  rw [h.work_eq rfl rfl rfl, hrequests.fact_eq, Option.toList_some]
  simp only [Store.work, ← hp, Table.find?_updateWhere, Work.mk.injEq, and_true]
  funext y
  by_cases hy : y = q
  · subst hy
    simp [hrow, Table.key_of_find? hrow, QueueItemRow.requestCancellation, QueueItemRow.toItem]
  · rw [Function.update_of_ne hy]
    cases hfind : s.projections.queueItems.find? y with
    | none => rfl
    | some other => simp [Table.key_of_find? hfind, hy]

/-! ### Attempt facts -/

/-- The event says that an attempt moves to a status. -/
structure Event.Tries (e : Event) (id q input : String) (status : AttemptStatus) : Prop where
  kind : eventKind e.eventType = .attempt
  status : attemptStatusOfType (lastSegment e.eventType) = some status
  id : e.payload.text "attempt_id" = some id
  item : e.payload.text "queue_item_id" = some q
  input : e.payload.text "event_id" = some input

omit [Platform] in
theorem Event.Tries.fact_eq {status : AttemptStatus} (h : e.Tries id q input status) :
    e.fact = some (.attempt id q input status) := by
  simp [Event.fact, Event.text, h.kind, h.status, h.id, h.item, h.input]

/-- What recording an attempt fact comes down to. -/
theorem Recorded.attemptFact (h : Recorded s event s') {status : AttemptStatus}
    (htries : event.Tries id q input status) :
    ∃ fact : AttemptFact, fact.Says event ∧ fact.attemptId = id ∧ fact.queueItemId = q ∧
      fact.eventId = input ∧ fact.status = status ∧
      fact.Applies s'.journal s.projections s'.projections := by
  obtain ⟨entry, -, -, -, hentry, hindex⟩ := h.entry
  simp only [indexEvent, hentry, htries.kind, indexAttempt_ok_iff] at hindex
  obtain ⟨fact, hread, happlies⟩ := hindex
  have hreads := readAttemptFact_reads hread
  exact ⟨fact, ⟨hreads.1, hreads.2, hreads.3, hreads.4, hreads.5, hreads.6⟩,
    Option.some.inj (hreads.attemptId.symm.trans htries.id),
    Option.some.inj (hreads.queueItemId.symm.trans htries.item),
    Option.some.inj (hreads.eventId.symm.trans htries.input),
    Option.some.inj (hreads.status.symm.trans htries.status), happlies⟩

/-- Recording a start creates an attempt, and counts it. -/
theorem Recorded.runs (h : Recorded s event s') {number : ℕ} (hit : s.work.items q = some it)
    (htries : event.Tries id q it.event .running)
    (hnumber : ∀ n, requiredPositiveU32 event "attempt_number" = .ok n → n = number)
    (hsession : (event.payload.text "session_id").or event.sessionId = it.session) :
    s.work.attempts id = none ∧ s'.work = { s.work with
      cursors := s'.work.cursors
      items := Function.update s.work.items q
        (some { it with attempts := max it.attempts number })
      attempts := Function.update s.work.attempts id
        (some { item := q, event := it.event, number, status := .running, session := it.session })
      log := s.work.log ++ [.attempt id q it.event .running] } := by
  obtain ⟨fact, hreads, rfl, rfl, hevent, hstatus, happlies⟩ := h.attemptFact htries
  obtain ⟨row, hrow, rfl⟩ := find?_of_work_items hit
  obtain rfl : fact.attemptNumber = number := hnumber _ hreads.attemptNumber
  have hnone : s.projections.attempts.find? fact.attemptId = none := by
    cases hfind : s.projections.attempts.find? fact.attemptId with
    | none => rfl
    | some old =>
      have hallowed := happlies.allowed
      rw [hfind, hstatus] at hallowed
      exact absurd rfl (AttemptStatus.canTransition_some hallowed).2
  refine ⟨by simp [Store.work, hnone], ?_⟩
  rw [h.work_eq rfl rfl rfl, htries.fact_eq, Option.toList_some]
  simp only [Store.work, happlies.result, raiseAttemptCount, hstatus, if_true,
    Projections.upsertAttempt, hnone, Table.find?_updateWhere, Table.find?_upsert, Work.mk.injEq,
    true_and, and_true]
  constructor
  · funext x
    by_cases hx : x = fact.queueItemId
    · subst hx
      simp [hrow, Table.key_of_find? hrow, QueueItemRow.toItem]
    · rw [Function.update_of_ne hx]
      cases hfind : s.projections.queueItems.find? x with
      | none => rfl
      | some other => simp [Table.key_of_find? hfind, hx]
  · funext x
    by_cases hx : x = fact.attemptId
    · subst hx
      simp [AttemptFact.row, AttemptRow.toAttempt, hevent, hstatus, hreads.sessionId, hsession]
    · simp [AttemptFact.row, Function.update_of_ne hx, Ne.symm hx]

/-- Recording the end of an attempt changes its status. -/
theorem Recorded.ends (h : Recorded s event s') {status : AttemptStatus}
    (htries : event.Tries id q input status) (hended : status ≠ .running) :
    ∃ a, s.work.attempts id = some a ∧ a.item = q ∧ a.event = input ∧ a.status = .running ∧
      s'.work = { s.work with
        cursors := s'.work.cursors
        attempts := Function.update s.work.attempts id (some { a with status })
        log := s.work.log ++ [.attempt id q input status] } := by
  obtain ⟨fact, -, rfl, rfl, rfl, rfl, happlies⟩ := h.attemptFact htries
  have hallowed := happlies.allowed
  cases hrow : s.projections.attempts.find? fact.attemptId with
  | none =>
    rw [hrow] at hallowed
    exact absurd (AttemptStatus.canTransition_none hallowed) hended
  | some row =>
    rw [hrow] at hallowed
    have hsame := happlies.same row hrow
    simp only [AttemptFact.sameAttempt, Bool.and_eq_true, decide_eq_true_eq] at hsame
    refine ⟨row.toAttempt, by simp [Store.work, hrow], hsame.1.1.1.1, hsame.1.1.1.2,
      (AttemptStatus.canTransition_some hallowed).1, ?_⟩
    rw [h.work_eq rfl rfl rfl, htries.fact_eq, Option.toList_some]
    simp only [Store.work, happlies.result, raiseAttemptCount, if_neg hended,
      Projections.upsertAttempt, hrow, Table.find?_upsert, Work.mk.injEq, true_and, and_true]
    funext x
    by_cases hx : x = fact.attemptId
    · subst hx
      simp [AttemptFact.row, AttemptRow.toAttempt]
    · simp [AttemptFact.row, Function.update_of_ne hx, Ne.symm hx]

/-! ### Appending -/

/-- An append whose fact is not in the log yet records its event. -/
theorem recorded_of_unlogged {same : Event → Event → Bool}
    (hsame : ∀ a b, same a b = true → a.fact = b.fact) {outcome : AppendOutcome}
    (h : appendCandidate same s event = .ok (outcome, s')) {fact : Work.Fact}
    (hfact : event.fact = some fact) (hnew : fact ∉ s.work.log) : Recorded s event s' := by
  rcases appendCandidate_ok h with ⟨-, -, ⟨entry, hentry, heq, -⟩, hs⟩ | ⟨-, hrecorded⟩
  · refine absurd (mem_log_of_fact hentry ?_) hnew
    rw [← heq, ← hsame _ _ hs, hfact]
  · exact hrecorded

/-- Events that are not about work arrive, one after the other. -/
theorem Recordings.arrived (h : Recordings Aside s s') (hs : Ordered s.journal) :
    s.work.Arrived s'.work ∧ Ordered s'.journal := by
  induction h with
  | refl => exact ⟨.refl _, hs⟩
  | tail _ hlast ih =>
    obtain ⟨event, haside, hrecorded⟩ := hlast
    exact ⟨ih.1.trans (hrecorded.arrived ih.2 haside.kind), hrecorded.ordered ih.2⟩

end Recorded

end Zeta
