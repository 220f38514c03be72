import ZetaRuntime.Index.Event

/-!
# Live tables and replayed tables

A rebuild projects the journal onto empty tables. What it gets differs from the live tables in three
ways, and `Agree` names them:

* coordination puts a claimed item back to available without a fact, so a live row may be available
  where the replayed one is still claimed;
* live attempts carry the token and heartbeat of their claim;
* live rows keep objects as the runtime built them, replayed rows as the journal stores them.

`Agree.indexEvent` is the simulation step: a fact the live tables accept is accepted by agreeing
replayed tables, which then still agree. There is one exception, and it is exact. A `claimed` fact
moves an available row; when the replayed row is still claimed, replay has no such edge.
-/

namespace Zeta

open Outcome

variable {event : Event} {journal : List JournalEntry} {params : Map} {fact : QueueFact}
  {live replayed : QueueItemRow} {eventId : String}

/-! ### What a longer journal keeps -/

theorem cursorOf_append {cursor : ℕ} (h : cursorOf journal eventId = some cursor)
    (later : List JournalEntry) : cursorOf (journal ++ later) eventId = some cursor := by
  simp only [cursorOf, Option.map_eq_some_iff] at h ⊢
  obtain ⟨entry, hfind, hcursor⟩ := h
  exact ⟨entry, by rw [List.find?_append, hfind]; rfl, hcursor⟩

theorem journaled_append (h : journaled journal eventId = true) (later : List JournalEntry) :
    journaled (journal ++ later) eventId = true := by
  obtain ⟨cursor, hcursor⟩ := Option.isSome_iff_exists.mp h
  exact Option.isSome_iff_exists.mpr ⟨cursor, cursorOf_append hcursor later⟩

/-! ### Corresponding rows -/

/-- A live queue row and its replayed row: only the status may differ, and only by a lost claim. A
replayed claim is never on an unbound item. -/
structure QueueItemRow.Agrees (live replayed : QueueItemRow) : Prop where
  rest : live = { replayed with status := live.status }
  status : live.status = replayed.status ∨ live.status = .available ∧ replayed.status = .claimed
  bound : replayed.status = .claimed → replayed.targetAgent ≠ ""

/-- A live attempt and its replayed row: only the token and the heartbeat may differ. -/
def AttemptRow.Agrees (live replayed : AttemptRow) : Prop :=
  ∃ claimToken heartbeatAt, live = { replayed with claimToken, heartbeatAt }

section

variable [FloatText]

/-- A live wait and its replayed row, which has the fields in canonical form. -/
structure WaitRow.Agrees (live replayed : WaitRow) : Prop where
  fields : canonicalPayload live.fields = .ok replayed.fields
  rest : live = { replayed with fields := live.fields }

/-- A live publication and its replayed row, which has the payload in canonical form. -/
structure DeferredPublicationRow.Agrees (live replayed : DeferredPublicationRow) : Prop where
  payload : canonicalPayload live.payload = .ok replayed.payload
  rest : live = { replayed with payload := live.payload }
  unclaimed : replayed.status ≠ .claimed

/-- A live effect and its replayed row, which has parameters and result in canonical form. -/
structure EffectRow.Agrees (live replayed : EffectRow) : Prop where
  params : canonicalPayload live.params = .ok replayed.params
  result : Option.Rel (fun a b => canonicalPayload a = .ok b) live.result replayed.result
  rest : live = { replayed with params := live.params, result := live.result }

/-- Live tables and tables replayed from their journal. -/
structure Agree (live replayed : Projections) : Prop where
  queueItems : Table.Matches QueueItemRow.Agrees live.queueItems replayed.queueItems
  attempts : Table.Matches AttemptRow.Agrees live.attempts replayed.attempts
  waits : Table.Matches WaitRow.Agrees live.waits replayed.waits
  deferredPublications : Table.Matches DeferredPublicationRow.Agrees live.deferredPublications
    replayed.deferredPublications
  effects : Table.Matches EffectRow.Agrees live.effects replayed.effects
  noClaims : replayed.queueClaims = .empty
  noLocks : replayed.locks = .empty
  noEffectClaims : replayed.effectClaims = .empty

end

namespace QueueItemRow.Agrees

variable {live replayed : QueueItemRow}

theorem queueItemId_eq (h : live.Agrees replayed) : live.queueItemId = replayed.queueItemId := by
  rw [h.rest]

theorem eventId_eq (h : live.Agrees replayed) : live.eventId = replayed.eventId := by
  rw [h.rest]

theorem targetAgent_eq (h : live.Agrees replayed) : live.targetAgent = replayed.targetAgent := by
  rw [h.rest]

theorem cancelRequestedEventId_eq (h : live.Agrees replayed) :
    live.cancelRequestedEventId = replayed.cancelRequestedEventId := by
  rw [h.rest]

/-- A live row that is neither available nor claimed has the replayed status. -/
theorem status_eq_iff (h : live.Agrees replayed) (status : QueueItemStatus)
    (havailable : status ≠ .available) (hclaimed : status ≠ .claimed) :
    live.status = status ↔ replayed.status = status := by
  rcases h.status with heq | ⟨hlive, hreplayed⟩
  · rw [heq]
  · simp only [hlive, hreplayed, Ne.symm havailable, Ne.symm hclaimed]

end QueueItemRow.Agrees

/-- A row agrees with itself, unless it is a claim on an unbound item. -/
theorem QueueItemRow.Agrees.refl {row : QueueItemRow}
    (h : row.status = .claimed → row.targetAgent ≠ "") : row.Agrees row :=
  ⟨rfl, .inl rfl, h⟩

/-! ### Queue facts -/

/-- A fact leaves the same row behind on both sides: it sets the status. -/
theorem QueueFact.row_eq_of_agrees (fact : QueueFact) (cursor : ℕ) (h : live.Agrees replayed) :
    fact.row cursor (some live) = fact.row cursor (some replayed) := by
  rw [h.rest]
  rfl

/-- An edge the live row may take is one the replayed row may take, except a second claim. -/
theorem QueueFact.Allowed.of_agrees (h : live.Agrees replayed)
    (hallowed : fact.Allowed (some live)) :
    fact.Allowed (some replayed) ∨ fact.status = .claimed ∧ replayed.status = .claimed := by
  have hpending := h.status_eq_iff .pending (by decide) (by decide)
  have hexception (q e t : String) (status : QueueItemStatus) :
      pendingException (some live) q e t status = pendingException (some replayed) q e t
        status := by
    simp only [pendingException, hpending, h.cancelRequestedEventId_eq]
  rcases hallowed with hex | hcan
  · exact .inl (.inl (by rwa [← hexception]))
  · rcases h.status with heq | ⟨hlive, hreplayed⟩
    · exact .inl (.inr (by simpa only [Option.map_some, heq] using hcan))
    · -- The live row lost its claim: it may be claimed again or cancelled.
      simp only [Option.map_some, hlive, QueueItemStatus.canTransition, decide_eq_true_eq] at hcan
      rcases hcan with hclaimed | hcancelled
      · exact .inr ⟨hclaimed, hreplayed⟩
      · refine .inl (.inr ?_)
        simp [hreplayed, QueueItemStatus.canTransition, hcancelled]

namespace Agree

variable [FloatText] {live live' replayed : Projections}

section

variable (h : Agree live replayed)
include h

theorem withQueueItems {items items' : Table QueueItemRow.queueItemId}
    (hitems : Table.Matches QueueItemRow.Agrees items items') :
    Agree { live with queueItems := items } { replayed with queueItems := items' } :=
  { h with queueItems := hitems }

theorem withWaits {waits waits' : Table WaitRow.handle}
    (hwaits : Table.Matches WaitRow.Agrees waits waits') :
    Agree { live with waits } { replayed with waits := waits' } :=
  { h with waits := hwaits }

theorem withDeferredPublications {publications publications' : Table DeferredPublicationRow.handle}
    (hpublications : Table.Matches DeferredPublicationRow.Agrees publications publications') :
    Agree { live with deferredPublications := publications }
      { replayed with deferredPublications := publications' } :=
  { h with deferredPublications := hpublications }

theorem withEffects {effects effects' : Table EffectRow.effectKey}
    (heffects : Table.Matches EffectRow.Agrees effects effects') :
    Agree { live with effects } { replayed with effects := effects' } :=
  { h with effects := heffects }

theorem find?_queueItem (id : String) :
    Option.Rel QueueItemRow.Agrees (live.queueItems.find? id) (replayed.queueItems.find? id) :=
  h.queueItems.find? (fun _ _ hrow => hrow.queueItemId_eq) id

theorem closes_iff (queueItemId inputEventId : String) :
    live.Closes queueItemId inputEventId ↔ replayed.Closes queueItemId inputEventId := by
  have hrow := h.find?_queueItem (pendingQueueItemId inputEventId)
  simp only [Projections.Closes]
  generalize live.queueItems.find? (pendingQueueItemId inputEventId) = a,
    replayed.queueItems.find? (pendingQueueItemId inputEventId) = b at hrow
  cases hrow with
  | none => simp
  | some hab => simp [hab.targetAgent_eq]

theorem deleteQueueItem (id : String) :
    Agree (live.deleteQueueItem id) (replayed.deleteQueueItem id) where
  queueItems := h.queueItems.deleteWhere fun _ _ hrow => by rw [hrow.queueItemId_eq]
  attempts := h.attempts
  waits := h.waits
  deferredPublications := h.deferredPublications
  effects := h.effects
  noClaims := by
    simp only [Projections.deleteQueueItem, Projections.deleteClaimsWhere, h.noClaims]
    rfl
  noLocks := by
    simp only [Projections.deleteQueueItem, Projections.deleteClaimsWhere, h.noLocks]
    rfl
  noEffectClaims := h.noEffectClaims

theorem closePendingRouteBarrier {queueItemId inputEventId : String}
    (hlive : closePendingRouteBarrier queueItemId inputEventId live = .ok live') :
    ∃ replayed', Zeta.closePendingRouteBarrier queueItemId inputEventId replayed = .ok replayed' ∧
      Agree live' replayed' := by
  rcases closePendingRouteBarrier_ok_iff.mp hlive with ⟨hopen, rfl⟩ | ⟨hcloses, hattempts, rfl⟩
  · rw [h.closes_iff] at hopen
    exact ⟨replayed, closePendingRouteBarrier_ok_iff.mpr (.inl ⟨hopen, rfl⟩), h⟩
  · rw [h.closes_iff] at hcloses
    rw [h.attempts.forall_mem_iff (Q := fun attempt =>
      attempt.queueItemId ≠ pendingQueueItemId inputEventId)
      (by rintro a b ⟨_, _, rfl⟩; rfl)] at hattempts
    exact ⟨_, closePendingRouteBarrier_ok_iff.mpr (.inr ⟨hcloses, hattempts, rfl⟩),
      h.deleteQueueItem _⟩

/-- A queue fact that applies live applies in the replay, except a second claim. -/
theorem applies_queueFact (happlies : fact.Applies journal live live')
    (hbound : fact.status = .claimed → fact.targetAgent ≠ "") (later : List JournalEntry) :
    (∃ replayed', fact.Applies (journal ++ later) replayed replayed' ∧ Agree live' replayed') ∨
      (fact.status = .claimed ∧ ∃ row, replayed.queueItems.find? fact.queueItemId = some row ∧
        row.status = .claimed) := by
  obtain ⟨closed, hclosed, hidentity, hallowed, htexts, hunique, cursor, hcursor, hpos, rfl⟩ :=
    happlies.step
  obtain ⟨closed', hclosed', hagree⟩ := h.closePendingRouteBarrier hclosed
  have hrow := hagree.find?_queueItem fact.queueItemId
  have hself := find?_self_of_closePendingRouteBarrier hclosed'
  have hunique' := (hagree.queueItems.forall_mem_iff (Q := fun other =>
    other.queueItemId ≠ fact.queueItemId →
      ¬(other.eventId = fact.eventId ∧ other.targetAgent = fact.targetAgent))
    (fun a b hab => by rw [hab.queueItemId_eq, hab.eventId_eq, hab.targetAgent_eq])).mp hunique
  have hfact (row? : Option QueueItemRow) : (fact.row cursor row?).Agrees (fact.row cursor row?) :=
    .refl (by cases row? <;> exact hbound)
  have hupsert {a b : Option QueueItemRow} (hab : fact.row cursor a = fact.row cursor b) :
      Agree (closed.upsertQueueItem (fact.row cursor a))
        (closed'.upsertQueueItem (fact.row cursor b)) :=
    { hagree with
      queueItems := hagree.queueItems.upsert (fun _ _ hr => hr.queueItemId_eq) (hab ▸ hfact a) }
  cases hlive : closed.queueItems.find? fact.queueItemId with
  | none =>
    rw [hlive] at hrow hallowed
    have hreplayed : closed'.queueItems.find? fact.queueItemId = none := by
      cases hr : closed'.queueItems.find? fact.queueItemId with
      | none => rfl
      | some row => rw [hr] at hrow; cases hrow
    refine .inl ⟨_, ⟨closed', hclosed', ?_, ?_, htexts, hunique', cursor,
      cursorOf_append hcursor later, hpos, rfl⟩, ?_⟩
    · simp [hreplayed]
    · rw [hreplayed]; exact hallowed
    · rw [hreplayed]; exact hupsert rfl
  | some row =>
    rw [hlive] at hrow hallowed hidentity
    obtain ⟨row', hreplayed, hagrees⟩ : ∃ row', closed'.queueItems.find? fact.queueItemId =
      some row' ∧
        row.Agrees row' := by
      cases hr : closed'.queueItems.find? fact.queueItemId with
      | none => rw [hr] at hrow; cases hrow
      | some row' => rw [hr] at hrow; cases hrow with | some hab => exact ⟨row', rfl, hab⟩
    rcases hallowed.of_agrees hagrees with hallowed' | ⟨hclaimed, hstatus⟩
    · refine .inl ⟨_, ⟨closed', hclosed', ?_, ?_, htexts, hunique', cursor,
        cursorOf_append hcursor later, hpos, rfl⟩, ?_⟩
      · rintro _ hmem
        obtain rfl : row' = _ := Option.some.inj (hreplayed.symm.trans hmem)
        obtain ⟨hevent, htarget⟩ := hidentity row rfl
        refine ⟨hagrees.eventId_eq ▸ hevent, ?_⟩
        rwa [← hagrees.targetAgent_eq, ← hagrees.status_eq_iff .pending (by decide) (by decide)]
      · rw [hreplayed]; exact hallowed'
      · rw [hreplayed]; exact hupsert (fact.row_eq_of_agrees cursor hagrees)
    · exact .inr ⟨hclaimed, row', hself ▸ hreplayed, hstatus⟩

/-- A cancellation request that is projected live is projected in the replay. -/
theorem indexQueueItemCancelRequested
    (hlive : indexQueueItemCancelRequested event live = .ok live') :
    ∃ replayed', Zeta.indexQueueItemCancelRequested event replayed = .ok replayed' ∧
      Agree live' replayed' := by
  simp only [Zeta.indexQueueItemCancelRequested, ok_iff] at hlive ⊢
  obtain ⟨q, hq, e, he, t, ht, st, hst, v, hv, reason, hreason, _, hcount, rfl⟩ := hlive
  have hselected (a b : QueueItemRow) (hab : a.Agrees b) :
      (decide (a.queueItemId = q) && decide (a.eventId = e) && decide (a.targetAgent = t))
        = (decide (b.queueItemId = q) && decide (b.eventId = e) && decide (b.targetAgent = t)) := by
    rw [hab.queueItemId_eq, hab.eventId_eq, hab.targetAgent_eq]
  refine ⟨_, ⟨q, hq, e, he, t, ht, st, hst, v, hv, reason, hreason, (), ?_, rfl⟩, ?_⟩
  · rw [← h.queueItems.countWhere hselected]; exact hcount
  · refine h.withQueueItems (h.queueItems.updateWhere hselected fun a b hab _ => ?_)
    refine ⟨?_, hab.status, hab.bound⟩
    rw [hab.rest]
    rfl

end

/-! ### Attempt facts -/

theorem find?_attempt (h : Agree live replayed) (id : String) :
    Option.Rel AttemptRow.Agrees (live.attempts.find? id) (replayed.attempts.find? id) :=
  h.attempts.find? (by rintro _ _ ⟨_, _, rfl⟩; rfl) id

/-- Raising the attempt count keeps the correspondence. -/
theorem raiseAttemptCount (h : Agree live replayed) (fact : AttemptFact) :
    Agree (raiseAttemptCount fact live) (Zeta.raiseAttemptCount fact replayed) := by
  unfold Zeta.raiseAttemptCount
  split
  · refine h.withQueueItems (h.queueItems.updateWhere (fun a b hab => by rw [hab.queueItemId_eq])
      fun a b hab _ => ?_)
    refine ⟨?_, hab.status, hab.bound⟩
    rw [hab.rest]
  · exact h

/-- An attempt fact that applies live applies in the replay. -/
theorem applies_attemptFact (h : Agree live replayed) {fact : AttemptFact}
    (happlies : fact.Applies journal live live') (later : List JournalEntry) :
    ∃ replayed', fact.Applies (journal ++ later) replayed replayed' ∧ Agree live' replayed' := by
  obtain ⟨hstarted, hsame, hallowed, hnew, rfl⟩ := happlies
  have hrow := h.find?_attempt fact.attemptId
  have hitem (id : String) :
      (live.queueItems.find? id).isSome = (replayed.queueItems.find? id).isSome := by
    have := h.find?_queueItem id
    generalize live.queueItems.find? id = a, replayed.queueItems.find? id = b at this
    cases this <;> rfl
  have hunique := h.attempts.forall_mem_iff (P := fun other =>
      ¬(other.queueItemId = fact.queueItemId ∧ other.attemptNumber = fact.attemptNumber))
    (Q := fun other =>
      ¬(other.queueItemId = fact.queueItemId ∧ other.attemptNumber = fact.attemptNumber))
    (by rintro a b ⟨_, _, rfl⟩; rfl)
  have hupsert {a b : AttemptRow} (hab : a.Agrees b) :
      Agree (live.upsertAttempt a) (replayed.upsertAttempt b) :=
    { h with attempts := h.attempts.upsert (by rintro _ _ ⟨_, _, rfl⟩; rfl) hab }
  generalize hlive : live.attempts.find? fact.attemptId = found at *
  generalize hreplayed : replayed.attempts.find? fact.attemptId = found' at hrow
  refine ⟨_, ⟨?_, ?_, ?_, ?_, rfl⟩, raiseAttemptCount (hupsert ?_) fact⟩ <;> rw [hreplayed]
  · intro hnone
    subst hnone
    cases hrow
    exact hstarted rfl
  · cases hrow with
    | none => simp
    | some hab =>
      rintro row ⟨⟩
      obtain ⟨_, _, hab⟩ := hab
      subst hab
      have hsame := hsame _ (Option.mem_some_self _)
      exact hsame
  · cases hrow with
    | none => exact hallowed
    | some hab => obtain ⟨_, _, rfl⟩ := hab; exact hallowed
  · intro hnone
    subst hnone
    cases hrow
    obtain ⟨htexts, hnumber, hexists, hjournaled⟩ := hnew rfl
    exact ⟨htexts, hunique.mp hnumber, hitem _ ▸ hexists, journaled_append hjournaled later⟩
  · cases hrow with
    | none => exact ⟨_, _, rfl⟩
    | some hab => obtain ⟨_, _, rfl⟩ := hab; exact ⟨_, _, rfl⟩

/-! ### Ordinary events -/

/-- An event that opens its unbound row live opens it in the replay. -/
theorem indexPendingQueueItem (h : Agree live replayed)
    (hlive : indexPendingQueueItem event live = .ok live') :
    ∃ replayed', Zeta.indexPendingQueueItem event replayed = .ok replayed' ∧
      Agree live' replayed' := by
  obtain ⟨cursor, hcursor, hmax, htext, hpos, hcases⟩ := indexPendingQueueItem_ok_iff.mp hlive
  have hpending := h.find?_queueItem (pendingQueueItemId event.id)
  rcases hcases with ⟨htaken, rfl⟩ | ⟨hfree, hunique, rfl⟩
  · have htaken' : replayed.queueItems.find? (pendingQueueItemId event.id) ≠ none := by
      intro hnone
      rw [hnone] at hpending
      generalize live'.queueItems.find? (pendingQueueItemId event.id) = found at *
      cases hpending
      exact htaken rfl
    exact ⟨replayed, indexPendingQueueItem_ok_iff.mpr
      ⟨cursor, hcursor, hmax, htext, hpos, .inl ⟨htaken', rfl⟩⟩, h⟩
  · have hfree' : replayed.queueItems.find? (pendingQueueItemId event.id) = none :=
      h.queueItems.find?_none (fun _ _ hab => hab.queueItemId_eq) hfree
    have hunique' := (h.queueItems.forall_mem_iff
      (Q := fun other => ¬(other.eventId = event.id ∧ other.targetAgent = ""))
      (fun a b hab => by rw [hab.eventId_eq, hab.targetAgent_eq])).mp hunique
    refine ⟨_, indexPendingQueueItem_ok_iff.mpr
      ⟨cursor, hcursor, hmax, htext, hpos, .inr ⟨hfree', hunique', rfl⟩⟩, ?_⟩
    exact h.withQueueItems (h.queueItems.upsert (fun _ _ hab => hab.queueItemId_eq)
      (.refl (by simp [pendingRow])))

end Agree

/-! ### Waits and deferred publications -/

section Resources

variable [Platform] {live live' replayed : Projections} {event event' : Event}
  {journal : List JournalEntry}

theorem WaitRow.Agrees.handle_eq {a b : WaitRow} (h : a.Agrees b) : a.handle = b.handle := by
  rw [h.rest]

theorem DeferredPublicationRow.Agrees.handle_eq {a b : DeferredPublicationRow} (h : a.Agrees b) :
    a.handle = b.handle := by
  rw [h.rest]

theorem EffectRow.Agrees.effectKey_eq {a b : EffectRow} (h : a.Agrees b) :
    a.effectKey = b.effectKey := by
  rw [h.rest]

namespace Agree

/-- A wait inserted live is inserted in the replay, with its fields in canonical form. -/
theorem insertWait (h : Agree live replayed) {row row' : WaitRow} (hrow : row.Agrees row')
    (hlive : insertWait row live = .ok live') :
    ∃ replayed', Zeta.insertWait row' replayed = .ok replayed' ∧ Agree live' replayed' := by
  simp only [Zeta.insertWait, ok_iff, exists_const] at hlive ⊢
  obtain ⟨htexts, hunique, waits, hinsert, rfl⟩ := hlive
  obtain ⟨waits', hinsert', hwaits⟩ := h.waits.insert? (fun _ _ hab => hab.handle_eq) hrow hinsert
  have hunique' := (h.waits.forall_mem_iff
    (Q := fun other => other.createdEventId ≠ row'.createdEventId ∧
      ¬(other.sessionId = row'.sessionId ∧ other.status = .active))
    (fun a b hab => by rw [hab.rest, hrow.rest])).mp hunique
  refine ⟨_, ⟨?_, hunique', waits', hinsert', rfl⟩, { h with waits := hwaits }⟩
  rw [hrow.rest] at htexts
  exact htexts

/-- A publication inserted live is inserted in the replay, with its payload in canonical form. -/
theorem insertDeferredPublication (h : Agree live replayed) {row row' : DeferredPublicationRow}
    (hrow : row.Agrees row') (hlive : insertDeferredPublication row live = .ok live') :
    ∃ replayed', Zeta.insertDeferredPublication row' replayed = .ok replayed' ∧
      Agree live' replayed' := by
  simp only [Zeta.insertDeferredPublication, ok_iff, exists_const] at hlive ⊢
  obtain ⟨htexts, hunique, publications, hinsert, rfl⟩ := hlive
  obtain ⟨publications', hinsert', hpublications⟩ :=
    h.deferredPublications.insert? (fun _ _ hab => hab.handle_eq) hrow hinsert
  have hunique' := (h.deferredPublications.forall_mem_iff
    (Q := fun other => other.createdEventId ≠ row'.createdEventId)
    (fun a b hab => by rw [hab.rest, hrow.rest])).mp hunique
  refine ⟨_, ⟨?_, hunique', publications', hinsert', rfl⟩,
    { h with deferredPublications := hpublications }⟩
  rw [hrow.rest] at htexts
  exact htexts

/-- A wait that ends live ends in the replay. -/
theorem indexWaitTerminal (h : Agree live replayed) {status : WaitStatus}
    (hlive : indexWaitTerminal journal event status live = .ok live') (later : List JournalEntry) :
    ∃ replayed', Zeta.indexWaitTerminal (journal ++ later) event status replayed = .ok replayed' ∧
      Agree live' replayed' := by
  simp only [Zeta.indexWaitTerminal, ok_iff, exists_const]
    at hlive ⊢
  obtain ⟨handle, hhandle, matched, hmatched, hcaused, hjournaled, hcount, rfl⟩ := hlive
  have hselected (a b : WaitRow) (hab : a.Agrees b) :
      (decide (a.handle = handle) && decide (a.status = .active))
        = (decide (b.handle = handle) && decide (b.status = .active)) := by
    rw [hab.rest]
  have hcount' := h.waits.countWhere hselected
  refine ⟨_, ⟨handle, hhandle, matched, hmatched, hcaused, ?_, ?_, rfl⟩, ?_⟩
  · rw [← hcount']
    exact hjournaled.imp id fun hall id hid => journaled_append (hall id hid) later
  · rw [← hcount']; exact hcount
  · exact h.withWaits (h.waits.updateWhere hselected fun a b hab _ =>
      ⟨hab.fields, by rw [hab.rest]⟩)

/-- A publication that ends live ends in the replay. -/
theorem indexDeferredPublicationTerminal (h : Agree live replayed)
    {status : DeferredPublicationStatus} (hstatus : status ≠ .claimed)
    (hlive : indexDeferredPublicationTerminal journal event status live = .ok live')
    (later : List JournalEntry) :
    ∃ replayed', Zeta.indexDeferredPublicationTerminal (journal ++ later) event status replayed
        = .ok replayed' ∧ Agree live' replayed' := by
  simp only [Zeta.indexDeferredPublicationTerminal, ok_iff, exists_const] at hlive ⊢
  obtain ⟨handle, hhandle, published, hpublished, hcaused, hjournaled, hcount, rfl⟩ := hlive
  have hselected (a b : DeferredPublicationRow) (hab : a.Agrees b) :
      (decide (a.handle = handle) && (decide (a.status = .pending) || decide (a.status = .claimed)))
        = (decide (b.handle = handle) &&
          (decide (b.status = .pending) || decide (b.status = .claimed))) := by
    rw [hab.rest]
  have hcount' := h.deferredPublications.countWhere hselected
  refine ⟨_, ⟨handle, hhandle, published, hpublished, hcaused, ?_, ?_, rfl⟩, ?_⟩
  · rw [← hcount']
    exact hjournaled.imp id fun hall id hid => journaled_append (hall id hid) later
  · rw [← hcount']; exact hcount
  · exact h.withDeferredPublications (h.deferredPublications.updateWhere hselected fun a b hab _ =>
      ⟨hab.payload, by rw [hab.rest], hstatus⟩)

/-- A wait fact that is projected live is projected in the replay. -/
theorem indexWait (h : Agree live replayed) (hback : ReadsBack event event')
    (hlive : indexWait journal event live = .ok live') (later : List JournalEntry) :
    ∃ replayed', Zeta.indexWait (journal ++ later) event' replayed = .ok replayed' ∧
      Agree live' replayed' := by
  simp only [Zeta.indexWait, hback.eventType_eq, hback.indexWaitTerminal_eq] at hlive ⊢
  by_cases hcreated : event.eventType = "runtime.wait.created"
  · simp only [if_pos hcreated, bind_ok_iff] at hlive ⊢
    obtain ⟨row, hread, hinsert⟩ := hlive
    obtain ⟨fields, hfields, hread'⟩ := hback.readWait_ok hread
    have hrow : row.Agrees { row with fields } := ⟨hfields, rfl⟩
    obtain ⟨replayed', hinsert', hagree⟩ := h.insertWait hrow hinsert
    exact ⟨replayed', ⟨_, hread', hinsert'⟩, hagree⟩
  simp only [if_neg hcreated] at hlive ⊢
  by_cases hmatched : event.eventType = "runtime.wait.matched"
  · simp only [if_pos hmatched] at hlive ⊢
    exact h.indexWaitTerminal hlive later
  simp only [if_neg hmatched] at hlive ⊢
  by_cases htimedOut : event.eventType = "runtime.wait.timed_out"
  · simp only [if_pos htimedOut] at hlive ⊢
    exact h.indexWaitTerminal hlive later
  simp only [if_neg htimedOut] at hlive ⊢
  by_cases hcancelled : event.eventType = "runtime.wait.cancelled"
  · simp only [if_pos hcancelled] at hlive ⊢
    exact h.indexWaitTerminal hlive later
  · simp only [if_neg hcancelled, reduceCtorEq] at hlive

/-- A publication fact that is projected live is projected in the replay. -/
theorem indexDeferredPublication (h : Agree live replayed) (hback : ReadsBack event event')
    (hlive : indexDeferredPublication journal event live = .ok live') (later : List JournalEntry) :
    ∃ replayed', Zeta.indexDeferredPublication (journal ++ later) event' replayed = .ok replayed' ∧
      Agree live' replayed' := by
  simp only [Zeta.indexDeferredPublication, hback.eventType_eq,
    hback.indexDeferredPublicationTerminal_eq] at hlive ⊢
  by_cases hcreated : event.eventType = "runtime.deferred_publication.created"
  · simp only [if_pos hcreated, bind_ok_iff] at hlive ⊢
    obtain ⟨row, hread, hinsert⟩ := hlive
    obtain ⟨payload, hpayload, hread'⟩ := hback.readDeferredPublication_ok hread
    have hrow : row.Agrees { row with payload } :=
      ⟨hpayload, rfl, by simp [readDeferredPublication_status hread]⟩
    obtain ⟨replayed', hinsert', hagree⟩ := h.insertDeferredPublication hrow hinsert
    exact ⟨replayed', ⟨_, hread', hinsert'⟩, hagree⟩
  simp only [if_neg hcreated] at hlive ⊢
  by_cases hpublished : event.eventType = "runtime.deferred_publication.published"
  · simp only [if_pos hpublished] at hlive ⊢
    exact h.indexDeferredPublicationTerminal (by decide) hlive later
  simp only [if_neg hpublished] at hlive ⊢
  by_cases hcancelled : event.eventType = "runtime.deferred_publication.cancelled"
  · simp only [if_pos hcancelled] at hlive ⊢
    exact h.indexDeferredPublicationTerminal (by decide) hlive later
  · simp only [if_neg hcancelled, reduceCtorEq] at hlive

/-! ### Effects -/

/-- An effect planned live is planned in the replay, with its parameters in canonical form. -/
theorem planEffect (h : Agree live replayed) {fact : EffectFact}
    (hparams : canonicalPayload fact.params = .ok params) (result : Option Map)
    (hlive : planEffect fact live = .ok live') :
    ∃ replayed', Zeta.planEffect { fact with params, result } replayed = .ok replayed' ∧
      Agree live' replayed' := by
  simp only [Zeta.planEffect, ok_iff, exists_const] at hlive ⊢
  obtain ⟨hfirst, htexts, hunique, effects, hinsert, rfl⟩ := hlive
  have hrow : fact.plannedRow.Agrees { fact with params, result }.plannedRow :=
    ⟨hparams, .none, rfl⟩
  obtain ⟨effects', hinsert', heffects⟩ :=
    h.effects.insert? (fun _ _ hab => hab.effectKey_eq) hrow hinsert
  have hunique' := (h.effects.forall_mem_iff
    (Q := fun other => other.plannedEventId ≠ fact.eventId)
    (fun a b hab => by rw [hab.rest])).mp hunique
  exact ⟨_, ⟨hfirst, htexts, hunique', effects', hinsert', rfl⟩, h.withEffects heffects⟩

/-- An effect moved live is moved in the replay. -/
theorem moveEffect (h : Agree live replayed) {fact : EffectFact} {result : Option Map}
    (hparams : canonicalPayload fact.params = .ok params)
    (hresult : Option.Rel (fun a b => canonicalPayload a = .ok b) fact.result result)
    (hlive : moveEffect fact live = .ok live') :
    ∃ replayed', Zeta.moveEffect { fact with params, result } replayed = .ok replayed' ∧
      Agree live' replayed' := by
  simp only [Zeta.moveEffect, ok_iff, exists_const] at hlive ⊢
  obtain ⟨stored, hstored, hidentity, hedge, hmax, attempts, hattempts, hretry, rfl⟩ := hlive
  obtain ⟨stored', hstored', hagrees⟩ :=
    h.effects.find?_some (fun _ _ hab => hab.effectKey_eq) hstored
  have hrest := hagrees.rest
  have hparams' : stored'.params = params := by
    have := hagrees.params
    rw [hidentity.2.2.2.2.1, hparams] at this
    exact (Except.ok.inj this).symm
  refine ⟨_, ⟨stored', hstored', ?_, ?_, ?_, attempts, ?_, hretry, rfl⟩, ?_⟩
  · rw [hrest] at hidentity
    exact ⟨hidentity.1, hidentity.2.1, hidentity.2.2.1, hidentity.2.2.2.1, hparams',
      hidentity.2.2.2.2.2⟩
  · rw [hrest] at hedge; exact hedge
  · rw [hrest] at hmax; exact hmax
  · rw [hrest] at hattempts; exact hattempts
  · exact h.withEffects (h.effects.updateWhere (fun a b hab => by rw [hab.effectKey_eq])
      fun a b hab _ => ⟨hab.params, hresult, by rw [hab.rest]⟩)

/-- An effect fact that is projected live is projected in the replay. -/
theorem indexEffect (h : Agree live replayed) (hback : ReadsBack event event')
    (hlive : indexEffect event live = .ok live') :
    ∃ replayed', Zeta.indexEffect event' replayed = .ok replayed' ∧ Agree live' replayed' := by
  simp only [Zeta.indexEffect, bind_ok_iff] at hlive ⊢
  obtain ⟨fact, hread, happly⟩ := hlive
  obtain ⟨params, result, hparams, hresult, hread'⟩ := hback.readEffectFact_ok hread
  unfold applyEffectFact at happly
  split at happly
  · rename_i hplanned
    obtain ⟨replayed', happly', hagree⟩ := h.planEffect hparams result happly
    exact ⟨replayed', ⟨_, hread', by rw [applyEffectFact, if_pos hplanned]; exact happly'⟩, hagree⟩
  · rename_i hmoved
    obtain ⟨replayed', happly', hagree⟩ := h.moveEffect hparams hresult happly
    exact ⟨replayed', ⟨_, hread', by rw [applyEffectFact, if_neg hmoved]; exact happly'⟩, hagree⟩

/-! ### The step -/

variable [LawfulFloatText]

/-- A fact the live tables accept is accepted by agreeing replayed tables, read back and against a
longer journal, except a `claimed` fact on a row whose replayed claim is still there. -/
theorem indexEvent (h : Agree live replayed) (hback : ReadsBack event event')
    (hlive : indexEvent journal event live = .ok live')
    (hbound : ∀ fact, eventKind event.eventType = .queueItem → readQueueFact event = .ok fact →
      fact.status = .claimed → fact.targetAgent ≠ "") (later : List JournalEntry) :
    (∃ replayed', Zeta.indexEvent (journal ++ later) event' replayed = .ok replayed' ∧
        Agree live' replayed') ∨
      (eventKind event.eventType = .queueItem ∧ ∃ fact, readQueueFact event = .ok fact ∧
        fact.status = .claimed ∧ ∃ row, replayed.queueItems.find? fact.queueItemId = some row ∧
          row.status = .claimed) := by
  simp only [Zeta.indexEvent, hback.eventType_eq] at hlive ⊢
  cases hkind : eventKind event.eventType with
  | effect => rw [hkind] at hlive; exact .inl (h.indexEffect hback hlive)
  | wait => rw [hkind] at hlive; exact .inl (h.indexWait hback hlive later)
  | deferredPublication =>
    rw [hkind] at hlive
    exact .inl (h.indexDeferredPublication hback hlive later)
  | cancelRequested =>
    rw [hkind] at hlive
    simp only [hback.indexQueueItemCancelRequested_eq]
    exact .inl (h.indexQueueItemCancelRequested hlive)
  | queueItem =>
    rw [hkind] at hlive
    simp only [indexQueueItem_ok_iff, hback.readQueueFact_eq] at hlive ⊢
    obtain ⟨fact, hread, happlies⟩ := hlive
    rcases h.applies_queueFact happlies (hbound fact hkind hread) later with
      ⟨replayed', happlies', hagree⟩ | hsecond
    · exact .inl ⟨replayed', ⟨fact, hread, happlies'⟩, hagree⟩
    · exact .inr ⟨trivial, fact, hread, hsecond⟩
  | attempt =>
    rw [hkind] at hlive
    simp only [indexAttempt_ok_iff, hback.readAttemptFact_eq] at hlive ⊢
    obtain ⟨fact, hread, happlies⟩ := hlive
    obtain ⟨replayed', happlies', hagree⟩ := h.applies_attemptFact happlies later
    exact .inl ⟨replayed', ⟨fact, hread, happlies'⟩, hagree⟩
  | ingress =>
    rw [hkind] at hlive
    obtain ⟨replayed', hindex, hagree⟩ := h.indexPendingQueueItem hlive
    refine .inl ⟨replayed', ?_, hagree⟩
    rw [indexPendingQueueItem_ok_iff] at hindex ⊢
    simpa only [hback.cursor_eq, hback.id_eq, hback.timestampMs_eq, pendingRow] using hindex
  | unprojected =>
    rw [hkind] at hlive
    cases hlive
    exact .inl ⟨replayed, rfl, h⟩

end Agree

end Resources

end Zeta
