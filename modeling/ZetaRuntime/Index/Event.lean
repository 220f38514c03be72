import ZetaRuntime.Index.Attempt
import ZetaRuntime.Index.Effect
import ZetaRuntime.Index.Resource

/-!
# Projecting the journal

`indexEvent` sends an event to the projection its type selects. It runs once on every event that is
inserted, and `rebuildProjections` runs it again over the whole journal, from empty tables, on the
events as they are read back. Claims, locks and effect claims are not in the journal, so a rebuild
loses them; whatever was claimed becomes claimable again.
-/

namespace Zeta

open Outcome

variable {event : Event} {journal : List JournalEntry} {p p' : Projections} {eventType : String}

/-- What the type of an event says about its projection. -/
inductive EventKind where
  | effect
  | wait
  | deferredPublication
  | cancelRequested
  | queueItem
  | attempt
  /-- An ordinary event, which opens work. -/
  | ingress
  /-- A reserved type that no projection reads. -/
  | unprojected
  deriving DecidableEq, Repr

/-- Whether events of a kind are facts about queue items or attempts. -/
def EventKind.ofWork : EventKind → Bool
  | .cancelRequested | .queueItem | .attempt => true
  | .effect | .wait | .deferredPublication | .ingress | .unprojected => false

/-- The kind of an event type, by its first segments. -/
def eventKind (eventType : String) : EventKind :=
  if startsWith eventType "runtime.effect." then .effect
  else if startsWith eventType "runtime.wait." then .wait
  else if startsWith eventType "runtime.deferred_publication." then .deferredPublication
  else if eventType = "runtime.queue_item.cancel_requested" then .cancelRequested
  else if startsWith eventType "runtime.queue_item." then .queueItem
  else if startsWith eventType "runtime.attempt." then .attempt
  else if startsWith eventType "runtime." || startsWith eventType "zeta." then .unprojected
  else .ingress

theorem startsWith_trans {text long short : String} (hlong : startsWith long short = true)
    (h : startsWith text long = true) : startsWith text short = true := by
  simp only [startsWith, List.isPrefixOf_iff_prefix] at *
  exact hlong.trans h

/-- An event type that is not reserved opens work, or belongs to the host. -/
theorem eventKind_of_unreserved (h : startsWith eventType "runtime." = false) :
    eventKind eventType = .ingress ∨ eventKind eventType = .unprojected := by
  have hno (long : String) (hlong : startsWith long "runtime." = true) :
      startsWith eventType long = false := by
    cases hl : startsWith eventType long with
    | false => rfl
    | true => rw [startsWith_trans hlong hl] at h; cases h
  have hne : eventType ≠ "runtime.queue_item.cancel_requested" := by
    rintro rfl
    exact absurd h (by decide)
  simp only [eventKind, hno "runtime.effect." (by decide), hno "runtime.wait." (by decide),
    hno "runtime.deferred_publication." (by decide), hno "runtime.queue_item." (by decide),
    hno "runtime.attempt." (by decide), hne, h, Bool.false_eq_true, if_false, Bool.false_or]
  split
  · exact .inr rfl
  · exact .inl rfl

theorem ofWork_of_unreserved (h : startsWith eventType "runtime." = false) :
    (eventKind eventType).ofWork = false := by
  rcases eventKind_of_unreserved h with hkind | hkind <;> simp [hkind, EventKind.ofWork]

@[simp] theorem eventKind_queueItem (status : QueueItemStatus) :
    eventKind ("runtime.queue_item." ++ status.display) = .queueItem := by
  cases status <;> rfl

@[simp] theorem lastSegment_queueItem (status : QueueItemStatus) :
    lastSegment ("runtime.queue_item." ++ status.display) = status.display := by
  cases status <;> rfl

section

variable [Platform]

/-- Project one journaled event. -/
def indexEvent (journal : List JournalEntry) (event : Event) (p : Projections) :
    Except DispatchError Projections :=
  match eventKind event.eventType with
  | .effect => indexEffect event p
  | .wait => indexWait journal event p
  | .deferredPublication => indexDeferredPublication journal event p
  | .cancelRequested => indexQueueItemCancelRequested event p
  | .queueItem => indexQueueItem journal event p
  | .attempt => indexAttempt journal event p
  | .ingress => indexPendingQueueItem event p
  | .unprojected => .ok p

/-- Project a whole journal onto empty tables. -/
def replay (journal : List JournalEntry) (entries : List JournalEntry) :
    Except DispatchError Projections :=
  foldOk (fun p entry => indexEvent journal entry.event p) .empty entries

omit [Platform] in
/-- A replayed claim has no owner: its item is claimable again, or waits for its route. -/
def QueueItemRow.recover (row : QueueItemRow) : QueueItemRow :=
  { row with status := if row.targetAgent = "" then .pending else .available }

omit [Platform] in
/-- Turn replayed coordination back into work. -/
def Projections.recover (p : Projections) : Projections :=
  { p with
    queueItems := p.queueItems.updateWhere (fun row => row.status = .claimed)
      QueueItemRow.recover (fun _ => rfl)
    attempts := p.attempts.updateWhere (fun _ => true)
      (fun row => { row with claimToken := none, heartbeatAt := none }) (fun _ => rfl)
    deferredPublications := p.deferredPublications.updateWhere (fun row => row.status = .claimed)
      (fun row => { row with status := .pending }) (fun _ => rfl) }

/-- Rebuild every projection from the ordered journal. -/
def rebuildProjections (s : Store) : Except DispatchError (ℕ × Store) := do
  let entries ← loadEntries s.journal
  let _ ← (verify entries .unanchored).mapError .verification
  let p ← replay s.journal entries
  return (entries.length, { s with projections := p.recover })

/-! ### What a projection leaves alone -/

omit [Platform] in
theorem indexEffect_frame (h : indexEffect event p = .ok p') :
    ∃ effects, p' = { p with effects } := by
  simp only [indexEffect, applyEffectFact, bind_ok_iff] at h
  obtain ⟨fact, -, h⟩ := h
  split at h
  · simp only [planEffect, ok_iff] at h
    obtain ⟨_, -, _, -, _, -, effects, -, rfl⟩ := h
    exact ⟨_, rfl⟩
  · simp only [moveEffect, ok_iff] at h
    obtain ⟨_, -, _, -, _, -, _, -, _, -, _, -, rfl⟩ := h
    exact ⟨_, rfl⟩

/-- How a wait fact ends its wait. -/
def waitEnd (eventType : String) : Option WaitStatus :=
  if eventType = "runtime.wait.matched" then some .matched
  else if eventType = "runtime.wait.timed_out" then some .timedOut
  else if eventType = "runtime.wait.cancelled" then some .cancelled
  else none

omit [Platform] in
theorem waitEnd_ne_active (eventType : String) : waitEnd eventType ≠ some .active := by
  unfold waitEnd
  repeat' split
  all_goals simp

/-- A wait fact creates a wait or ends one. -/
theorem indexWait_cases (h : indexWait journal event p = .ok p') :
    (event.eventType = "runtime.wait.created" ∧
        ∃ row, readWait event = .ok row ∧ insertWait row p = .ok p') ∨
      (event.eventType ≠ "runtime.wait.created" ∧
        ∃ status, waitEnd event.eventType = some status ∧
          indexWaitTerminal journal event status p = .ok p') := by
  unfold indexWait at h
  split at h
  · rename_i hcreated
    exact .inl ⟨hcreated, bind_ok_iff.mp h⟩
  rename_i hcreated
  refine .inr ⟨hcreated, ?_⟩
  unfold waitEnd
  split at h
  · rename_i htype
    exact ⟨.matched, if_pos htype, h⟩
  rename_i hmatched
  rw [if_neg hmatched]
  split at h
  · rename_i htype
    exact ⟨.timedOut, if_pos htype, h⟩
  rename_i htimedOut
  rw [if_neg htimedOut]
  split at h
  · rename_i htype
    exact ⟨.cancelled, if_pos htype, h⟩
  · cases h

/-- A publication fact creates a publication or ends one. -/
theorem indexDeferredPublication_cases (h : indexDeferredPublication journal event p = .ok p') :
    (∃ row, readDeferredPublication event = .ok row ∧ insertDeferredPublication row p = .ok p') ∨
      ∃ status, indexDeferredPublicationTerminal journal event status p = .ok p' := by
  unfold indexDeferredPublication at h
  split at h
  · exact .inl (bind_ok_iff.mp h)
  split at h
  · exact .inr ⟨.published, h⟩
  split at h
  · exact .inr ⟨.cancelled, h⟩
  · cases h

theorem indexWait_frame (h : indexWait journal event p = .ok p') :
    ∃ waits, p' = { p with waits } := by
  rcases indexWait_cases h with ⟨-, row, -, h⟩ | ⟨-, status, -, h⟩
  · simp only [insertWait, ok_iff] at h
    obtain ⟨_, -, _, -, _, -, rfl⟩ := h
    exact ⟨_, rfl⟩
  · simp only [indexWaitTerminal, ok_iff] at h
    obtain ⟨_, -, _, -, _, -, _, -, _, -, rfl⟩ := h
    exact ⟨_, rfl⟩

theorem indexDeferredPublication_frame (h : indexDeferredPublication journal event p = .ok p') :
    ∃ deferredPublications, p' = { p with deferredPublications } := by
  rcases indexDeferredPublication_cases h with ⟨row, -, h⟩ | ⟨status, h⟩
  · simp only [insertDeferredPublication, ok_iff] at h
    obtain ⟨_, -, _, -, _, -, rfl⟩ := h
    exact ⟨_, rfl⟩
  · simp only [indexDeferredPublicationTerminal, ok_iff] at h
    obtain ⟨_, -, _, -, _, -, _, -, _, -, rfl⟩ := h
    exact ⟨_, rfl⟩

/-- Each kind of event writes its own tables and no others. -/
theorem indexEvent_frame (h : indexEvent journal event p = .ok p') :
    match eventKind event.eventType with
    | .effect => ∃ effects, p' = { p with effects }
    | .wait => ∃ waits, p' = { p with waits }
    | .deferredPublication => ∃ deferredPublications, p' = { p with deferredPublications }
    | .cancelRequested | .ingress => ∃ queueItems, p' = { p with queueItems }
    | .queueItem => ∃ queueItems queueClaims locks, p' = { p with queueItems, queueClaims, locks }
    | .attempt => ∃ queueItems attempts, p' = { p with queueItems, attempts }
    | .unprojected => p' = p := by
  unfold indexEvent at h
  cases hkind : eventKind event.eventType with
  | effect => rw [hkind] at h; exact indexEffect_frame h
  | wait => rw [hkind] at h; exact indexWait_frame h
  | deferredPublication => rw [hkind] at h; exact indexDeferredPublication_frame h
  | cancelRequested =>
    simp only [hkind, indexQueueItemCancelRequested, ok_iff] at h
    obtain ⟨_, -, _, -, _, -, _, -, _, -, _, -, _, -, rfl⟩ := h
    exact ⟨_, rfl⟩
  | queueItem =>
    simp only [hkind, indexQueueItem_ok_iff] at h
    obtain ⟨fact, -, closed, hclosed, -, -, -, -, cursor, -, -, rfl⟩ := h
    rcases closePendingRouteBarrier_ok_iff.mp hclosed with ⟨-, rfl⟩ | ⟨-, -, rfl⟩
    · exact ⟨_, _, _, rfl⟩
    · exact ⟨_, _, _, rfl⟩
  | attempt =>
    simp only [hkind, indexAttempt_ok_iff] at h
    obtain ⟨fact, -, happlies⟩ := h
    rw [happlies.result, raiseAttemptCount]
    by_cases hrunning : fact.status = .running
    · rw [if_pos hrunning]
      exact ⟨_, _, rfl⟩
    · rw [if_neg hrunning]
      exact ⟨p.queueItems, _, rfl⟩
  | ingress =>
    simp only [hkind, indexPendingQueueItem_ok_iff] at h
    obtain ⟨cursor, -, -, -, -, ⟨-, rfl⟩ | ⟨-, -, rfl⟩⟩ := h
    · exact ⟨_, rfl⟩
    · exact ⟨_, rfl⟩
  | unprojected => rw [hkind] at h; exact (Except.ok.inj h).symm

omit [Platform] in
/-- A row that a cancellation request or an attempt may have marked. -/
def QueueItemRow.Marked (old row : QueueItemRow) : Prop :=
  ∃ eventId time reason count, row = { old with
    cancelRequestedEventId := eventId, cancelRequestedAt := time, cancelReason := reason
    attemptCount := count }

omit [Platform] in
theorem QueueItemRow.Marked.refl (row : QueueItemRow) : row.Marked row := ⟨_, _, _, _, rfl⟩

/-- Where the queue items come from that an event leaves: they were there, but for a mark, or they
are the unbound item of the event, or the event is a fact about them. -/
theorem mem_of_indexEvent (h : indexEvent journal event p = .ok p') {row : QueueItemRow}
    (hrow : row ∈ p'.queueItems) :
    (∃ old ∈ p.queueItems, old.Marked row) ∨ (∃ cursor, row = pendingRow event cursor) ∨
      eventKind event.eventType = .queueItem ∧ ∃ fact cursor previous,
        readQueueFact event = .ok fact ∧ (∀ old ∈ previous, old ∈ p.queueItems) ∧
        fact.Allowed previous ∧ row = fact.row cursor previous := by
  have hupdated {q : Projections} {selected : QueueItemRow → Bool} {f : QueueItemRow → QueueItemRow}
      (hf : ∀ old : QueueItemRow, old.Marked (f old)) (hq : q.queueItems = p.queueItems)
      (hmem : row ∈ q.queueItems.rows.map fun r => if selected r then f r else r) :
      ∃ old ∈ p.queueItems, old.Marked row := by
    obtain ⟨old, hold, rfl⟩ := List.mem_map.mp hmem
    refine ⟨old, hq ▸ hold, ?_⟩
    split
    · exact hf old
    · exact .refl old
  have hsame (hitems : p'.queueItems = p.queueItems) : ∃ old ∈ p.queueItems, old.Marked row :=
    ⟨row, hitems ▸ hrow, .refl row⟩
  cases hkind : eventKind event.eventType with
  | queueItem =>
    simp only [indexEvent, hkind, indexQueueItem_ok_iff] at h
    obtain ⟨fact, hread, closed, hclosed, -, hallowed, -, -, cursor, -, -, rfl⟩ := h
    have hkept : ∀ old ∈ closed.queueItems, old ∈ p.queueItems := by
      rcases closePendingRouteBarrier_ok_iff.mp hclosed with ⟨-, rfl⟩ | ⟨-, -, rfl⟩
      · exact fun _ => id
      · exact fun old hold => (Table.mem_deleteWhere.mp hold).1
    rcases Table.mem_upsert.mp hrow with rfl | ⟨hold, -⟩
    · exact .inr (.inr ⟨rfl, fact, cursor, _, hread,
        fun old hold => hkept old (Table.mem_of_find? hold), hallowed, rfl⟩)
    · exact .inl ⟨row, hkept row hold, .refl row⟩
  | cancelRequested =>
    simp only [indexEvent, hkind, indexQueueItemCancelRequested, ok_iff] at h
    obtain ⟨_, -, _, -, _, -, _, -, _, -, _, -, _, -, rfl⟩ := h
    exact .inl (hupdated (fun _ => ⟨_, _, _, _, rfl⟩) rfl hrow)
  | attempt =>
    simp only [indexEvent, hkind, indexAttempt_ok_iff] at h
    obtain ⟨fact, -, happlies⟩ := h
    rw [happlies.result, raiseAttemptCount] at hrow
    split at hrow
    · exact .inl (hupdated (fun _ => ⟨_, _, _, _, rfl⟩) rfl hrow)
    · exact .inl ⟨row, hrow, .refl row⟩
  | ingress =>
    simp only [indexEvent, hkind, indexPendingQueueItem_ok_iff] at h
    obtain ⟨cursor, -, -, -, -, ⟨-, rfl⟩ | ⟨-, -, rfl⟩⟩ := h
    · exact .inl (hsame rfl)
    · rcases Table.mem_upsert.mp hrow with rfl | ⟨hold, -⟩
      · exact .inr (.inl ⟨cursor, rfl⟩)
      · exact .inl ⟨row, hold, .refl row⟩
  | effect | wait | deferredPublication =>
    have hframe := indexEvent_frame h
    rw [hkind] at hframe
    obtain ⟨_, rfl⟩ := hframe
    exact .inl (hsame rfl)
  | unprojected =>
    have hframe := indexEvent_frame h
    rw [hkind] at hframe
    obtain rfl : p' = p := hframe
    exact .inl (hsame rfl)

end

end Zeta
