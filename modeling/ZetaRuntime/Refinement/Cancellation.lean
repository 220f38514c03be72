import ZetaRuntime.Refinement.Attempts

/-!
# Cancellation refines the abstract machine

The abstract machine cancels an unowned item in one step, whether the request is already on the item
or is recorded with the end. A request on an owned item is a step of its own. An item that was
abandoned ends with the latest of its running attempts.

A request resolves to an earlier one only if the item carries it, and the fact that cancels an item
is not in the log while the item is open. So every append of a cancellation records a fact.
-/

namespace Zeta

open Outcome

variable {s s' : Store} {G : Work.Guard}

variable {expectedSessionId : Option String}

variable {claim : Option QueueClaimRow} {reason : Option String} {row : QueueItemRow}
  {cancelledIdentity requestedIdentity : RuntimeEventIdentity}

/-! ### What the facts say -/

theorem requests_cancellationRequestedEvent (identity : RuntimeEventIdentity) (input : Event)
    (item : QueueItem) (reason runId : Option String) :
    (cancellationRequestedEvent identity input item reason runId).Requests item.queueItemId
      item.toItem :=
  ⟨by simp only [cancellationRequestedEvent, runtimeFact]; decide, rfl, rfl, rfl⟩

theorem moves_cancellationTerminalEvent (identity : RuntimeEventIdentity) (item : QueueItem)
    (requested : Event) (reason runId : Option String) :
    (cancellationTerminalEvent identity item requested reason runId).Moves item.queueItemId
      item.toItem .cancelled := by
  refine moves_of_append rfl rfl (List.append_assoc ..) ?_
  cases reason <;> rfl

theorem Map.get_insertIfAbsent_of_ne (m : Map) {k key : String} (v : Value) (h : k ≠ key) :
    Map.get (m.insertIfAbsent k v) key = m.get key := by
  unfold Map.insertIfAbsent
  split
  · rfl
  · rw [Map.get_insert, if_neg h]

theorem tries_recoveredAttemptCancelledEvent (identity : RuntimeEventIdentity) (requested : Event)
    (attempt : AttemptRow) (finishedAt : String) (reason : Option String) :
    (recoveredAttemptCancelledEvent identity requested attempt finishedAt reason).Tries
      attempt.attemptId attempt.queueItemId attempt.eventId .cancelled := by
  -- Whether the worker is named already makes no difference to the identity.
  have htext {field : String} (hresult : "result" ≠ field) (hworker : "worker_name" ≠ field) :
      (recoveredAttemptCancelledEvent identity requested attempt finishedAt reason).payload.text
        field
        = Map.text ((((attemptPayload attempt .cancelled).remove "error").remove
          "project_revision").insert "finished_at" (.string finishedAt)) field := by
    simp only [recoveredAttemptCancelledEvent, runtimeFact, Map.text, Map.get_insert,
      if_neg hresult, Map.get_insertIfAbsent_of_ne _ _ hworker]
  exact tries_of_text (by decide) rfl (htext (by decide) (by decide))
    (htext (by decide) (by decide))
    (htext (by decide) (by decide))

/-- A fact says nothing about requests. -/
theorem Event.Moves.requested {e : Event} {q : String} {it : Work.Item} {status : QueueItemStatus}
    (h : e.Moves q it status) (cancelRequested : Bool) :
    e.Moves q { it with cancelRequested } status :=
  ⟨h.kind, h.status, h.item, h.event, h.agent, h.session, h.revision⟩

theorem Event.Requests.of_withClaim {e : Event}
    (h : e.Requests (row.withClaim claim).queueItemId (row.withClaim claim).toItem) :
    e.Requests row.queueItemId row.toItem := by
  cases claim <;> exact ⟨h.kind, h.item, h.event, h.agent⟩

/-! ### Ending unowned work -/

/-- Closing a row has nothing to do with a change of another item before it. -/
theorem Work.Cleared.before {w v : Work} {q event : String} {item : Option Work.Item}
    {cursors : String → Option ℕ} {log : List Work.Fact}
    (h : Work.Cleared { w with cursors, items := Function.update w.items q item, log } q event v) :
    w.Cleared q event
      { v with
        cursors := w.cursors, items := Function.update v.items q (w.items q), log := w.log } := by
  rcases h with rfl | ⟨hne, it, hit, hagent, rfl⟩
  · exact .inl (by simp)
  · refine .inr ⟨hne, it, ?_, hagent, ?_⟩
    · exact (Function.update_of_ne hne.symm ..).symm.trans hit
    · refine Work.ext ?_ rfl rfl rfl rfl
      simp [Function.update_comm hne, Function.update_of_ne hne]

variable [Platform]

/-- The fact that cancels an unowned item, after the request if there was none. -/
theorem steps_cancel {t : Store} (hinv : s.work.Inv) {q : String} {it : Work.Item}
    (hit : s.work.items q = some it) (hunowned : s.work.claims q = none)
    (hopen : it.status.terminal = false) {requests : List Work.Fact}
    (hrequest : requests = [] ∧ it.cancelRequested = true ∨ requests = [.requested q it.event])
    (hstrand : s.work.Running q → G.strand) (hgrows : Work.Grows s.work.cursors t.work.cursors)
    (ht : t.work = { s.work with
      cursors := t.work.cursors
      items := Function.update s.work.items q (some { it with cancelRequested := true })
      log := s.work.log ++ requests })
    {event : Event} {outcome : AppendOutcome} (hmoves : event.Moves q it .cancelled)
    (h : appendRuntimeEvent t event = .ok (outcome, s')) :
    Work.Steps G s.work s'.work ∧ s'.work.claims q = none := by
  have hrecorded : Recorded t event s' := by
    refine recorded_of_unlogged (fun _ _ => fact_eq_of_sameLifecycleIntention) h hmoves.fact_eq ?_
    rw [ht]
    intro hlogged
    have hlogged : .queue q it.event .cancelled event.idempotencyKey ∈ s.work.log := by
      rcases hrequest with ⟨rfl, -⟩ | rfl <;> simpa using hlogged
    have := hinv.ended q it.event _ _ hlogged rfl it hit rfl
    rw [hopen] at this
    cases this
  have hit' : t.work.items q = some { it with cancelRequested := true } := by
    rw [ht]
    exact Function.update_self ..
  obtain ⟨v, hcleared, -, hs'⟩ := hrecorded.moves (hmoves.requested true) hit'
    (hgrows _ _ (hinv.known q it hit))
  have hclaims : v.claims q = none := by
    rw [hcleared.claims_self, ht]
    exact hunowned
  have hattempts : v.attempts = s.work.attempts := by
    rw [hcleared.attempts_eq, ht]
  have hunowned' : s'.work.claims q = none := by
    rw [hs']
    exact hclaims
  rw [ht] at hcleared
  refine ⟨(hcleared.before.steps_of_present hinv.toShape hit rfl).tail ?_, hunowned'⟩
  have hfound : Function.update v.items q (s.work.items q) q = some it := by
    rw [Function.update_self, hit]
  have hstrand' : Work.Running
      ⟨Function.update v.items q (s.work.items q), v.claims, v.attempts, s.work.cursors, s.work.log⟩
        q →
        G.strand := by
    rw [hattempts]
    exact hstrand
  have hgrows' : Work.Grows s.work.cursors s'.work.cursors :=
    fun e c hc => hrecorded.grows e c (hgrows e c hc)
  convert Work.Step.cancel (w := { v with
    cursors := s.work.cursors
    items := Function.update v.items q (s.work.items q)
    log := s.work.log })
    hfound hclaims hopen hrequest hstrand' hgrows' using 1
  rw [hs', ht]
  refine Work.ext ?_ rfl rfl rfl rfl
  simp [Function.update_idem]

/-- The fact that cancels an abandoned attempt, and the fact that cancels its item. -/
theorem steps_abandon {t : Store} (hinv : s.work.Inv) (hs : Ordered s.journal) {q id : String}
    {it : Work.Item} {a : Work.Attempt} (hit : s.work.items q = some it)
    (hunowned : s.work.claims q = none) (hopen : it.status.terminal = false)
    (hrequested : it.cancelRequested = true) (hattempt : s.work.attempts id = some a)
    (hitem : a.item = q) (hrunning : a.status = .running) {first second : Event}
    {outcome outcome' : AppendOutcome} (htries : first.Tries id q it.event .cancelled)
    (hmoves : second.Moves q it .cancelled)
    (hfirst : appendRuntimeEvent s first = .ok (outcome, t))
    (hsecond : appendRuntimeEvent t second = .ok (outcome', s')) :
    Work.Steps G s.work s'.work ∧ s'.work.claims q = none := by
  have hrecorded : Recorded s first t := by
    refine recorded_of_unlogged (fun _ _ => fact_eq_of_sameLifecycleIntention) hfirst htries.fact_eq
      ?_
    intro hlogged
    obtain ⟨a', ha', -, -, hstatus⟩ := hinv.attemptLog _ _ _ _ hlogged
    obtain rfl : a = a' := Option.some.inj (hattempt.symm.trans ha')
    rw [hstatus (by decide)] at hrunning
    cases hrunning
  obtain ⟨a', ha', -, -, -, ht⟩ := hrecorded.ends htries (by decide)
  obtain rfl : a = a' := Option.some.inj (hattempt.symm.trans ha')
  have hrecorded' : Recorded t second s' := by
    refine recorded_of_unlogged (fun _ _ => fact_eq_of_sameLifecycleIntention) hsecond
      hmoves.fact_eq ?_
    rw [ht]
    simp only [List.mem_append, List.mem_singleton, reduceCtorEq, or_false]
    intro hlogged
    have := hinv.ended q it.event _ _ hlogged rfl it hit rfl
    rw [hopen] at this
    cases this
  have hit' : t.work.items q = some it := by
    rw [ht]
    exact hit
  obtain ⟨v, hcleared, -, hs'⟩ := hrecorded'.moves hmoves hit'
    (hrecorded.grows _ _ (hinv.known q it hit))
  -- The new cursor, with the attempts and the log as they were before.
  have hnote : Work.Steps G s.work
      { t.work with attempts := s.work.attempts, log := s.work.log } := by
    have hstep : Work.Step G s.work { s.work with cursors := t.work.cursors } := by
      rw [hrecorded.cursors_eq]
      exact .note (hrecorded.newest hs)
    rw [ht]
    exact .single hstep
  have hcleared' := hcleared.rebase s.work.attempts s.work.log
  have hclaims : v.claims q = none := by
    rw [hcleared.claims_self, ht]
    exact hunowned
  refine ⟨(hnote.trans (hcleared'.steps_of_present (hnote.inv hinv).toShape hit' rfl)).tail ?_, by
    rw [hs']
    exact hclaims⟩
  have hgrows : Work.Grows v.cursors s'.work.cursors := by
    rw [hcleared.cursors_eq]
    exact hrecorded'.grows
  convert Work.Step.abandon (w := { v with attempts := s.work.attempts, log := s.work.log })
    (hcleared.items_self.trans hit') hclaims hopen hrequested hattempt hitem hrunning hgrows using 1
  rw [hs']
  refine Work.ext rfl rfl ?_ rfl ?_
  · change v.attempts = _
    rw [hcleared.attempts_eq, ht]
  · rw [show t.work.log = s.work.log ++ [.attempt id q it.event .cancelled] by rw [ht],
      List.append_assoc]
    rfl

/-! ### Operations -/

/-- A request is on the item already, or is recorded. -/
theorem requestCancellation_cases (hinv : s.work.Inv)
    (hrow : s.projections.queueItems.find? row.queueItemId = some row)
    {identity : RuntimeEventIdentity} {input : Event} {runId kept : Option String}
    {outcome : AppendOutcome}
    (h : requestCancellation s identity input (row.withClaim claim) reason runId =
      .ok (outcome, kept, s')) :
    s' = s ∧ row.toItem.cancelRequested = true ∨
      Work.Grows s.work.cursors s'.work.cursors ∧ s'.work = { s.work with
        cursors := s'.work.cursors
        items := Function.update s.work.items row.queueItemId
          (some { row.toItem with cancelRequested := true })
        log := s.work.log ++ [.requested row.queueItemId row.toItem.event] } := by
  have hrequest : (row.withClaim claim).cancelRequestedEventId = row.cancelRequestedEventId := by
    rw [QueueItemRow.toQueueItemRow_withClaim]
  unfold requestCancellation at h
  rw [hrequest] at h
  cases hid : row.cancelRequestedEventId with
  | some eventId =>
    simp only [hid, ok_iff, Prod.mk.injEq] at h
    obtain ⟨_, -, -, -, rfl⟩ := h
    exact .inl ⟨rfl, by simp [QueueItemRow.toItem, hid]⟩
  | none =>
    simp only [hid, ok_iff, pair_iff] at h
    obtain ⟨_, _, happend, -, -, rfl⟩ := h
    have hrequests := (requests_cancellationRequestedEvent identity input (row.withClaim claim)
      reason
      runId).of_withClaim
    have hrecorded := recorded_of_unlogged (fun _ _ => fact_eq_of_sameLifecycleIntention) happend
      hrequests.fact_eq fun hlogged => by
        have := hinv.requested _ _ hlogged _ (work_items_of_find? hrow) rfl
        simp [QueueItemRow.toItem, hid] at this
    exact .inr ⟨hrecorded.grows, hrecorded.requests hrequests (work_items_of_find? hrow)⟩

/-- Cancelling an open item marks it if it is owned, and ends it if it is not. -/
theorem steps_cancelOpenItem (hinv : s.work.Inv)
    (hrow : s.projections.queueItems.find? row.queueItemId = some row)
    (hopen : row.status.terminal = false)
    (hstrand : s.work.claims row.queueItemId = none → s.work.Running row.queueItemId → G.strand)
    {outcome : CancellationOutcome}
    (h : cancelOpenItem s (row.withClaim (s.projections.queueClaims.find? row.queueItemId)) reason
      requestedIdentity cancelledIdentity = .ok (outcome, s')) : Work.Steps G s.work s'.work := by
  simp only [cancelOpenItem, bind_ok_iff, Prod.exists] at h
  obtain ⟨input, -, requested, kept, t, hrequest, h⟩ := h
  have hit := work_items_of_find? hrow
  have hcases := requestCancellation_cases hinv hrow hrequest
  unfold endRequested at h
  split at h
  · -- A worker owns the item, or has claimed it.
    rename_i hclaimed
    cases h
    have howned : s.work.claims row.queueItemId ≠ none := by
      rw [QueueItemRow.toQueueItemRow_withClaim] at hclaimed
      cases hclaim : s.projections.queueClaims.find? row.queueItemId with
      | some claim => simp [Store.work, hclaim]
      | none =>
        simp only [hclaim, Option.isSome_none, Bool.false_eq_true, if_false] at hclaimed
        exact hinv.claimed _ _ hit hclaimed
    rcases hcases with ⟨rfl, -⟩ | ⟨hgrows, ht⟩
    · exact .refl
    · rw [ht]
      exact .single (.request hit howned hgrows)
  · rename_i hclaimed
    simp only [bind_ok_iff, Prod.exists, pure_ok_iff, Prod.mk.injEq] at h
    obtain ⟨cancelled, _, happend, -, rfl⟩ := h
    have hunowned : s.work.claims row.queueItemId = none := by
      cases hclaim : s.projections.queueClaims.find? row.queueItemId with
      | none => simp [Store.work, hclaim]
      | some claim => simp [hclaim, QueueItemRow.withClaim] at hclaimed
    have hmoves := (moves_cancellationTerminalEvent cancelledIdentity
      (row.withClaim (s.projections.queueClaims.find? row.queueItemId)) requested.event
      (kept.or reason) (queueRunId s.projections
        (row.withClaim (s.projections.queueClaims.find? row.queueItemId)) input)).of_withClaim
    rcases hcases with ⟨rfl, hmarked⟩ | ⟨hgrows, ht⟩
    · refine (steps_cancel hinv hit hunowned hopen (.inl ⟨rfl, hmarked⟩) (hstrand hunowned)
        (fun _ _ => id) ?_ hmoves happend).1
      rw [List.append_nil, ← hmarked, ← hit, Function.update_eq_self]
    · exact (steps_cancel hinv hit hunowned hopen (.inr rfl) (hstrand hunowned) hgrows ht hmoves
        happend).1

/-- Cancelling an item. -/
theorem steps_cancelQueueItem (hinv : s.work.Inv) {queueItemId : String}
    {outcome : CancellationOutcome}
    (hstrand : s.work.claims queueItemId = none → s.work.Running queueItemId → G.strand)
    (h : cancelQueueItem s queueItemId expectedSessionId reason requestedIdentity
      cancelledIdentity = .ok (outcome, s')) : Work.Steps G s.work s'.work := by
  simp only [cancelQueueItem, bind_ok_iff] at h
  obtain ⟨_, -, _, -, found, hfound, h⟩ := h
  cases found with
  | none =>
    cases h
    exact .refl
  | some item =>
    simp only [cancelLoadedItem, bind_ok_iff] at h
    obtain ⟨_, -, h⟩ := h
    obtain ⟨row, hrow, rfl⟩ := loadQueueItem_some hfound
    obtain rfl := Table.key_of_find? hrow
    have hopen_of {status : QueueItemStatus} (hterminal : status.terminal = false)
        (hstatus : (row.withClaim (s.projections.queueClaims.find? row.queueItemId)).status =
          status) :
        row.status.terminal = false := by
      cases hclaim : s.projections.queueClaims.find? row.queueItemId with
      | none =>
        rw [hclaim] at hstatus
        rw [← hterminal, ← hstatus]
        rfl
      | some claim =>
        exact (hinv.open_of_owned (work_items_of_find? hrow) (by simp [Store.work, hclaim])).1
    unfold cancelFoundItem at h
    split at h
    · simp only [ok_iff, Prod.mk.injEq] at h
      obtain ⟨_, -, -, rfl⟩ := h
      exact .refl
    iterate 4
      · cases h
        exact .refl
    all_goals
      rename_i hstatus
      exact steps_cancelOpenItem hinv hrow (hopen_of rfl hstatus) hstrand h

/-- Cancelling a run is cancelling one of its items. -/
theorem steps_cancelRun (hinv : s.work.Inv) {runId : String} {outcome : CancellationOutcome}
    (hstrand : ∀ row, itemForRun s runId = some row → s.work.claims row.queueItemId = none →
      s.work.Running row.queueItemId → G.strand)
    (h : cancelRun s runId expectedSessionId reason requestedIdentity cancelledIdentity =
      .ok (outcome, s')) : Work.Steps G s.work s'.work := by
  unfold cancelRun at h
  split at h
  · cases h
    exact .refl
  · rename_i row hrow
    simp only [bind_ok_iff] at h
    obtain ⟨_, -, h⟩ := h
    exact steps_cancelQueueItem hinv (hstrand row hrow) h

omit [Platform] in
/-- Unowned work with a request on it, abstractly. -/
theorem nextFinalizable_some (h : nextFinalizable s.projections = some row) :
    s.projections.queueItems.find? row.queueItemId = some row ∧
      s.projections.queueClaims.find? row.queueItemId = none ∧
      row.toItem.cancelRequested = true ∧ row.status.terminal = false := by
  have hmem : row ∈ s.projections.queueItems.rows.filter (finalizable s.projections) :=
    (List.mem_insertionSort _).mp (List.mem_of_mem_head? h)
  simp only [List.mem_filter, finalizable, Bool.and_eq_true, Bool.or_eq_true, decide_eq_true_eq,
    List.all_eq_true] at hmem
  obtain ⟨hrow, ⟨hrequested, hstatus⟩, hclaims⟩ := hmem
  refine ⟨Table.find?_of_mem hrow, ?_, hrequested, ?_⟩
  · cases hclaim : s.projections.queueClaims.find? row.queueItemId with
    | none => rfl
    | some claim =>
      exact absurd (Table.key_of_find? hclaim) (hclaims claim (Table.mem_of_find? hclaim))
  · rcases hstatus with (h | h) | h <;> rw [h] <;> rfl

omit [Platform] in
/-- Deleting the claims on an item nobody owns changes nothing. -/
theorem work_deleteClaimsWhere_unowned {q : String} (h : s.work.claims q = none) :
    Store.work { s with
      projections := s.projections.deleteClaimsWhere fun claim => claim.queueItemId = q } =
        s.work := by
  refine Work.ext rfl ?_ rfl rfl rfl
  funext x
  simp only [Store.work, Projections.deleteClaimsWhere, Table.find?_deleteWhere]
  cases hfind : s.projections.queueClaims.find? x with
  | none => rfl
  | some claim =>
    have hne : claim.queueItemId ≠ q := by
      rintro rfl
      rw [Table.key_of_find? hfind] at h
      simp [Store.work, hfind] at h
    simp [Option.filter, hne]

/-- Finalising ends an abandoned item, with the latest of its running attempts. -/
theorem steps_finalizeNextRequestedCancellation (hinv : s.work.Inv) (hs : Ordered s.journal)
    {attemptIdentity queueIdentity : RuntimeEventIdentity} {finishedAt : String}
    {outcome : Option CancellationOutcome}
    (h : finalizeNextRequestedCancellation s attemptIdentity queueIdentity finishedAt
      = .ok (outcome, s')) : Work.Steps G s.work s'.work := by
  simp only [finalizeNextRequestedCancellation, bind_ok_iff] at h
  obtain ⟨_, -, _, -, h⟩ := h
  cases hnext : nextFinalizable s.projections with
  | none =>
    rw [hnext] at h
    cases h
    exact .refl
  | some row =>
    obtain ⟨hrow, hclaim, hmarked, hopen⟩ := nextFinalizable_some hnext
    simp only [hnext, finalizeIfFound, finalizeItem, bind_ok_iff, require_ok_iff, Prod.exists,
      pure_ok_iff, Prod.mk.injEq] at h
    obtain ⟨_, -, _, hfound, item, rfl, requestedId, -, requested, -, attempt, hattempt, _, t,
      hended, input, -, _, u, hcancelled, -, rfl⟩ := h
    obtain ⟨row', hrow', hitem⟩ := loadQueueItem_some hfound
    obtain rfl : row = row' := Option.some.inj (hrow.symm.trans hrow')
    have hit := work_items_of_find? hrow
    have hunowned : s.work.claims row.queueItemId = none := by simp [Store.work, hclaim]
    have hmoves : ∀ runId, (cancellationTerminalEvent queueIdentity item requested item.cancelReason
        runId).Moves row.queueItemId row.toItem .cancelled := by
      intro runId
      subst hitem
      exact (moves_cancellationTerminalEvent _ _ _ _ _).of_withClaim
    have hsteps : Work.Steps G s.work u.work ∧ u.work.claims row.queueItemId = none := by
      cases attempt with
      | none =>
        cases hended
        refine steps_cancel hinv hit hunowned hopen (.inl ⟨rfl, hmarked⟩) ?_ (fun _ _ => id) ?_
          (hmoves _) hcancelled
        · rintro ⟨id, a, ha, hof, hrunning⟩
          obtain ⟨tried, htried, rfl⟩ := Option.map_eq_some_iff.mp ha
          exact absurd hrunning
            (loadLatestRunningAttempt_none hattempt (Table.mem_of_find? htried) hof)
        · rw [List.append_nil, ← hmarked, ← hit, Function.update_eq_self]
      | some tried =>
        obtain ⟨hmem, hof, hrunning⟩ := loadLatestRunningAttempt_some hattempt
        simp only [endRecoveredAttempt, bind_ok_iff, Prod.exists, pure_ok_iff,
          Prod.mk.injEq] at hended
        obtain ⟨_, _, happend, -, rfl⟩ := hended
        have htried := work_attempts_of_mem hmem
        obtain ⟨-, -, it, hit', hevent, -⟩ := hinv.attempt _ _ htried
        obtain rfl : row.toItem = it := Option.some.inj (hit.symm.trans (hof ▸ hit'))
        have htries := tries_recoveredAttemptCancelledEvent attemptIdentity requested tried
          finishedAt
          item.cancelReason
        rw [hof, show tried.eventId = row.toItem.event from hevent] at htries
        exact steps_abandon hinv hs hit hunowned hopen hmarked htried hof hrunning htries (hmoves _)
          happend hcancelled
    rw [work_deleteClaimsWhere_unowned hsteps.2]
    exact hsteps.1

end Zeta
