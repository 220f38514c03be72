import ZetaRuntime.Work.Outcomes
import ZetaRuntime.Refinement.Run
import ZetaRuntime.Guarantee.Reserved

/-!
# Cancellation wins

From the moment a cancellation has been requested for open work, the work can only be cancelled. It
is not offered to workers any more, what is recorded about it and its attempts is that they are
cancelled (and that an attempt begins whose worker held the claim before), and what its worker
proposes when it completes is not carried out.
-/

namespace Zeta

open Outcome

variable {P : Event → Prop} {nowMs : Int} {row : QueueItemRow} {token workerName : String}

/-- It has been recorded that the cancellation of an item is requested. -/
def Store.requested (s : Store) (row : QueueItemRow) : Prop :=
  ∃ entry ∈ s.journal, entry.event.eventType = "runtime.queue_item.cancel_requested" ∧
    entry.event.payload.text "queue_item_id" = some row.queueItemId ∧
    entry.event.payload.text "event_id" = some row.eventId

instance (s : Store) (row : QueueItemRow) : Decidable (s.requested row) :=
  inferInstanceAs (Decidable (∃ entry ∈ s.journal,
    entry.event.eventType = "runtime.queue_item.cancel_requested" ∧
    entry.event.payload.text "queue_item_id" = some row.queueItemId ∧
    entry.event.payload.text "event_id" = some row.eventId))

/-- What becomes of an item from one store to a later one: if it ends it is cancelled, the facts
about it and its attempts are compatible with that, it is not claimed, and a completion of it
carries out no control. -/
structure CancellationWins [Platform] (row : QueueItemRow) (s s' : Store) : Prop where
  outcome : ∀ row' ∈ s'.projections.queueItems, row'.queueItemId = row.queueItemId →
    row'.eventId = row.eventId → row'.status.terminal = true → row'.status = .cancelled
  facts : ∀ entry ∈ s.added s', ∀ fact, entry.event.fact = some fact →
    fact.item = row.queueItemId → fact.event = row.eventId → fact.Spares
  unclaimed : ∀ row' ∈ s'.projections.queueItems, row'.queueItemId = row.queueItemId →
    row'.eventId = row.eventId → ∀ workerName token leaseMs nowMs claim s'',
      claimNextQueueItem s' workerName token leaseMs nowMs = .ok (some claim, s'') →
      claim.queueItemId ≠ row.queueItemId
  controls : ∀ row' ∈ s'.projections.queueItems, row'.queueItemId = row.queueItemId →
    row'.eventId = row.eventId → ∀ claim nowMs identities completion events s'',
      claim.queueItemId = row.queueItemId →
      completeClaimedAttempt s' claim nowMs identities completion = .ok (events, s'') →
      s''.projections.waits = s'.projections.waits ∧
      s''.projections.deferredPublications = s'.projections.deferredPublications ∧
      ∀ entry ∈ s'.added s'', eventKind entry.event.eventType = .attempt ∨
        eventKind entry.event.eventType = .queueItem

section

variable [Platform] {s s' : Store}

/-! ### The journal -/

/-- Changes add to the journal. -/
theorem Changes.added (h : Changes P s s') :
    s'.journal = s.journal ++ s.added s' ∧
      ∀ entry ∈ s.added s', ∃ event, P event ∧ entry.event.eventType = event.eventType := by
  obtain ⟨new, hjournal, hnew⟩ := h.added_spec
  have hadded : s.added s' = new := by rw [Store.added, hjournal, List.drop_left]
  rw [hadded]
  refine ⟨hjournal, fun entry hentry => ?_⟩
  obtain ⟨event, hP, -, cursor, hback⟩ := hnew entry hentry
  exact ⟨event, hP, hback.eventType_eq⟩

/-- Facts about items and attempts leave waits and publications alone. -/
theorem Changes.ofWork_frame
    (hP : ∀ event, P event → eventKind event.eventType = .attempt ∨ eventKind event.eventType =
      .queueItem) (h : Changes P s s') :
    s'.projections.waits = s.projections.waits ∧
      s'.projections.deferredPublications = s.projections.deferredPublications ∧
      ∀ entry ∈ s.added s', eventKind entry.event.eventType = .attempt ∨
        eventKind entry.event.eventType = .queueItem := by
  have hadded := h.added
  refine ⟨?_, ?_, fun entry hentry => ?_⟩
  · refine h.induct (I := fun t => t.projections.waits = s.projections.waits)
      (fun t t' event hevent ht hrecorded => ?_) (fun t t' ht hcoord => hcoord.waits.trans ht) rfl
    rw [hrecorded.waits_eq, ht]
    rcases hP event hevent with hkind | hkind <;> rw [hkind] <;> decide
  · refine h.induct
      (I := fun t => t.projections.deferredPublications = s.projections.deferredPublications)
      (fun t t' event hevent ht hrecorded => ?_)
      (fun t t' ht hcoord => hcoord.deferredPublications.trans ht) rfl
    rw [hrecorded.deferredPublications_eq, ht]
    rcases hP event hevent with hkind | hkind <;> rw [hkind] <;> decide
  · obtain ⟨event, hevent, htype⟩ := hadded.2 entry hentry
    rw [htype]
    exact hP event hevent

/-- Operations add to the journal. -/
theorem journal_apply (hreserved : s.projections.Unreserved) {op : Op} (hop : op.Authentic) :
    (apply s op).journal = s.journal ++ s.added (apply s op) := by
  refine apply_induction (Q := fun t => t.journal = s.journal ++ s.added t) ?_ (fun p _ => ?_)
    fun hrebuild => (Op.changes hreserved hop hrebuild).added.1
  all_goals rw [Store.added, List.drop_length, List.append_nil]

/-- Runs add to the journal. -/
theorem journal_applyAll [LawfulFloatText] (hs : Ready s) {ops : List Op}
    (hops : ∀ op ∈ ops, op.Authentic) :
    (applyAll s ops).journal = s.journal ++ s.added (applyAll s ops) := by
  suffices h : s.journal <+: (applyAll s ops).journal by
    obtain ⟨new, hnew⟩ := h
    rw [Store.added, ← hnew, List.drop_left]
  induction ops generalizing s with
  | nil => exact List.prefix_rfl
  | cons op ops ih =>
    rw [List.forall_mem_cons] at hops
    refine List.IsPrefix.trans ⟨_, (journal_apply hs.history.unreserved hops.1).symm⟩ ?_
    exact ih (hs.apply hops.1) hops.2

/-! ### What a request means -/

section

omit [Platform]

/-- A request dooms an open item. -/
theorem doomed_of_requested (hinv : s.work.Inv) (hrow : row ∈ s.projections.queueItems)
    (hopen : row.status.terminal = false) (hrequested : s.requested row) :
    s.work.Doomed row.queueItemId row.eventId := by
  obtain ⟨entry, hentry, htype, hitem, hevent⟩ := hrequested
  have hfact : entry.event.fact = some (.requested row.queueItemId row.eventId) := by
    have hkind : eventKind entry.event.eventType = .cancelRequested := by
      rw [htype]
      decide
    simp [Event.fact, hkind, Event.text, hitem, hevent]
  have hit := work_items_of_find? (Table.find?_of_mem hrow)
  exact hinv.doomed hit (hinv.requested _ _ (mem_log_of_fact hentry hfact) _ hit rfl) hopen

/-- A doomed item is not claimed. -/
theorem unclaimed_of_doomed (hrow : row ∈ s.projections.queueItems)
    (hdoomed : s.work.Doomed row.queueItemId row.eventId) {leaseMs : ℕ} {claim : QueueClaim}
    (h : claimNextQueueItem s workerName token leaseMs nowMs = .ok (some claim, s')) :
    claim.queueItemId ≠ row.queueItemId := by
  intro hclaim
  simp only [claimNextQueueItem, claimCandidates, ok_iff] at h
  obtain ⟨_, -, _, -, _, -, _, ⟨_, -, rfl⟩, h⟩ := h
  rcases claimFirst_ok h with ⟨hnone, -⟩ | ⟨item, hitem, -, _, -, hsome, -⟩
  · cases hnone
  have hkey := congrArg QueueClaim.queueItemId (Option.some.inj hsome)
  rw [List.mem_insertionSort, List.mem_filter] at hitem
  obtain ⟨hmem, hclaimable⟩ := hitem
  -- Reconciliation changes nothing but statuses, so the item claimed is the marked one.
  obtain ⟨row', hrow', hunclaims⟩ := Table.Matches.find?_some
    (fun a b hab => by rcases hab with rfl | ⟨-, rfl⟩ <;> rfl)
    (coordinated_reconcileExpired s nowMs).queueItems (Table.find?_of_mem hrow)
  obtain rfl : item = row' := Table.eq_of_key_eq hmem (Table.mem_of_find? hrow')
    (hkey.symm.trans (hclaim.trans (Table.key_of_find? hrow').symm))
  have hmarked := (hdoomed.marked row.toItem (work_items_of_find? (Table.find?_of_mem hrow)) rfl).1
  simp only [claimable, Bool.and_eq_true, decide_eq_true_eq] at hclaimable
  have hnone : row.cancelRequestedEventId = none := by
    rcases hunclaims with rfl | ⟨-, rfl⟩ <;> exact hclaimable.1.1.2
  simp [QueueItemRow.toItem, hnone] at hmarked

end

/-- Completing a doomed item carries out no control. -/
theorem uncontrolled_of_doomed (hinv : s.work.Inv) (hrow : row ∈ s.projections.queueItems)
    (hdoomed : s.work.Doomed row.queueItemId row.eventId) {claim : QueueClaim}
    {identities : List RuntimeEventIdentity} {completion : AttemptCompletion} {events : List Event}
    (hclaim : claim.queueItemId = row.queueItemId)
    (h : completeClaimedAttempt s claim nowMs identities completion = .ok (events, s')) :
    s'.projections.waits = s.projections.waits ∧
      s'.projections.deferredPublications = s.projections.deferredPublications ∧
      ∀ entry ∈ s.added s', eventKind entry.event.eventType = .attempt ∨
        eventKind entry.event.eventType = .queueItem := by
  obtain ⟨_, _, result, first, _, _, attempt, item, input, u, -, -, -, -, hcurrent, hrunning,
    hfound, -, hrecord, hrelease⟩ := completeClaimedAttempt_ok h
  obtain ⟨found, hfenced⟩ := fenced_of_loads hinv hcurrent hrunning hfound
  obtain rfl : found = row := Table.eq_of_key_eq (Table.mem_of_find? hfenced.found) hrow
    ((Table.key_of_find? hfenced.found).trans hclaim)
  have hmarked := (hdoomed.marked found.toItem (work_items_of_find? (Table.find?_of_mem hrow))
    rfl).1
  have hrequested : completion.disposition = .cancelled ∨ item.cancelRequestedEventId.isSome := by
    rw [hfenced.joined, QueueItemRow.toQueueItemRow_withClaim]
    exact .inr hmarked
  rw [recordCompletion, if_pos hrequested] at hrecord
  refine Changes.ofWork_frame (P := fun event => event ∈ liveCancelledEvents first _ input item
    attempt completion.finishedAt (some result)) (fun event hevent => ?_)
    ((changes_of_appendBatch (fun _ h => h) hrecord).trans
      (Changes.coordinate (coordinated_releaseClaimInTransaction hrelease)))
  simp only [liveCancelledEvents, List.mem_cons, List.not_mem_nil, or_false] at hevent
  rcases hevent with rfl | rfl
  · exact .inl (show eventKind "runtime.attempt.cancelled" = .attempt by decide)
  · exact .inr (show eventKind "runtime.queue_item.cancelled" = .queueItem by decide)

/-- In every run without forged facts, once it has been recorded that the cancellation of an open
item is requested, cancellation wins at every later moment. -/
theorem cancellationWins_of_requested [LawfulFloatText] {ops later : List Op}
    (hops : ∀ op ∈ ops, op.Authentic) (hlater : ∀ op ∈ later, op.Authentic) {row : QueueItemRow}
    (hrow : row ∈ (applyAll .empty ops).projections.queueItems)
    (hopen : row.status.terminal = false) (hrequested : (applyAll .empty ops).requested row) :
    CancellationWins row (applyAll .empty ops) (applyAll .empty (ops ++ later)) := by
  rw [applyAll_append]
  obtain ⟨hready, -⟩ := steps_of_authentic (G := .none) hops fun op _ s => op.allowed_none s
  generalize applyAll .empty ops = s at *
  have hunder : Meets (Op.Under .none) s later :=
    meets_of_forall fun op hop t => ⟨hlater op hop, op.allowed_none t⟩
  obtain ⟨hready', hsteps⟩ := hunder.steps hready
  obtain ⟨hdoomed, ⟨new, hlog, hnew⟩, -⟩ :=
    hsteps.doomed hready.inv (doomed_of_requested hready.inv hrow hopen hrequested)
  have hrow_event : ∀ row' : QueueItemRow, row'.queueItemId = row.queueItemId →
      row'.eventId = row.eventId →
        (applyAll s later).work.Doomed row'.queueItemId row'.eventId := by
    intro row' hkey hevent
    rwa [hkey, hevent]
  refine ⟨fun row' hrow' hkey hevent hterminal => ?_, fun entry hentry fact hfact => ?_,
    fun row' hrow' hkey hevent workerName token leaseMs nowMs claim s'' hclaim => ?_,
    fun row' hrow' hkey hevent claim nowMs identities completion events s'' hclaim hcomplete => ?_⟩
  · exact ((hrow_event row' hkey hevent).marked _
      (work_items_of_find? (Table.find?_of_mem hrow')) rfl).2 hterminal
  · refine hnew fact ?_
    have hjournal := journal_applyAll hready hlater
    have hadded : new = (s.added (applyAll s later)).filterMap (·.event.fact) := by
      have : (applyAll s later).work.log
          = s.work.log ++ (s.added (applyAll s later)).filterMap (·.event.fact) := by
        show (applyAll s later).journal.filterMap _ = _
        rw [hjournal, List.filterMap_append]
        rfl
      exact List.append_cancel_left (hlog.symm.trans this)
    rw [hadded]
    exact List.mem_filterMap.mpr ⟨entry, hentry, hfact⟩
  · rw [← hkey]
    exact unclaimed_of_doomed hrow' (hrow_event row' hkey hevent) hclaim
  · exact uncontrolled_of_doomed hready'.inv hrow' (hrow_event row' hkey hevent)
      (hclaim.trans hkey.symm) hcomplete

end

namespace Sample

/-- Two agents run, and the cancellation of what the first one does is requested. -/
def cancelling : List Op := running ++ [
  .ingest (event "d" "note" []),
  .route "d" [route "b" "note"] [identity "g1"],
  .claim "worker" "u" 1000 0,
  .start (claim "qi_d" "u") 0 (identity "g2") (identity "g3") "1970-01-01T00:00:00Z" none,
  .cancelQueueItem "qi_e" none none (identity "g4") (identity "g5")]

/-- The second agent publishes that the first one's item is completed. -/
def forgedEnd : Op :=
  .complete (claim "qi_d" "u") 0 [identity "h1", identity "h2", identity "h3"]
    (succeeding [.publish "p" "runtime.queue_item.completed"
      [("queue_item_id", .string "qi_e"), ("event_id", .string "e"), ("target_agent", .string "a"),
        ("status", .string "completed")] none 0])

/-- The item whose cancellation is requested. -/
theorem cancelling_requested : ∃ row ∈ (run cancelling).projections.queueItems,
    row.queueItemId = "qi_e" ∧ row.eventId = "e" ∧ row.status.terminal = false ∧
      (run cancelling).requested row := by
  show ∃ row ∈ (run cancelling).projections.queueItems.rows, row.queueItemId = "qi_e" ∧
    row.eventId = "e" ∧
    row.status.terminal = false ∧ (run cancelling).requested row
  decide +kernel

end Sample

open Sample in
/-- When the lease of the first worker has ended, cancellation still wins. -/
theorem cancelling_wins : ∃ row ∈ (run cancelling).projections.queueItems,
    row.status.terminal = false ∧ (run cancelling).requested row ∧
      @CancellationWins platform row (run cancelling) (run (cancelling ++ [.reconcile 2000])) := by
  obtain ⟨row, hrow, -, -, hopen, hrequested⟩ := cancelling_requested
  have hops : ∀ op ∈ cancelling, op.Authentic := by simp [cancelling, running, Op.Authentic]
  have hlater : ∀ op ∈ [Op.reconcile 2000], op.Authentic := by simp [Op.Authentic]
  unfold run at *
  exact ⟨row, hrow, hopen, hrequested, @cancellationWins_of_requested platform platform_lawful
    cancelling [.reconcile 2000] hops hlater row hrow hopen hrequested⟩

open Sample in
/-- An item whose cancellation is requested ends as completed. -/
theorem forgedEnd_not_wins : ∃ row ∈ (run cancelling).projections.queueItems,
    row.status.terminal = false ∧ (run cancelling).requested row ∧
      ¬@CancellationWins platform row (run cancelling) (run (cancelling ++ [forgedEnd])) := by
  obtain ⟨row, hrow, hkey, hevent, hopen, hrequested⟩ := cancelling_requested
  refine ⟨row, hrow, hopen, hrequested, fun hwins => ?_⟩
  have hcompleted : ∃ row' ∈ (run (cancelling ++ [forgedEnd])).projections.queueItems.rows,
      row'.queueItemId = "qi_e" ∧ row'.eventId = "e" ∧ row'.status = .completed := by
    decide +kernel
  obtain ⟨row', hrow', hkey', hevent', hstatus⟩ := hcompleted
  have hcancelled := @CancellationWins.outcome platform _ _ _ hwins row' hrow'
    (hkey'.trans hkey.symm) (hevent'.trans hevent.symm) (by rw [hstatus]; rfl)
  rw [hstatus] at hcancelled
  cases hcancelled

end Zeta
