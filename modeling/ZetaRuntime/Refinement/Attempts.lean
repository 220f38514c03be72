import ZetaRuntime.Refinement.Coordination

/-!
# Attempts refine the abstract machine

A start records two facts and an end records two, with the controls of a completion in between. In
the abstract machine each is one step: what lies between the two facts is not a state of work. The
proofs collect what the two appends did and put the controls in front, where the abstract machine
has them as arrivals.

None of the facts can have been journaled before. For each, the invariant of the state of work says
so: a start uses the next attempt number, a retry the number after that of the attempt that fails,
and an item or an attempt that is open has no terminal fact.

## Main results

* `steps_startClaimedAttempt`, `steps_failClaimedAttempt`, `steps_completeClaimedAttempt` — each
  operation is steps of the abstract machine
-/

namespace Zeta

open Outcome

variable {s s' : Store} {G : Work.Guard}

variable {outcome outcome' : AppendOutcome} {attempt : AttemptRow} {ended : AttemptStatus}
  {e first second : Event} {nowMs : Int} {events : List Event} {claim : QueueClaim}
  {item : QueueItem} {row : QueueItemRow} {final status : QueueItemStatus} {t t' u : Store}
  {id q : String} {a : Work.Attempt} {it : Work.Item}

/-! ### What the facts say -/

/-- A fact that repeats the payload of an item moves it. -/
theorem moves_of_get (htype : e.eventType = "runtime.queue_item." ++ status.display)
    (hsession : e.sessionId = item.sessionId)
    (hget : ∀ field ∈
      ["queue_item_id", "event_id", "target_agent", "session_id", "project_revision"],
      Map.get e.payload field = Map.get (queueItemPayload item status) field) :
    e.Moves item.queueItemId item.toItem status := by
  simp only [List.forall_mem_cons, List.not_mem_nil, false_imp_iff, implies_true, and_true] at hget
  obtain ⟨hitem, hevent, hagent, hsess, hrev⟩ := hget
  refine ⟨by simp [htype], by simp [htype], ?_, ?_, ?_, ?_, ?_⟩
  · simp [Map.text, hitem, queueItemPayload]
  · simp [Map.text, hevent, queueItemPayload, QueueItemRow.toItem]
  · simp [Map.text, hagent, queueItemPayload, QueueItemRow.toItem]
  · rw [hsession, Map.text, hsess]
    cases hs : item.sessionId with
    | none =>
      cases hr : item.projectRevision <;>
        simp [queueItemPayload, optionalField, hs, hr, QueueItemRow.toItem]
    | some session => simp [queueItemPayload, optionalField, hs, QueueItemRow.toItem]
  · rw [Map.text, hrev]
    cases hs : item.sessionId <;> cases hr : item.projectRevision <;>
      simp [queueItemPayload, optionalField, hs, hr, QueueItemRow.toItem]

/-- What a fact says of an item it says of its row. -/
theorem Event.Moves.of_withClaim {claim : Option QueueClaimRow}
    (h : e.Moves (row.withClaim claim).queueItemId (row.withClaim claim).toItem status) :
    e.Moves row.queueItemId row.toItem status := by
  cases claim <;> exact ⟨h.kind, h.status, h.item, h.event, h.agent, h.session, h.revision⟩

/-- A fact that repeats the identity of an attempt ends it. -/
theorem tries_of_text {status : AttemptStatus} (hstatus : status ≠ .running)
    (htype : e.eventType = "runtime.attempt." ++ status.display)
    (hid : e.payload.text "attempt_id" = some attempt.attemptId)
    (hitem : e.payload.text "queue_item_id" = some attempt.queueItemId)
    (hevent : e.payload.text "event_id" = some attempt.eventId) :
    e.Tries attempt.attemptId attempt.queueItemId attempt.eventId status := by
  refine ⟨?_, ?_, hid, hitem, hevent⟩
  · rw [htype]
    cases status <;> rfl
  · rw [htype]
    cases status with
    | running => exact absurd rfl hstatus
    | completed | failed | cancelled => rfl

/-- A fact may say more of an item than its payload, as long as it does not contradict it. -/
theorem moves_of_append {rest : Map} (htype : e.eventType = "runtime.queue_item." ++ status.display)
    (hsession : e.sessionId = item.sessionId)
    (hpayload : e.payload = queueItemPayload item status ++ rest)
    (hrest : ["queue_item_id", "event_id", "target_agent", "session_id", "project_revision"].all
      (fun field => (Map.get rest field).isNone) = true) :
    e.Moves item.queueItemId item.toItem status := by
  refine moves_of_get htype hsession fun field hfield => ?_
  have hnone := List.all_eq_true.mp hrest field hfield
  rw [hpayload, Map.get_append, Option.isNone_iff_eq_none.mp hnone, Option.or_none]

section

variable (identity : RuntimeEventIdentity)
include identity

theorem moves_claimedQueueEvent (input : Event) (item : QueueItem)
    (attemptNumber : ℕ) (runId : String) :
    (claimedQueueEvent identity input item attemptNumber runId).Moves item.queueItemId item.toItem
      .claimed :=
  moves_of_append rfl rfl rfl rfl

theorem moves_retryEvent (input : Event) (item : QueueItem)
    (attempt : AttemptRow) (notBefore : Int) :
    (retryEvent identity input item attempt notBefore).Moves item.queueItemId item.toItem
      .available :=
  moves_of_append rfl rfl rfl rfl

theorem moves_deadLetteredEvent (input : Event) (item : QueueItem)
    (attempt : AttemptRow) (failure : AttemptFailure) :
    (deadLetteredEvent identity input item attempt failure).Moves item.queueItemId item.toItem
      .deadLettered :=
  moves_of_append rfl rfl rfl rfl

theorem moves_completedQueueEvent (input : Event)
    (item : QueueItem) (attempt : AttemptRow) (result : Map) :
    (completedQueueEvent identity input item attempt result).Moves item.queueItemId item.toItem
      .completed :=
  moves_of_append rfl rfl rfl rfl

theorem tries_failedAttemptEvent (input : Event) (attempt : AttemptRow) (failure : AttemptFailure) :
    (failedAttemptEvent identity input attempt failure).Tries attempt.attemptId attempt.queueItemId
      attempt.eventId .failed :=
  tries_of_text (by decide) rfl rfl rfl rfl

theorem tries_completedAttemptEvent (input : Event)
    (attempt : AttemptRow) (finishedAt : String) (result : Map) :
    (completedAttemptEvent identity input attempt finishedAt result).Tries attempt.attemptId
      attempt.queueItemId attempt.eventId .completed :=
  tries_of_text (by decide) rfl rfl rfl rfl

/-- What the start of an attempt says. -/
theorem tries_startedAttemptEvent (input : Event) (item : QueueItem) (fields : AttemptStartFields) :
    (startedAttemptEvent identity input item fields).Tries fields.attemptId item.queueItemId
      item.eventId .running :=
  ⟨by simp only [startedAttemptEvent, runtimeFact]; decide,
    by simp only [startedAttemptEvent, runtimeFact]; decide, rfl, rfl, rfl⟩

theorem session_startedAttemptEvent (input : Event)
    (item : QueueItem) (fields : AttemptStartFields) :
    (Map.text (startedAttemptEvent identity input item fields).payload "session_id").or
      (startedAttemptEvent identity input item fields).sessionId = item.sessionId := by
  have hget : Map.get (startedAttemptEvent identity input item fields).payload "session_id"
      = some (optionalText item.sessionId) := rfl
  have hsession : (startedAttemptEvent identity input item fields).sessionId = item.sessionId := rfl
  rw [Map.text, hget, hsession]
  cases item.sessionId <;> rfl

theorem number_startedAttemptEvent (input : Event)
    (item : QueueItem) (fields : AttemptStartFields) {n : ℕ}
    (h : requiredPositiveU32 (startedAttemptEvent identity input item fields) "attempt_number"
      = .ok n) : n = fields.attemptNumber := by
  have hread : requiredPositiveU32 (startedAttemptEvent identity input item fields) "attempt_number"
      = decodePositiveU32 (invalidLifecycle (startedAttemptEvent identity input item fields)
        "attempt_number") (some (.number (.int fields.attemptNumber))) := rfl
  rw [hread] at h
  simp only [decodePositiveU32, ok_iff] at h
  obtain ⟨value, hvalue, _, -, rfl⟩ := h
  simp only [Number.asU64] at hvalue
  split at hvalue
  · simpa using hvalue.symm
  · cases hvalue

end

/-! ### Starting -/

/-- Fencing an attempt is invisible. -/
theorem work_fenceAttempt (s : Store) (attemptId token : String) (nowMs : Int) :
    (Store.work { s with projections := s.projections.fenceAttempt attemptId token nowMs })
      = s.work := by
  refine Work.ext rfl rfl ?_ rfl rfl
  funext id
  simp only [Store.work, Projections.fenceAttempt, Table.find?_updateWhere]
  cases s.projections.attempts.find? id with
  | none => rfl
  | some row =>
    simp only [Option.map_some]
    split <;> rfl

variable [Platform]

/-- The two facts of a start are one step of the abstract machine. -/
theorem steps_start (hinv : s.work.Inv) (hit : s.work.items q = some it)
    (howned : s.work.claims q ≠ none) (hagent : it.agent ≠ "")
    (hstart : ∀ v : Work, v.attempts = s.work.attempts → G.start v q)
    (hmoves : first.Moves q it .claimed)
    (hkey : first.idempotencyKey =
      some (queueItemAttemptIdempotencyKey it.event it.agent .claimed (it.attempts + 1)))
    (htries : second.Tries (attemptId q (it.attempts + 1)) q it.event .running)
    (hnumber : ∀ n, requiredPositiveU32 second "attempt_number" = .ok n → n = it.attempts + 1)
    (hsession : (second.payload.text "session_id").or second.sessionId = it.session)
    (hfirst : appendRuntimeEvent s first = .ok (outcome, t))
    (hsecond : appendRuntimeEvent t second = .ok (outcome', u)) :
    Work.Steps G s.work u.work ∧ it.status = .available ∧
      u.work.attempts = Function.update s.work.attempts (attemptId q (it.attempts + 1))
        (some ⟨q, it.event, it.attempts + 1, .running, it.session⟩) := by
  -- The queue fact is new: its number is the next one.
  have hrecorded : Recorded s first t := by
    refine recorded_of_unlogged (fun _ _ => fact_eq_of_sameLifecycleIntention) hfirst hmoves.fact_eq
      ?_
    intro hlogged
    rw [hkey] at hlogged
    have := hinv.started q it _ hit hlogged
    omega
  obtain ⟨v, hcleared, hedge, ht⟩ := hrecorded.moves hmoves hit (hinv.known q it hit)
  -- So is the attempt fact: there is no attempt with this number.
  have hrecorded' : Recorded t second u := by
    refine recorded_of_unlogged (fun _ _ => fact_eq_of_sameLifecycleIntention) hsecond
      htries.fact_eq ?_
    rw [ht]
    intro hlogged
    simp only [List.mem_append, List.mem_singleton, reduceCtorEq, or_false] at hlogged
    obtain ⟨a, ha, -⟩ := hinv.attemptLog _ _ _ _ hlogged
    obtain ⟨hid, -, it', hit', -, -, hle, -⟩ := hinv.attempt _ a ha
    obtain ⟨rfl, hn⟩ := attemptId_inj hid
    obtain rfl : it = it' := Option.some.inj (hit.symm.trans hit')
    omega
  have hit₁ : t.work.items q = some { it with status := .claimed } := by
    rw [ht]
    exact Function.update_self ..
  obtain ⟨hfree, hu⟩ := hrecorded'.runs hit₁ htries hnumber hsession
  -- A claimed item cannot be claimed again, and a pending one is not owned.
  have hstatus : it.status = .available := by
    obtain ⟨it', hit', hstatus⟩ := hinv.owned q howned
    obtain rfl : it = it' := Option.some.inj (hit.symm.trans hit')
    rcases hstatus with h | h
    · exact h
    · rw [h] at hedge
      simp [QueueItemStatus.canTransition] at hedge
  have hv : v.items q = some it := hcleared.items_self.trans hit
  have hattempts : v.attempts (attemptId q (it.attempts + 1)) = none := by
    rw [ht] at hfree
    exact hfree
  have hgrows : Work.Grows v.cursors u.work.cursors := by
    rw [hcleared.cursors_eq]
    exact fun e c hc => hrecorded'.grows e c (hrecorded.grows e c hc)
  have hattempts' : t.work.attempts = s.work.attempts := by
    rw [ht]
    exact hcleared.attempts_eq
  refine ⟨(hcleared.steps_of_present hinv.toShape hit rfl).tail ?_, hstatus, by rw [hu, hattempts']⟩
  convert Work.Step.start hv (hcleared.claims_self ▸ howned) hstatus hagent hattempts
    (hstart v hcleared.attempts_eq) hgrows using 1
  rw [hu, ht]
  refine Work.ext ?_ rfl ?_ rfl ?_
  · simp [Function.update_idem]
  · rfl
  · simp [hcleared.log_eq, hkey]

/-- A start is one step of the abstract machine, or resolves to an earlier one. A new attempt is
that of an available item. -/
theorem steps_startClaimedAttempt (hinv : s.work.Inv)
    {queueIdentity attemptIdentity : RuntimeEventIdentity} {startedAt : String}
    {claimedRunId : Option String} {started : StartedAttempt}
    (hstart : loadRunningAttemptForClaim s.projections claim = .ok none → ∀ v : Work, v.attempts =
      s.work.attempts → G.start v claim.queueItemId)
    (h : startClaimedAttempt s claim nowMs queueIdentity attemptIdentity startedAt claimedRunId =
      .ok (started, s')) :
    Work.Steps G s.work s'.work ∧ (s' = s ∨
      ∃ it, s.work.items claim.queueItemId = some it ∧ it.status = .available ∧
        s'.work.attempts = Function.update s.work.attempts
          (attemptId claim.queueItemId (it.attempts + 1))
          (some ⟨claim.queueItemId, it.event, it.attempts + 1, .running, it.session⟩)) := by
  simp only [startClaimedAttempt, ok_iff] at h
  obtain ⟨_, -, _, -, _, hcurrent, found, hfound, item, rfl, _, hagent, input, -, running, hrunning,
    h⟩ := h
  cases running with
  | some attempt =>
    simp only [startOrRepeat, repeatStart, ok_iff, Prod.mk.injEq] at h
    obtain ⟨_, -, _, -, _, -, _, -, -, rfl⟩ := h
    exact ⟨.refl, .inl rfl⟩
  | none =>
    obtain ⟨row, hrow, rfl⟩ := loadQueueItem_some hfound
    simp only [startOrRepeat, startNext, startEvents, appendBatch, ok_iff, pair_iff] at h
    obtain ⟨_, -, events, _, ⟨_, t, hfirst, _, _, ⟨_, u, hsecond, _, _, ⟨-, rfl⟩, -, rfl⟩, -, rfl⟩,
      -, rfl⟩ := h
    rw [work_fenceAttempt]
    have hq := Table.key_of_find? hrow
    generalize s.projections.queueClaims.find? claim.queueItemId = c at hfirst hsecond hagent
    have hit := work_items_of_find? hrow
    suffices h : Work.Steps G s.work u.work ∧ row.toItem.status = .available ∧
        u.work.attempts = Function.update s.work.attempts
          (attemptId claim.queueItemId (row.toItem.attempts + 1)) (some ⟨claim.queueItemId,
            row.toItem.event, row.toItem.attempts + 1, .running, row.toItem.session⟩) from
      ⟨h.1, .inr ⟨row.toItem, hit, h.2⟩⟩
    refine steps_start hinv hit (owned_of_claimIsCurrentIn hcurrent)
      ?_ (hstart hrunning) (hq ▸ (moves_claimedQueueEvent _ _ _ _ _).of_withClaim) ?_ ?_ ?_ ?_
      hfirst hsecond
    · simpa only [QueueItemRow.toQueueItemRow_withClaim, QueueItemRow.toItem] using hagent
    · simp only [claimedQueueEvent, runtimeFact, QueueItemRow.toQueueItemRow_withClaim,
        QueueItemRow.toItem]
    · have htries := tries_startedAttemptEvent attemptIdentity input (row.withClaim c)
      simp only [QueueItemRow.toQueueItemRow_withClaim, hq] at htries ⊢
      exact htries _
    · intro n hn
      have := number_startedAttemptEvent _ _ _ _ hn
      simpa only [QueueItemRow.toQueueItemRow_withClaim, QueueItemRow.toItem] using this
    · rw [session_startedAttemptEvent, QueueItemRow.toQueueItemRow_withClaim]
      rfl

/-! ### Ending -/

omit [Platform] in
/-- The fact that ends an item with its attempt is not in the log. -/
theorem ends_unlogged {w : Work} (hinv : w.Inv) {key : Option String} (hit : w.items q = some it)
    (howned : w.claims q ≠ none) (hattempt : w.attempts id = some a) (hitem : a.item = q)
    (hrunning : a.status = .running) (hends : Work.Ends G q it a ended final key) :
    .queue q it.event final key ∉ w.log := by
  intro hlogged
  have hopen := (hinv.open_of_owned hit howned).1
  cases hends with
  | completed | deadLettered | cancelled =>
    have := hinv.ended q it.event _ _ hlogged rfl it hit rfl
    rw [hopen] at this
    cases this
  | retried =>
    -- A retry with this number followed the failure of the attempt that is still running.
    obtain ⟨a', ha', hfailed⟩ := hinv.retried q it _ hit hlogged
    obtain ⟨rfl, -⟩ := hinv.attempt id a hattempt
    rw [hitem, ha'] at hattempt
    obtain rfl := Option.some.inj hattempt
    rw [hrunning] at hfailed
    cases hfailed

/-- The fact that ends an attempt, whatever arrives then, and the fact that ends its item, are one
step of the abstract machine after the arrivals. -/
theorem steps_finish (hinv : s.work.Inv) (hs : Ordered s.journal) (hit : s.work.items q = some it)
    (howned : s.work.claims q ≠ none) (hattempt : s.work.attempts id = some a) (hitem : a.item = q)
    (hrunning : a.status = .running) (htries : first.Tries id q it.event ended)
    (hended : ended ≠ .running) (hmoves : second.Moves q it final)
    (hends : Work.Ends G q it a ended final second.idempotencyKey)
    (hfirst : appendRuntimeEvent s first = .ok (outcome, t)) (harrived : t.work.Arrived t'.work)
    (hsecond : appendRuntimeEvent t' second = .ok (outcome', u))
    (hrelease : s'.work = { u.work with claims := Function.update u.work.claims q none }) :
    Work.Steps G s.work s'.work := by
  have hrecorded : Recorded s first t := by
    refine recorded_of_unlogged (fun _ _ => fact_eq_of_sameLifecycleIntention) hfirst htries.fact_eq
      ?_
    intro hlogged
    obtain ⟨a', ha', -, -, hstatus⟩ := hinv.attemptLog _ _ _ _ hlogged
    obtain rfl : a = a' := Option.some.inj (hattempt.symm.trans ha')
    exact hended ((hstatus hended).symm.trans hrunning)
  obtain ⟨a', ha', -, -, -, ht⟩ := hrecorded.ends htries hended
  obtain rfl : a = a' := Option.some.inj (hattempt.symm.trans ha')
  have hlog : t'.work.log = s.work.log ++ [.attempt id q it.event ended] := by
    rw [harrived.log, ht]
  have hrecorded' : Recorded t' second u := by
    refine recorded_of_unlogged (fun _ _ => fact_eq_of_sameLifecycleIntention) hsecond
      hmoves.fact_eq ?_
    rw [hlog]
    simp only [List.mem_append, List.mem_singleton, reduceCtorEq, or_false]
    exact ends_unlogged hinv hit howned hattempt hitem hrunning hends
  have hit' : t'.work.items q = some it := harrived.keeps q it (by rw [ht]; exact hit)
  have hgrows : Work.Grows s.work.cursors t'.work.cursors :=
    fun e c hc => harrived.grows e c (hrecorded.grows e c hc)
  obtain ⟨v, hcleared, -, hu⟩ := hrecorded'.moves hmoves hit' (hgrows _ _ (hinv.known q it hit))
  -- What arrived, with the attempts and the log as they were before.
  let w : Work := { t'.work with attempts := s.work.attempts, log := s.work.log }
  have hsteps : Work.Steps G s.work w := by
    have hnote : Work.Step G s.work { s.work with cursors := t.work.cursors } := by
      rw [hrecorded.cursors_eq]
      exact .note (hrecorded.newest hs)
    have hbase : { s.work with cursors := t.work.cursors }
        = { t.work with attempts := s.work.attempts, log := s.work.log } := by rw [ht]
    rw [hbase] at hnote
    exact .head hnote (harrived.steps G s.work.attempts s.work.log)
  have hcleared' : w.Cleared q it.event { v with attempts := s.work.attempts, log := s.work.log } :=
    hcleared.rebase s.work.attempts s.work.log
  refine (hsteps.trans (hcleared'.steps_of_present (hsteps.inv hinv).toShape hit' rfl)).tail ?_
  have hfound : v.items q = some it := hcleared.items_self.trans hit'
  have hclaims : v.claims q ≠ none := by
    rw [hcleared.claims_self, harrived.claims, ht]
    exact howned
  have hcursors : Work.Grows v.cursors u.work.cursors := by
    rw [hcleared.cursors_eq]
    exact hrecorded'.grows
  convert Work.Step.finish (w := { v with attempts := s.work.attempts, log := s.work.log })
    hfound hclaims hattempt hitem hrunning hends hcursors using 1
  rw [hrelease, hu]
  refine Work.ext rfl rfl ?_ rfl ?_
  · change v.attempts = _
    rw [hcleared.attempts_eq, harrived.attempts, ht]
  · simp [hlog]

/-- What a worker that reports under a current claim works on. -/
structure Fenced (s : Store) (claim : QueueClaim) (item : QueueItem) (attempt : AttemptRow)
    (row : QueueItemRow) : Prop where
  found : s.projections.queueItems.find? claim.queueItemId = some row
  joined : item = row.withClaim (s.projections.queueClaims.find? claim.queueItemId)
  owned : s.work.claims claim.queueItemId ≠ none
  tried : s.work.attempts attempt.attemptId = some attempt.toAttempt
  ofItem : attempt.queueItemId = claim.queueItemId
  ofEvent : attempt.eventId = row.eventId
  running : attempt.status = .running

omit [Platform] in
theorem fenced_of_loads (hinv : s.work.Inv)
    (hcurrent : claimIsCurrentIn s.projections claim nowMs = true)
    (hrunning : loadRunningAttemptForClaim s.projections claim = .ok (some attempt))
    (hfound : loadQueueItem s.projections claim.queueItemId = .ok (some item)) :
    ∃ row, Fenced s claim item attempt row := by
  obtain ⟨row, hrow, hitem⟩ := loadQueueItem_some hfound
  obtain ⟨hmem, hid, hstatus⟩ := loadRunningAttemptForClaim_some hrunning
  have hattempt := work_attempts_of_mem hmem
  refine ⟨row, hrow, hitem, owned_of_claimIsCurrentIn hcurrent, hattempt, hid, ?_, hstatus⟩
  obtain ⟨-, -, it, hit, hevent, -⟩ := hinv.attempt _ _ hattempt
  obtain rfl : row.toItem = it := Option.some.inj
    ((work_items_of_find? hrow).symm.trans (hid ▸ hit))
  exact hevent

/-- Two facts that end the attempt and the item of a worker, and the release of its claim. -/
theorem Fenced.steps (h : Fenced s claim item attempt row) (hinv : s.work.Inv)
    (hs : Ordered s.journal)
    (htries : first.Tries attempt.attemptId attempt.queueItemId attempt.eventId ended)
    (hended : ended ≠ .running) (hmoves : second.Moves item.queueItemId item.toItem final)
    (hends : Work.Ends G claim.queueItemId row.toItem attempt.toAttempt ended final
      second.idempotencyKey) (hfirst : appendRuntimeEvent s first = .ok (outcome, t))
    (harrived : t.work.Arrived t'.work) (hsecond : appendRuntimeEvent t' second = .ok (outcome', u))
    (hrelease : releaseClaimInTransaction u claim = .ok s') : Work.Steps G s.work s'.work := by
  rw [h.joined] at hmoves
  rw [h.ofItem, h.ofEvent] at htries
  exact steps_finish hinv hs (work_items_of_find? h.found) h.owned h.tried h.ofItem h.running htries
    hended (Table.key_of_find? h.found ▸ hmoves.of_withClaim) hends hfirst harrived hsecond
    (work_releaseClaimInTransaction hrelease)

omit [Platform] in
theorem tries_liveCancelled (identity : RuntimeEventIdentity) (attempt : AttemptRow)
    (finishedAt : String) (result : Map) (key : String)
    (causedBy sessionId runId turnId : Option String) :
    (runtimeFact identity "runtime.attempt.cancelled"
      (((attemptPayload attempt .cancelled).insert "finished_at" (.string finishedAt)).insert
        "result" (.object result)) key causedBy sessionId runId turnId).Tries attempt.attemptId
      attempt.queueItemId attempt.eventId .cancelled :=
  tries_of_text (by decide) rfl rfl rfl rfl

omit [Platform] in
theorem moves_liveCancelled (identity : RuntimeEventIdentity) (item : QueueItem) (result : Map)
    (key : String) (causedBy runId turnId : Option String) :
    (runtimeFact identity "runtime.queue_item.cancelled"
      ((queueItemPayload item .cancelled).insert "result" (.object result)) key causedBy
      item.sessionId runId turnId).Moves item.queueItemId item.toItem .cancelled := by
  refine moves_of_get rfl rfl fun field hfield => ?_
  have hne : "result" ≠ field := by
    rintro rfl
    revert hfield
    decide
  exact (Map.get_insert _ _ _ _).trans (if_neg hne)

/-- A worker that saw the request ends its attempt and its item as cancelled. -/
theorem Fenced.steps_liveCancelled (h : Fenced s claim item attempt row) (hinv : s.work.Inv)
    (hs : Ordered s.journal) {first second : RuntimeEventIdentity} {input : Event}
    {finishedAt : String} {rawResult : Option Map}
    (hbatch : appendBatch sameLifecycleIntention s
      (liveCancelledEvents first second input item attempt finishedAt rawResult) = .ok (events, u))
    (hrelease : releaseClaimInTransaction u claim = .ok s') : Work.Steps G s.work s'.work := by
  simp only [liveCancelledEvents, appendBatch, ok_iff, pair_iff] at hbatch
  obtain ⟨_, t, hfirst, _, _, ⟨_, _, hsecond, _, _, ⟨-, rfl⟩, -, rfl⟩, -, rfl⟩ := hbatch
  exact h.steps hinv hs (tries_liveCancelled _ _ _ _ _ _ _ _ _) (by decide)
    (moves_liveCancelled _ _ _ _ _ _ _) .cancelled hfirst (.refl _) hsecond hrelease

/-- A failure ends the attempt, and decides about the item. -/
theorem steps_failClaimedAttempt (hinv : s.work.Inv) (hs : Ordered s.journal)
    {first second : RuntimeEventIdentity} {failure : AttemptFailure}
    (hlimit : G.limit claim.queueItemId failure.retryPolicy.maxAttempts)
    (h : failClaimedAttempt s claim nowMs first second failure = .ok (events, s')) :
    Work.Steps G s.work s'.work := by
  simp only [failClaimedAttempt, ok_iff, pair_iff] at h
  obtain ⟨_, -, _, -, _, -, _, hcurrent, _, hrunning, attempt, rfl, _, hfound, item, rfl, input, -,
    facts, hfacts, _, u, hbatch, _, hrelease, -, rfl⟩ := h
  obtain ⟨row, hfenced⟩ := fenced_of_loads hinv hcurrent hrunning hfound
  unfold failureEvents at hfacts
  split at hfacts
  · cases hfacts
    exact hfenced.steps_liveCancelled hinv hs hbatch hrelease
  rename_i hrequested
  simp only [ok_iff] at hfacts
  obtain ⟨disposition, hdisposition, rfl⟩ := hfacts
  simp only [appendBatch, ok_iff, pair_iff] at hbatch
  obtain ⟨_, t, hfirst, _, _, ⟨_, _, hsecond, _, _, ⟨-, rfl⟩, -, rfl⟩, -, rfl⟩ := hbatch
  have huncancelled : row.toItem.cancelRequested = false := by
    rw [hfenced.joined, QueueItemRow.toQueueItemRow_withClaim] at hrequested
    simpa [QueueItemRow.toItem] using hrequested
  unfold failedQueueDispositionEvent at hdisposition
  split at hdisposition
  · rename_i hretries
    simp only [retriesAfter, RetryPolicy.permitsRetryAfter, Bool.and_eq_true,
      decide_eq_true_eq] at hretries
    simp only [ok_iff] at hdisposition
    obtain ⟨notBefore, -, rfl⟩ := hdisposition
    refine hfenced.steps hinv hs (tries_failedAttemptEvent _ _ _ _) (by decide)
      (moves_retryEvent _ _ _ _ _) ?_ hfirst (.refl _) hsecond hrelease
    have hkey : (retryEvent second input item attempt notBefore).idempotencyKey
        = some (queueItemAttemptIdempotencyKey row.toItem.event row.toItem.agent .available
          (attempt.toAttempt.number + 1)) := by
      simp only [retryEvent, runtimeFact, hfenced.joined, QueueItemRow.toQueueItemRow_withClaim,
        QueueItemRow.toItem, AttemptRow.toAttempt]
    rw [hkey]
    exact .retried huncancelled hlimit hretries.2
  · cases hdisposition
    exact hfenced.steps hinv hs (tries_failedAttemptEvent _ _ _ _) (by decide)
      (moves_deadLetteredEvent _ _ _ _ _) (.deadLettered huncancelled) hfirst (.refl _) hsecond
        hrelease

/-- A completion applies its controls and ends the attempt and the item, or cancels them. -/
theorem steps_completeClaimedAttempt (hinv : s.work.Inv) (hs : Ordered s.journal)
    {identities : List RuntimeEventIdentity} {completion : AttemptCompletion}
    (hauthentic : ∀ control ∈ completion.controls, control.Authentic)
    (h : completeClaimedAttempt s claim nowMs identities completion = .ok (events, s')) :
    Work.Steps G s.work s'.work := by
  obtain ⟨_, controls, _, _, _, _, attempt, item, _, u, hcontrols, -, -, -, hcurrent, hrunning,
    hfound, -, hrecord, hrelease⟩ := completeClaimedAttempt_ok h
  obtain ⟨row, hfenced⟩ := fenced_of_loads hinv hcurrent hrunning hfound
  unfold recordCompletion at hrecord
  split at hrecord
  · exact hfenced.steps_liveCancelled hinv hs hrecord hrelease
  rename_i hproposed
  simp only [recordSuccess, ok_iff, pair_iff] at hrecord
  obtain ⟨completed, t, hcompleted, _, t', happly, _, _, hended, -, rfl⟩ := hrecord
  have huncancelled : row.toItem.cancelRequested = false := by
    rw [hfenced.joined, QueueItemRow.toQueueItemRow_withClaim] at hproposed
    simpa [QueueItemRow.toItem] using fun hsome => hproposed (.inr hsome)
  have hordered : Ordered t.journal := by
    rcases appendCandidate_ok hcompleted with ⟨-, rfl, -⟩ | ⟨-, hrecorded⟩
    · exact hs
    · exact hrecorded.ordered hs
  have harrived := ((recordings_applyControls (fun c hc event hevent => hevent.aside (hauthentic _
    (mem_of_completionControls hcontrols (List.of_mem_zip hc).1))) happly).arrived hordered).1
  exact hfenced.steps hinv hs (tries_completedAttemptEvent _ _ _ _ _) (by decide)
    (moves_completedQueueEvent _ _ _ _ _) (.completed huncancelled) hcompleted harrived hended
    hrelease

end Zeta
