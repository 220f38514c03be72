import ZetaRuntime.Work.Outcomes
import ZetaRuntime.Refinement.Run
import ZetaRuntime.Guarantee.Reserved

/-!
# Fencing

A worker acts under a claim, and the claim is looked up in the transaction that does what the worker
asks for. If it is not the unexpired owner of its item, nothing happens. What is recorded under a
claim is therefore recorded by one worker at a time, and an item ends once: it has one terminal fact
at most, one attempt of it is completed at most, and what its completion asks for at a position is
done once.

The last of these rests on keys. What a control creates is recorded under a key of the item and the
position, and no key is journaled twice.
-/

namespace Zeta

open Outcome

variable {nowMs : Int} {s : Store} {e q : String}

/-- The claim an operation of a worker is done under, and the time it is done at. -/
def Op.presents : Op → Option (QueueClaim × Int)
  | .renew owner _ nowMs | .release owner nowMs | .start owner nowMs _ _ _ _
  | .fail owner nowMs _ _ _ | .complete owner nowMs _ _ => some (owner, nowMs)
  | _ => none

/-- A claim is the unexpired owner of its item. -/
def Store.Owns (s : Store) (claim : QueueClaim) (nowMs : Int) : Prop :=
  ∃ row ∈ s.projections.queueClaims, row.queueItemId = claim.queueItemId ∧
    row.workerName = claim.workerName ∧ row.claimToken = claim.token ∧ nowMs < row.claimedUntil

/-- Whether an event is a terminal lifecycle fact of an item. -/
def Event.settlesItem (event : Event) (queueItemId eventId : String) : Bool :=
  eventKind event.eventType = .queueItem
    && (QueueItemStatus.fromStr (lastSegment event.eventType)).any (·.terminal)
    && event.payload.text "queue_item_id" = some queueItemId
    && event.payload.text "event_id" = some eventId

/-- Whether an event says that an attempt of an item is completed. -/
def Event.completesAttempt (event : Event) (queueItemId eventId : String) : Bool :=
  event.eventType = "runtime.attempt.completed"
    && event.payload.text "queue_item_id" = some queueItemId
    && event.payload.text "event_id" = some eventId

/-- The keys under which what a control creates is recorded: an event, a publication that is due
later, a wait. -/
def controlKeys (queueItemId : String) (position : ℕ) : List String :=
  [publicationKey queueItemId position,
    "agent.defer:" ++ queueItemId ++ ":" ++ toString position,
    "agent.wait:" ++ queueItemId ++ ":" ++ toString position]

/-- Items end once, by one completed attempt at most, and what is created for a position is created
once. -/
structure Store.EndsOnce (s : Store) : Prop where
  settled : ∀ q e, (s.journal.countP fun entry => entry.event.settlesItem q e) ≤ 1
  completed : ∀ q e, (s.journal.countP fun entry => entry.event.completesAttempt q e) ≤ 1
  created : ∀ q position, ∀ key ∈ controlKeys q position,
    (s.journal.countP fun entry => entry.event.idempotencyKey = some key) ≤ 1

/-! ### Claims -/

theorem owns_of_current {claim : QueueClaim}
    (h : claimIsCurrentIn s.projections claim nowMs = true) :
    s.Owns claim nowMs := by
  simp only [claimIsCurrentIn, QueueClaim.names, List.any_eq_true, Bool.and_eq_true,
    decide_eq_true_eq] at h
  obtain ⟨row, hrow, ⟨⟨hitem, hworker⟩, htoken⟩, huntil⟩ := h
  exact ⟨row, hrow, hitem, hworker, htoken, huntil⟩

section

variable [Platform] {s : Store}

theorem apply_of_not_owns {op : Op} {claim : QueueClaim} (hop : op.presents = some (claim, nowMs))
    (h : ¬s.Owns claim nowMs) : apply s op = s := by
  have hstale : ¬claimIsCurrentIn s.projections claim nowMs = true := mt owns_of_current h
  cases op with
  | renew owner leaseMs now =>
    cases hop
    refine commit_eq_self fun renewed s' hok => ?_
    simp only [renewClaim, hstale, Bool.false_eq_true, if_false, ok_iff, Prod.mk.injEq] at hok
    obtain ⟨_, -, -, hsame⟩ := hok
    exact hsame.symm
  | release owner now =>
    cases hop
    show (releaseClaim s claim nowMs).2 = s
    rw [releaseClaim, if_neg hstale]
  | start owner now =>
    cases hop
    refine commit_eq_self fun started s' hok => ?_
    simp only [startClaimedAttempt, ok_iff] at hok
    obtain ⟨_, -, _, -, _, howner, -⟩ := hok
    exact absurd howner hstale
  | fail owner now =>
    cases hop
    refine commit_eq_self fun events s' hok => ?_
    simp only [failClaimedAttempt, ok_iff] at hok
    obtain ⟨_, -, _, -, _, -, _, howner, -⟩ := hok
    exact absurd howner hstale
  | complete owner now identities completion =>
    cases hop
    refine commit_eq_self fun events s' hok => ?_
    obtain ⟨_, _, _, _, _, _, _, _, _, _, -, -, -, -, howner, -⟩ := completeClaimedAttempt_ok hok
    exact absurd howner hstale
  | _ => simp [Op.presents] at hop

end

/-! ### Ends -/

theorem Event.fact_of_settlesItem {event : Event} (h : event.settlesItem q e = true) :
    event.fact.any (·.settles q e) = true := by
  simp only [Event.settlesItem, Bool.and_eq_true, decide_eq_true_eq] at h
  obtain ⟨⟨⟨hkind, hterminal⟩, hitem⟩, hevent⟩ := h
  cases hstatus : QueueItemStatus.fromStr (lastSegment event.eventType) with
  | none => simp [hstatus] at hterminal
  | some status =>
    rw [hstatus, Option.any_some] at hterminal
    simp [Event.fact, hkind, hstatus, Event.text, hitem, hevent, Work.Fact.settles, hterminal]

theorem Event.fact_of_completesAttempt {event : Event} (h : event.completesAttempt q e = true) :
    event.fact.any (·.completes q e) = true := by
  simp only [Event.completesAttempt, Bool.and_eq_true, decide_eq_true_eq] at h
  obtain ⟨⟨htype, hitem⟩, hevent⟩ := h
  have hkind : eventKind event.eventType = .attempt := by rw [htype]; decide
  have hstatus : attemptStatusOfType (lastSegment event.eventType) = some .completed := by
    rw [htype]; decide
  simp [Event.fact, hkind, hstatus, Event.text, hitem, hevent, Work.Fact.completes]

/-- The journal has no more facts of a kind than the log shows. -/
theorem countP_journal_le (s : Store) {P : Event → Bool} {Q : Work.Fact → Bool}
    (hP : ∀ event, P event = true → event.fact.any Q = true) :
    (s.journal.countP fun entry => P entry.event) ≤ s.work.log.countP Q := by
  show _ ≤ (s.journal.filterMap (·.event.fact)).countP Q
  rw [List.countP_filterMap]
  refine List.countP_mono_left fun entry _ hentry => ?_
  have hfact := hP entry.event hentry
  cases h : entry.event.fact with
  | none => simp [h] at hfact
  | some fact => simpa [h] using hfact

/-! ### Positions -/

/-- What a control creates is recorded under a key of its item and its position. -/
theorem key_of_completionControlEvent [Platform] {identity : RuntimeEventIdentity}
    {ctx : CompletionContext} {control : AttemptControl} {event : Event}
    (h : completionControlEvent identity ctx control = .ok event) :
    ∃ key ∈ controlKeys ctx.item.queueItemId control.position, event.idempotencyKey = some key := by
  cases control with
  | publish handle eventType payload at_ position =>
    simp only [completionControlEvent, ok_iff] at h
    obtain ⟨immediate, -, rfl⟩ := h
    cases immediate with
    | true => exact ⟨_, .head _, rfl⟩
    | false => exact ⟨_, .tail _ (.head _), rfl⟩
  | wait handle eventType fields deadline position =>
    simp only [completionControlEvent, Except.ok.injEq] at h
    subst h
    exact ⟨_, .tail _ (.tail _ (.head _)), rfl⟩
  | cancel => simp [completionControlEvent] at h

/-- A key is journaled once. -/
theorem countP_key_le {entries : List JournalEntry}
    (h : (entries.filterMap (·.event.idempotencyKey)).Nodup) (key : String) :
    (entries.countP fun entry => entry.event.idempotencyKey = some key) ≤ 1 := by
  have hcount := List.nodup_iff_count_le_one.mp h key
  rw [List.count, List.countP_filterMap] at hcount
  refine le_trans (List.countP_mono_left fun entry _ hentry => ?_) hcount
  simp only [decide_eq_true_eq] at hentry
  simp [hentry]

theorem endsOnce_of_ready [Platform] {G : Work.Guard} (hready : Ready s)
    (hsteps : Work.Steps G .empty s.work) : s.EndsOnce where
  settled q e := (countP_journal_le s fun _ => Event.fact_of_settlesItem).trans
    (hsteps.settled q e).1
  completed q e :=
    (countP_journal_le s fun _ => Event.fact_of_completesAttempt).trans (hsteps.settled q e).2
  created _ _ key _ := countP_key_le hready.history.sound.nodup.2 key

/-- An operation under a claim that is not the unexpired owner of its item does nothing, whatever
state the store is in. What controls create has a key of their item and position. And in every run
in which nobody forges lifecycle facts, items end once. -/
theorem fenced_and_endsOnce [Platform] [LawfulFloatText] :
    (∀ (s : Store) (op : Op) (claim : QueueClaim) (nowMs : Int),
      op.presents = some (claim, nowMs) → ¬s.Owns claim nowMs → apply s op = s) ∧
    (∀ (identity : RuntimeEventIdentity) (ctx : CompletionContext) (control : AttemptControl)
      (event : Event), completionControlEvent identity ctx control = .ok event →
      ∃ key ∈ controlKeys ctx.item.queueItemId control.position, event.idempotencyKey = some key) ∧
    ∀ ops : List Op, (∀ op ∈ ops, op.Authentic) → (applyAll .empty ops).EndsOnce := by
  refine ⟨fun s op claim nowMs => apply_of_not_owns, fun _ _ _ _ => key_of_completionControlEvent,
    fun ops hops => ?_⟩
  obtain ⟨hready, hsteps⟩ := steps_of_authentic (G := .none) hops fun op _ s => op.allowed_none s
  exact endsOnce_of_ready hready hsteps

namespace Sample

/-- The second agent publishes that the attempt of the first one is completed. Its lease ends, and
its item is claimed, attempted and completed once more. -/
def completedTwice : List Op := running ++ [
  .ingest (event "d" "note" []),
  .route "d" [route "b" "note"] [identity "g1"],
  .claim "worker" "u" 1000 0,
  .start (claim "qi_d" "u") 0 (identity "g2") (identity "g3") "1970-01-01T00:00:00Z" none,
  .complete (claim "qi_d" "u") 0 [identity "h1", identity "h2", identity "h3"]
    (succeeding [.publish "p" "runtime.attempt.completed"
      [("attempt_id", .string (attemptId "qi_e" 1)), ("queue_item_id", .string "qi_e"),
        ("event_id", .string "e"), ("attempt_number", .number (.int 1)),
        ("target_agent", .string "a"), ("session_id", .string "agent/a"),
        ("run_id", .string "run_att_qi_e_1"), ("status", .string "completed")] none 0]),
  .reconcile 2000,
  .claim "worker" "v" 1000 2000,
  .start (claim "qi_e" "v") 2000 (identity "i1") (identity "i2") "1970-01-01T00:00:00Z" none,
  .complete (claim "qi_e" "v") 2000 [identity "i3", identity "i4"] (succeeding [])]

end Sample

open Sample in
/-- A worker whose lease has ended cannot complete, and its item has not ended. -/
theorem running_fenced :
    @apply platform (run (running ++ [.reconcile 2000]))
        (.complete (claim "qi_e" "t") 0 [identity "f4", identity "f5"] (succeeding []))
      = run (running ++ [.reconcile 2000]) ∧
      (run (running ++ [.reconcile 2000])).EndsOnce := by
  have hops : ∀ op ∈ running ++ [.reconcile 2000], op.Authentic := by
    simp [running, Op.Authentic]
  have howner : ¬(run (running ++ [.reconcile 2000])).Owns (claim "qi_e" "t") 0 := by
    rintro ⟨row, hrow, -⟩
    have hnone : (run (running ++ [.reconcile 2000])).projections.queueClaims.rows = [] := by
      decide +kernel
    rw [Table.mem_def, hnone] at hrow
    cases hrow
  obtain ⟨hfenced, -, honce⟩ := @fenced_and_endsOnce platform platform_lawful
  exact ⟨hfenced _ _ _ _ rfl howner, honce _ hops⟩

open Sample in
/-- Two completed attempts of one item are recorded. -/
theorem completedTwice_not_endsOnce : ¬(run completedTwice).EndsOnce := by
  intro h
  have htwice : ¬((run completedTwice).journal.countP
      fun entry => entry.event.completesAttempt "qi_e" "e") ≤ 1 := by
    decide +kernel
  exact htwice (h.completed "qi_e" "e")

end Zeta
