import ZetaRuntime.Guarantee.Claims
import ZetaRuntime.Host.Timer

/-!
# Waking up for whatever time brings

Three things happen to a store by the passage of time alone: a wait or a deferred publication falls
due, a claim expires, and an item becomes claimable. A runtime that has nothing to do asks the store
for its next deadline and sleeps until then. The deadlines are the minimum over four tables, while
the three things are conditions of their own, so each way in which one of them comes true has to be
matched with a term of the minimum.

Two of the ways have no term. A lock may expire, but it does so with its claim. And an item with no
time of its own is due when it was last touched: here it matters that no item is without one.
-/

namespace Zeta

open Outcome

variable {nowMs t : Int} {p : Projections} {token workerName : String}

/-- There is something to do at a time: work of the store is due, a claim has expired, or an item is
claimed by a worker who asks. -/
def Store.Stirs (s : Store) (nowMs : Int) : Prop :=
  s.Due nowMs ∨ (∃ claim ∈ s.projections.queueClaims, claim.claimedUntil ≤ nowMs) ∨
    ∃ workerName token leaseMs claim s',
      claimNextQueueItem s workerName token leaseMs nowMs = .ok (some claim, s')

/-- There is nothing to do at a time, and a worker who asks gets nothing. -/
structure Store.Quiet (s : Store) (nowMs : Int) : Prop where
  undue : ¬s.Due nowMs
  live : ∀ claim ∈ s.projections.queueClaims, nowMs < claim.claimedUntil
  idle : ∃ workerName token leaseMs s',
    claimNextQueueItem s workerName token leaseMs nowMs = .ok (none, s')

/-! ### Items have times -/

/-- Items that are claimable, or can become so without a fact that says when, have a time. -/
def Projections.Scheduled (p : Projections) : Prop :=
  ∀ row ∈ p.queueItems, row.status = .pending ∨ row.status = .available ∨ row.status = .claimed →
    row.availableAt ≠ none

theorem scheduled_empty : Projections.empty.Scheduled := by
  simp [Projections.Scheduled, Projections.empty]

section

variable [Platform] {s s' : Store}

theorem availableAt_of_readQueueFact {event : Event} {fact : QueueFact}
    (h : readQueueFact event = .ok fact) (hstatus : fact.status = .available) :
    fact.availableAt ≠ none := by
  simp only [readQueueFact, ok_iff] at h
  obtain ⟨_, -, _, -, _, -, status, -, _, -, _, -, _, -, _, -, _, -, _, -, time, htime, rfl⟩ := h
  obtain rfl : status = .available := hstatus
  simp only [factAvailableAt, if_true, map_ok_iff] at htime
  obtain ⟨_, -, rfl⟩ := htime
  simp

/-- A fact that does not make its item wait for a route leaves items with times. -/
theorem Scheduled.indexEvent {journal : List JournalEntry} {event : Event} {p' : Projections}
    (h : p.Scheduled) (hindex : Zeta.indexEvent journal event p = .ok p')
    (hmoves : eventKind event.eventType = .queueItem →
      QueueItemStatus.fromStr (lastSegment event.eventType) ≠ some .pending) : p'.Scheduled := by
  intro row hrow hstatus
  rcases mem_of_indexEvent hindex hrow with ⟨old, hold, _, _, _, _, rfl⟩ | ⟨cursor, rfl⟩ |
    ⟨hkind, fact, cursor, previous, hread, hprevious, hallowed, rfl⟩
  · exact h old hold hstatus
  · simp [pendingRow]
  · have hmoved : fact.status ≠ .pending := by
      intro hpending
      exact hmoves hkind ((readQueueFact_reads hread).status.trans (by rw [hpending]))
    cases previous with
    | none =>
      rcases hstatus with hstatus | hstatus | hstatus
      · exact absurd hstatus hmoved
      · exact availableAt_of_readQueueFact hread hstatus
      · -- The first fact about an item is no claim.
        have hclaimed : fact.status = .claimed := hstatus
        simp [QueueFact.Allowed, pendingException, hclaimed,
          QueueItemStatus.canTransition] at hallowed
    | some old =>
      rcases hstatus with hstatus | hstatus | hstatus
      · exact absurd hstatus hmoved
      · have havailable : fact.status = .available := hstatus
        simp only [QueueFact.row, havailable, if_true]
        exact availableAt_of_readQueueFact hread havailable
      · have hclaimed : fact.status = .claimed := hstatus
        have hfrom : old.status = .pending ∨ old.status = .available := by
          cases hold : old.status <;>
            simp [QueueFact.Allowed, pendingException, hclaimed, QueueItemStatus.canTransition,
              hold]
              at hallowed ⊢
        simp only [QueueFact.row, hclaimed, reduceCtorEq, if_false]
        exact h old (hprevious old rfl) (hfrom.imp_right .inl)

theorem Changes.scheduled {P : Event → Prop}
    (hP : ∀ event, P event → eventKind event.eventType = .queueItem →
      QueueItemStatus.fromStr (lastSegment event.eventType) ≠ some .pending)
    (h : Changes P s s') (hs : s.projections.Scheduled) : s'.projections.Scheduled := by
  refine h.induct (I := fun t => t.projections.Scheduled) (fun _ _ event hevent ht hrecorded => ?_)
    (fun _ _ ht hcoordinated => ?_) hs
  · obtain ⟨entry, -, -, -, hentry, hindex⟩ := hrecorded.entry
    rw [hentry] at hindex
    exact Scheduled.indexEvent ht hindex (hP event hevent)
  · intro row hrow hstatus
    obtain ⟨old, hold, hunclaims⟩ := hcoordinated.queueItems.exists_of_mem hrow
    rcases hunclaims with rfl | ⟨hclaimed, rfl⟩
    · exact ht _ hold hstatus
    · exact ht old hold (.inr (.inr hclaimed))

theorem Op.Records.moves {op : Op} (hop : op.Authentic) {event : Event} (h : op.Records event)
    (hkind : eventKind event.eventType = .queueItem) :
    QueueItemStatus.fromStr (lastSegment event.eventType) ≠ some .pending := by
  cases op with
  | appendTrusted =>
    obtain rfl := h
    have hlifecycle : isLifecycleType event.eventType = false := hop
    simp [isLifecycleType, hkind] at hlifecycle
  | ingest => rcases eventKind_of_unreserved h.2 with hkind' | hkind' <;> simp [hkind'] at hkind
  | submitMessage =>
    rcases h with h | rfl
    · exact h.moves hkind
    · exact absurd hkind (by simp only [sessionMessageRequestedEvent]; decide)
  | route => exact Internal.moves h hkind
  | _ => exact (Routine.toInternal h).moves hkind

/-- Every operation leaves items with times. -/
theorem Scheduled.apply (h : s.projections.Scheduled) (hs : Ready s) {op : Op}
    (hop : op.Authentic) :
    (apply s op).projections.Scheduled := by
  refine apply_induction (Q := fun s => s.projections.Scheduled) h
    (fun p hreplay row hrow hstatus => ?_) fun hrebuild =>
      (Op.changes hs.history.unreserved hop hrebuild).scheduled (fun _ => Op.Records.moves hop) h
  obtain ⟨old, hold, rfl⟩ := (hs.history.recovered hreplay).queueItems.exists_of_mem hrow
  unfold QueueItemRow.recovered at hstatus ⊢
  split
  · next hclaimed => exact h old hold (.inr (.inr hclaimed))
  · next hclaimed =>
    rw [if_neg hclaimed] at hstatus
    exact h old hold hstatus

/-! ### The minimum -/

omit [Platform] in
/-- A deadline ahead bounds the next deadline. -/
theorem nextDeadlineMs_of_mem {x : Int} (h : x ∈ p.deadlines nowMs) (ht : x ≤ t) :
    ∃ d, nextDeadlineMs p nowMs = some d ∧ nowMs < d ∧ d ≤ t := by
  have hleast := leastOf_nextDeadlineMs p nowMs
  obtain ⟨d, hd, hle⟩ := hleast.exists_le h
  exact ⟨d, hd, (hleast.mem hd).1, hle.trans ht⟩

/-! ### What time brings -/

section

omit [Platform]

/-- Where no claim has expired, there is nothing to reconcile. -/
theorem reconcileExpired_eq_self (h : ∀ claim ∈ p.queueClaims, nowMs < claim.claimedUntil) :
    reconcileExpired p nowMs = p := by
  have hlive : ∀ claim ∈ p.queueClaims, decide (claim.claimedUntil ≤ nowMs) = false := by
    simpa using h
  have hitems : ∀ row ∈ p.queueItems, (decide (row.status = .claimed) && p.queueClaims.rows.any
      fun claim => claim.queueItemId = row.queueItemId && claim.claimedUntil ≤ nowMs) = false := by
    intro row _
    rw [Bool.and_eq_false_imp]
    intro _
    rw [List.any_eq_false]
    intro claim hclaim
    simp [hlive claim hclaim]
  have hlocks : ∀ lock ∈ p.locks, (p.queueClaims.rows.any fun claim =>
      decide (claim.claimedUntil ≤ nowMs) && claim.claimToken = lock.owner) = false := by
    intro lock _
    rw [List.any_eq_false]
    intro claim hclaim
    simp [hlive claim hclaim]
  rw [reconcileExpired, Projections.unclaimItems, Table.updateWhere_eq_self hitems,
    Projections.deleteClaimsWhere, Table.deleteWhere_eq_self hlive,
    Table.deleteWhere_eq_self hlocks]

/-- Work that falls due has a deadline. -/
theorem Store.Quiet.wakes_of_due (h : s.Quiet nowMs) (hdue : s.Due t) :
    ∃ d, nextDeadlineMs s.projections nowMs = some d ∧ nowMs < d ∧ d ≤ t := by
  rcases hdue with ⟨wait, hwait, hactive, hdeadline, hjournaled⟩ |
    ⟨publication, hmem, hpending, htime, hjournaled⟩
  · cases hsome : wait.deadlineMs with
    | none => simp [hsome] at hdeadline
    | some deadline =>
      rw [hsome, Option.any_some, decide_eq_true_eq] at hdeadline
      refine nextDeadlineMs_of_mem ⟨?_, .inl ⟨wait, hwait, hactive, hsome⟩⟩ hdeadline
      by_contra hpast
      refine h.undue (.inl ⟨wait, hwait, hactive, ?_, hjournaled⟩)
      rw [hsome, Option.any_some, decide_eq_true_eq]
      exact not_lt.mp hpast
  · refine nextDeadlineMs_of_mem ⟨?_, .inr (.inl ⟨publication, hmem, hpending, rfl⟩)⟩ htime
    by_contra hpast
    exact h.undue (.inr ⟨publication, hmem, hpending, not_lt.mp hpast, hjournaled⟩)

/-- An item that becomes claimable has a deadline, or waits for a lock whose claim has one. -/
theorem Store.Quiet.wakes_of_claim (h : s.Quiet nowMs) (hlocked : Locked s.projections)
    (hscheduled : s.projections.Scheduled) {leaseMs : ℕ} {claim : QueueClaim}
    (hclaim : claimNextQueueItem s workerName token leaseMs t = .ok (some claim, s')) :
    ∃ d, nextDeadlineMs s.projections nowMs = some d ∧ nowMs < d ∧ d ≤ t := by
  by_cases hexpires : ∃ row ∈ s.projections.queueClaims, row.claimedUntil ≤ t
  · obtain ⟨row, hrow, hle⟩ := hexpires
    exact nextDeadlineMs_of_mem ⟨h.live row hrow, .inr (.inr (.inr ⟨row, hrow, rfl⟩))⟩ hle
  push Not at hexpires
  simp only [claimNextQueueItem, reconcileExpired_eq_self hexpires, bind_ok_iff] at hclaim
  obtain ⟨_, -, _, -, _, -, candidates, hcandidates, hfirst⟩ := hclaim
  rcases claimFirst_ok hfirst with ⟨hnone, -⟩ | ⟨item, hitem, hfree, -⟩
  · cases hnone
  obtain ⟨hmem, hclaimable⟩ := mem_of_claimCandidates hcandidates hitem
  obtain ⟨_, _, _, _, hidle⟩ := h.idle
  simp only [claimNextQueueItem, reconcileExpired_eq_self h.live, claimCandidates, ok_iff] at hidle
  obtain ⟨_, -, _, -, _, -, _, ⟨_, -, rfl⟩, hnone⟩ := hidle
  by_cases hnow : claimable s.projections nowMs item = true
  · -- It was claimable before, so a lock was in the way, and its claim expires.
    rcases claimFirst_ok hnone with ⟨-, -, hheld⟩ | ⟨_, -, -, _, -, hsome, -⟩
    rotate_left
    · cases hsome
    have hheld := hheld item (by rw [List.mem_insertionSort, List.mem_filter]; exact ⟨hmem, hnow⟩)
    rw [locksAreAvailable, List.all_eq_false] at hheld
    obtain ⟨key, hkey, hheld⟩ := hheld
    simp only [Bool.not_eq_true, List.all_eq_false, Bool.not_eq_false', Bool.and_eq_true,
      decide_eq_true_eq] at hheld
    obtain ⟨lock, hlock, heq, hlive⟩ := hheld
    have hexpired : lock.expiresAt ≤ t := by
      simp only [locksAreAvailable, List.all_eq_true, Bool.not_eq_true', Bool.and_eq_false_imp,
        decide_eq_true_eq, decide_eq_false_iff_not, not_lt] at hfree
      exact hfree key hkey lock hlock heq
    obtain ⟨owner, howner, -, huntil⟩ := hlocked.owned lock hlock
    exact absurd (huntil ▸ hexpired) (not_le.mpr (hexpires owner howner))
  · -- Of what makes it claimable, only the time has changed.
    simp only [claimable, Bool.and_eq_true, decide_eq_true_eq] at hclaimable hnow
    have hundue : nowMs < item.availableAt.getD item.updatedAt := by
      by_contra hdue
      exact hnow ⟨⟨⟨⟨⟨hclaimable.1.1.1.1.1, not_lt.mp hdue⟩, hclaimable.1.1.1.2⟩, hclaimable.1.1.2⟩,
        hclaimable.1.2⟩, hclaimable.2⟩
    have havailable := hclaimable.1.1.1.1.1
    obtain ⟨time, htime⟩ := Option.ne_none_iff_exists'.mp
      (hscheduled item hmem (.inr (.inl havailable)))
    have hdue := hclaimable.1.1.1.1.2
    rw [htime, Option.getD_some] at hundue hdue
    exact nextDeadlineMs_of_mem ⟨hundue, .inr (.inr (.inl ⟨item, hmem, havailable, htime⟩))⟩ hdue

end

/-- In a run without forged facts, whenever there is nothing to do but time brings something, the
next deadline is ahead and no later than that. -/
theorem wakes_of_authentic [LawfulFloatText] {ops : List Op} (hops : ∀ op ∈ ops, op.Authentic)
    {nowMs t : Int} (hquiet : (applyAll .empty ops).Quiet nowMs)
    (hstirs : (applyAll .empty ops).Stirs t) :
    ∃ d, nextDeadlineMs (applyAll .empty ops).projections nowMs = some d ∧ nowMs < d ∧ d ≤ t := by
  have hmeets : Meets (fun _ op => op.Authentic) .empty ops :=
    meets_of_forall fun op hop _ => hops op hop
  have hscheduled : (applyAll .empty ops).projections.Scheduled :=
    (hmeets.invariant (I := fun s => Ready s ∧ s.projections.Scheduled)
      (fun s op hs hop => ⟨hs.1.apply hop, Scheduled.apply hs.2 hs.1 hop⟩)
      ⟨ready_empty, scheduled_empty⟩).2
  rcases hstirs with hdue | ⟨claim, hclaim, hexpired⟩ | ⟨_, _, _, _, _, hclaim⟩
  · exact hquiet.wakes_of_due hdue
  · exact nextDeadlineMs_of_mem ⟨hquiet.live claim hclaim, .inr (.inr (.inr ⟨claim, hclaim, rfl⟩))⟩
      hexpired
  · exact hquiet.wakes_of_claim (locked_applyAll hops).2 hscheduled hclaim

end

namespace Sample

/-- An agent whose lock is held takes another event. -/
def contended : List Op := locking ++ [
  .ingest (event "d" "task" []),
  .route "d" [⟨"b", [⟨"task", .exact⟩], .shared, ["L"], none⟩] [identity "g1"]]

/-- An agent publishes, by a clock that is ahead, that an item waits for its route and that it is
claimed. A rebuild makes the item available. -/
def forgingItem : List Op := running ++ [
  .complete (claim "qi_e" "t") 0
    [identity "f4", identity "f5", { identity "f6" with timestampMs := 5000 },
      { identity "f7" with timestampMs := 5000 }]
    (succeeding [
      .publish "p" "runtime.queue_item.pending"
        [("queue_item_id", .string "qi_x"), ("event_id", .string "e"),
          ("target_agent", .string "b"), ("status", .string "pending")] none 0,
      .publish "q" "runtime.queue_item.claimed"
        [("queue_item_id", .string "qi_x"), ("event_id", .string "e"),
          ("target_agent", .string "b"), ("status", .string "claimed")] none 1]),
  .rebuild]

end Sample

open Sample in
/-- Two items wait for one lock. When its claim expires there is work, and the next deadline says
so. -/
theorem contended_wakes :
    (run contended).Quiet 500 ∧ (run contended).Stirs 1000 ∧
      ∃ d, nextDeadlineMs (run contended).projections 500 = some d ∧ 500 < d ∧ d ≤ 1000 := by
  have hops : ∀ op ∈ contended, op.Authentic := by
    simp [contended, locking, offered, Op.Authentic]
  have hquiet : (run contended).Quiet 500 := by
    refine ⟨by decide +kernel, ?_, "worker", "u", 1000, ?_⟩
    · exact show ∀ claim ∈ (run contended).projections.queueClaims.rows, 500 < claim.claimedUntil by
        decide +kernel
    · exact exists_of_map_fst (by decide +kernel)
  have hstirs : (run contended).Stirs 1000 := by
    refine .inr (.inr ⟨"worker", "u", 1000, ⟨"qi_e", "worker", "u", 2000⟩, ?_⟩)
    exact exists_of_map_fst (by decide +kernel)
  exact ⟨hquiet, hstirs, @wakes_of_authentic platform platform_lawful _ hops _ _ hquiet hstirs⟩

open Sample in
/-- An item without a time becomes claimable, and there is no deadline. -/
theorem forgingItem_sleeps :
    (run forgingItem).Quiet 1000 ∧ (run forgingItem).Stirs 5000 ∧
      nextDeadlineMs (run forgingItem).projections 1000 = none := by
  refine ⟨⟨by decide +kernel, ?_, "worker", "u", 1000, ?_⟩, ?_, by decide +kernel⟩
  · exact show ∀ claim ∈ (run forgingItem).projections.queueClaims.rows,
      1000 < claim.claimedUntil by
      decide +kernel
  · exact exists_of_map_fst (by decide +kernel)
  · refine .inr (.inr ⟨"worker", "u", 1000, ⟨"qi_x", "worker", "u", 6000⟩, ?_⟩)
    exact exists_of_map_fst (by decide +kernel)

end Zeta
