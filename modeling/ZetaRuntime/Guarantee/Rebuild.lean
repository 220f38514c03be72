import Mathlib.Data.List.Induction
import ZetaRuntime.Guarantee.Sessions

/-!
# Rebuilding succeeds

The tables can be rebuilt from the journal if replaying it succeeds. A fact was accepted by the live
tables, and the replayed tables agree with those but for one thing: a claim that ended without a
fact is still there in the replay. A second claim is then refused. That happens exactly if an
attempt is started over one that was left running, and in no other run without forged facts.

Besides, every payload has to be read back. Payloads can be written that are nested too deeply to be
read.
-/

namespace Zeta

open Outcome

variable {journal : List JournalEntry} {p : Projections}

/-- An operation that starts no attempt of an item which has one that is running. -/
def Op.StartsAlone (s : Store) : Op → Prop
  | .start owner _ _ _ _ _ =>
    loadRunningAttemptForClaim s.projections owner = .ok none → ¬s.attemptRunning owner.queueItemId
  | _ => True

/-- The guard under which attempts are started where none is running. -/
def Work.Guard.alone : Work.Guard := { Work.Guard.none with start := fun v q => ¬v.Running q }

theorem Op.allowed_alone {s : Store} {op : Op} (h : op.StartsAlone s) : op.Allowed .alone s := by
  cases op with
  | start owner =>
    intro hnone v hv hrunning
    refine h hnone (work_running_iff.mp ?_)
    unfold Work.Running at hrunning ⊢
    rwa [hv] at hrunning
  | _ => simp [Op.Allowed, Work.Guard.alone, Work.Guard.none]

section

variable [Platform] {s s' : Store}

/-! ### Claims in the replay -/

/-- A row is claimed by a fact that says so, or it was and the fact is about something else. -/
theorem indexEvent_claimed {event : Event} {p' : Projections}
    (h : indexEvent journal event p = .ok p') {row' : QueueItemRow} (hrow : row' ∈ p'.queueItems)
    (hstatus : row'.status = .claimed) :
    (∃ e key, event.fact = some (.queue row'.queueItemId e .claimed key)) ∨
      (∃ row ∈ p.queueItems, row.queueItemId = row'.queueItemId ∧ row.status = .claimed) ∧
        ∀ e status key, event.fact ≠ some (.queue row'.queueItemId e status key) := by
  cases hkind : eventKind event.eventType with
  | queueItem =>
    simp only [indexEvent, hkind, indexQueueItem_ok_iff] at h
    obtain ⟨fact, hread, closed, hclosed, -, -, -, -, cursor, -, -, rfl⟩ := h
    have hreads := readQueueFact_reads hread
    have hfact : event.fact
        = some (.queue fact.queueItemId fact.eventId fact.status event.idempotencyKey) := by
      simp [Event.fact, hkind, hreads.status, Event.text, hreads.queueItemId, hreads.eventId]
    rcases Table.mem_upsert.mp hrow with rfl | ⟨hold, hne⟩
    · refine .inl ⟨fact.eventId, event.idempotencyKey, ?_⟩
      cases hprevious : closed.queueItems.find? fact.queueItemId with
      | none =>
        rw [hprevious] at hstatus
        rw [hfact, show fact.status = .claimed from hstatus]
        rfl
      | some row =>
        rw [hprevious] at hstatus
        rw [hfact, show fact.status = .claimed from hstatus]
        rfl
    · have hrow_p : row' ∈ p.queueItems := by
        rcases find?_of_closePendingRouteBarrier hclosed row'.queueItemId with hsame | ⟨-, -, hnone⟩
        · exact Table.mem_iff_find?.mpr (hsame ▸ Table.find?_of_mem hold)
        · rw [Table.find?_of_mem hold] at hnone
          cases hnone
      refine .inr ⟨⟨row', hrow_p, rfl, hstatus⟩, fun e status key heq => hne ?_⟩
      rw [hfact, Option.some.injEq, Work.Fact.queue.injEq] at heq
      rw [← heq.1]
      cases closed.queueItems.find? fact.queueItemId <;> rfl
  | cancelRequested =>
    simp only [indexEvent, hkind, indexQueueItemCancelRequested, ok_iff] at h
    obtain ⟨_, -, _, -, _, -, _, -, _, -, _, -, _, -, rfl⟩ := h
    obtain ⟨row, hmem, rfl⟩ := List.mem_map.mp hrow
    refine .inr ⟨⟨row, hmem, ?_, ?_⟩, by simp [Event.fact, hkind]⟩
    · split <;> rfl
    · rw [← hstatus]
      split <;> rfl
  | attempt =>
    simp only [indexEvent, hkind, indexAttempt_ok_iff] at h
    obtain ⟨fact, -, happlies⟩ := h
    rw [happlies.result, raiseAttemptCount] at hrow
    have hnone : ∀ e status key, event.fact ≠ some (.queue row'.queueItemId e status key) := by
      simp [Event.fact, hkind]
    split at hrow
    · obtain ⟨row, hmem, rfl⟩ := List.mem_map.mp hrow
      refine .inr ⟨⟨row, hmem, ?_, ?_⟩, hnone⟩
      · split <;> rfl
      · rw [← hstatus]
        split <;> rfl
    · exact .inr ⟨⟨row', hrow, rfl, hstatus⟩, hnone⟩
  | ingress =>
    simp only [indexEvent, hkind, indexPendingQueueItem_ok_iff] at h
    have hnone : ∀ e status key, event.fact ≠ some (.queue row'.queueItemId e status key) := by
      simp [Event.fact, hkind]
    obtain ⟨cursor, -, -, -, -, ⟨-, rfl⟩ | ⟨-, -, rfl⟩⟩ := h
    · exact .inr ⟨⟨row', hrow, rfl, hstatus⟩, hnone⟩
    · rcases Table.mem_upsert.mp hrow with rfl | ⟨hold, -⟩
      · cases hstatus
      · exact .inr ⟨⟨row', hold, rfl, hstatus⟩, hnone⟩
  | effect | wait | deferredPublication =>
    have hframe := indexEvent_frame h
    rw [hkind] at hframe
    obtain ⟨_, rfl⟩ := hframe
    exact .inr ⟨⟨row', hrow, rfl, hstatus⟩, by simp [Event.fact, hkind]⟩
  | unprojected =>
    have hframe := indexEvent_frame h
    rw [hkind] at hframe
    obtain rfl : p' = p := hframe
    exact .inr ⟨⟨row', hrow, rfl, hstatus⟩, by simp [Event.fact, hkind]⟩

/-- What is claimed after a replay is what the journal says last of it. -/
theorem replay_claimed {entries : List JournalEntry} (h : replay journal entries = .ok p)
    {row : QueueItemRow} (hrow : row ∈ p.queueItems) (hstatus : row.status = .claimed) :
    Work.claimedBy row.queueItemId (entries.filterMap (·.event.fact)) = true := by
  induction entries using List.reverseRecOn generalizing p row with
  | nil =>
    cases h
    exact absurd hrow (Table.not_mem_empty row)
  | append_singleton entries entry ih =>
    rw [replay, foldOk_append, bind_ok_iff] at h
    obtain ⟨before, hbefore, hlast⟩ := h
    simp only [foldOk_cons, foldOk_nil, bind_ok_iff, Except.ok.injEq, exists_eq_right] at hlast
    rw [List.filterMap_append, Work.claimedBy_append]
    rcases indexEvent_claimed hlast hrow hstatus with ⟨e, key, hfact⟩
      | ⟨⟨old, hold, hid, hclaimed⟩, hother⟩
    · simp [hfact, Work.Fact.claims]
    · have hbefore' := ih hbefore hold hclaimed
      rw [hid] at hbefore'
      cases hfact : entry.event.fact with
      | none => simpa [hfact] using hbefore'
      | some fact =>
        cases fact with
        | queue q e status key =>
          have hne : ¬q = row.queueItemId := by
            rintro rfl
            exact hother e status key hfact
          simpa [hfact, Work.Fact.claims, hne] using hbefore'
        | requested | attempt => simpa [hfact, Work.Fact.claims] using hbefore'

/-! ### Replaying what was accepted -/

/-- The journal of a store replays, against whatever follows it, unless it claims an item twice in a
row. -/
def Replayable (s : Store) : Prop :=
  Work.Unrepeated s.work.log → ∀ later, ∃ p, replay (s.journal ++ later) s.journal = .ok p

variable [LawfulFloatText]

/-- Recording keeps a store replayable. -/
theorem Recorded.replayable {event : Event} (h : Recorded s event s') (hbound : BoundClaim event)
    (hs : History s) (hreplayable : Replayable s) : Replayable s' := by
  intro hunrepeated later
  rw [h.log_eq] at hunrepeated
  obtain ⟨entry, -, hjournal, hback, hentry, hindex⟩ := h.entry
  have hbefore : Work.Unrepeated s.work.log := by
    cases hfact : event.fact with
    | none => simpa [hfact] using hunrepeated
    | some fact =>
      rw [hfact, Option.toList_some, Work.unrepeated_append_singleton] at hunrepeated
      exact hunrepeated.1
  obtain ⟨p, hp⟩ := hreplayable hbefore ([entry.stored] ++ later)
  have hagree := hs.faithful _ p hp
  have hbound' : ∀ fact, eventKind entry.event.eventType = .queueItem →
      readQueueFact entry.event = .ok fact → fact.status = .claimed → fact.targetAgent ≠ "" := by
    rw [hentry]
    exact fun fact hkind => hbound hkind fact
  rw [hjournal, List.append_assoc, replay, foldOk_append, show foldOk _ _ _ = _ from hp, ok_bind]
  simp only [foldOk_cons, foldOk_nil, bind_ok_iff, Except.ok.injEq, exists_eq_right]
  rw [hjournal] at hindex
  rcases hagree.indexEvent hback hindex hbound' later with
    ⟨replayed, hreplayed, -⟩ | ⟨hkind, fact, hread, hclaimed, row, hrow, hstatus⟩
  · exact ⟨replayed, by rwa [List.append_assoc] at hreplayed⟩
  · -- The replayed row is claimed, so the journal claimed it last, and now claims it again.
    have hreads := readQueueFact_reads hread
    have hfact : event.fact
        = some (.queue fact.queueItemId fact.eventId .claimed entry.event.idempotencyKey) := by
      have hsame : entry.event.fact = event.fact := by rw [hentry]; rfl
      rw [← hsame]
      simp [Event.fact, hkind, hreads.status, hclaimed, Event.text, hreads.queueItemId,
        hreads.eventId]
    have hlast := replay_claimed hp (Table.mem_of_find? hrow) hstatus
    rw [hfact, Option.toList_some, Work.unrepeated_append_singleton] at hunrepeated
    have hfree := hunrepeated.2 _ _ _ rfl
    rw [show row.queueItemId = fact.queueItemId from Table.key_of_find? hrow] at hlast
    exact absurd hlast
      (by rw [show s.journal.filterMap (·.event.fact) = s.work.log from rfl, hfree]; simp)

theorem Changes.replayable {P : Event → Prop} (hP : ∀ event, P event → BoundClaim event)
    (h : Changes P s s') (hs : History s) (hreplayable : Replayable s) : Replayable s' := by
  refine (h.induct (I := fun s => History s ∧ Replayable s)
    (fun s s' event hevent hs hrecorded => ?_) (fun s s' hs hcoordinated => ?_) ⟨hs, hreplayable⟩).2
  · exact ⟨Changes.history hP (.single (.record hevent hrecorded)) hs.1,
      hrecorded.replayable (hP event hevent) hs.1 hs.2⟩
  · refine ⟨Changes.history hP (.single (.coordinate hcoordinated)) hs.1, ?_⟩
    have hreplayable := hs.2
    unfold Replayable Store.work at hreplayable ⊢
    rwa [hcoordinated.journal]

/-- Every authentic operation keeps a store replayable. -/
theorem Replayable.apply (hs : History s) (hreplayable : Replayable s) {op : Op}
    (hop : op.Authentic) : Replayable (apply s op) := by
  refine apply_induction hreplayable (fun _ _ => hreplayable) fun hrebuild => ?_
  exact (Op.changes hs.unreserved hop hrebuild).replayable (fun _ => Op.Records.bound hop) hs
    hreplayable

/-- In a run in which nobody forges facts and no attempt is started over a running one, rebuilding
the tables fails only if a payload in the journal cannot be read back. -/
theorem rebuildProjections_iff_readable {ops : List Op}
    (hops : Meets (fun s op => op.Authentic ∧ op.StartsAlone s) .empty ops) :
    (∃ r, rebuildProjections (applyAll .empty ops) = .ok r) ↔
      ∀ entry ∈ (applyAll .empty ops).journal, readable entry.payloadBytes = true := by
  have hunder : Meets (Op.Under .alone) .empty ops :=
    hops.mono fun s op hop => ⟨hop.1, Op.allowed_alone hop.2⟩
  obtain ⟨hready, hsteps⟩ := hunder.steps ready_empty
  have hunrepeated := hsteps.unrepeated fun _ _ => id
  have hreplayable : Replayable (applyAll .empty ops) :=
    (hops.invariant (I := fun s => History s ∧ Replayable s)
      (fun s op hs hop => ⟨hs.1.apply hop.1, hs.2.apply hs.1 hop.1⟩)
      ⟨history_empty, fun _ _ => ⟨_, rfl⟩⟩).2
  obtain ⟨p, hp⟩ := hreplayable hunrepeated []
  rw [List.append_nil] at hp
  constructor
  · rintro ⟨r, hr⟩
    simp only [rebuildProjections, bind_ok_iff, loadEntries_ok_iff] at hr
    obtain ⟨_, ⟨-, hread⟩, -⟩ := hr
    exact hread
  · intro hread
    refine ⟨((applyAll .empty ops).journal.length,
      { applyAll .empty ops with projections := p.recover }), ?_⟩
    simp only [rebuildProjections, loadEntries_ok_iff.mpr ⟨rfl, hread⟩, ok_bind,
      verify_of_sound hready.history.sound, Except.mapError, hp]
    rfl

end

open Sample in
/-- A run that ends in an attempt can be rebuilt. -/
theorem running_rebuilt : ∃ r, @rebuildProjections platform (run running) = .ok r := by
  have hstart : ¬(run (running.take 3)).attemptRunning "qi_e" := by decide +kernel
  have hops : @Meets platform (fun s op => op.Authentic ∧ op.StartsAlone s) .empty running := by
    refine ⟨⟨trivial, trivial⟩, ⟨trivial, trivial⟩, ⟨trivial, trivial⟩, ⟨trivial, fun _ => ?_⟩,
      trivial⟩
    exact hstart
  have hread : ∀ entry ∈ (run running).journal, readable entry.payloadBytes = true := by
    decide +kernel
  unfold run at hread ⊢
  exact (@rebuildProjections_iff_readable platform platform_lawful running hops).mpr hread

open Sample in
/-- When a lease ends and the item is attempted again, there is no rebuilding any more. -/
theorem abandoned_not_rebuilt : ¬∃ r, @rebuildProjections platform (run abandoned) = .ok r := by
  have hfails : ((@rebuildProjections platform (run abandoned)).toOption).isNone = true := by
    decide +kernel
  rintro ⟨r, hr⟩
  rw [hr] at hfails
  cases hfails

end Zeta
