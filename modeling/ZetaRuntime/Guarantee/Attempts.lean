import ZetaRuntime.Work.Outcomes
import ZetaRuntime.Refinement.Run
import ZetaRuntime.Guarantee.Reserved

/-!
# The attempts of an item

The attempts of an item are numbered from one, without gaps, and each was started by one fact. This
holds in every run in which nobody writes lifecycle facts but the dispatcher.

The limit of a retry policy is looked at when a failure is reported, and only then. A worker that
reports nothing leaves its attempt running, and the next claim starts the next one. So a limit does
not bound the attempts of an item. What it does bound is how many of them end: as long as an item is
open, no attempt from the limit on has ended. An attempt beyond the limit is started only over
attempts that were left running.
-/

namespace Zeta

open Outcome

variable {op : Op} {s : Store} {id q : String} {G : Work.Guard}

/-- Whether an event is read as the start of an attempt. -/
def Event.startsAttempt (event : Event) (attemptId : String) : Bool :=
  eventKind event.eventType = .attempt
    && attemptStatusOfType (lastSegment event.eventType) = some .running
    && event.payload.text "attempt_id" = some attemptId

/-- The attempts of items are numbered from one without gaps or repeats, and each was started by
exactly one fact. -/
structure Store.Numbered (s : Store) : Prop where
  numbers : ∀ row ∈ s.projections.queueItems, ∀ n,
    (∃ a ∈ s.projections.attempts, a.queueItemId = row.queueItemId ∧ a.attemptNumber = n) ↔
      1 ≤ n ∧ n ≤ row.attemptCount
  unique : ∀ a ∈ s.projections.attempts, ∀ b ∈ s.projections.attempts,
    a.queueItemId = b.queueItemId → a.attemptNumber = b.attemptNumber → a = b
  started : ∀ a ∈ s.projections.attempts,
    (s.journal.countP fun entry => entry.event.startsAttempt a.attemptId) = 1

/-- An attempt of an item beyond a limit that one store has and an earlier one has not was started
while all attempts of the item from the limit on were running. -/
def Store.StartsOverRunning (s : Store) (q : String) (limit : ℕ) (s' : Store) : Prop :=
  ∀ a ∈ s'.projections.attempts, a.queueItemId = q → limit < a.attemptNumber →
    s.projections.attempts.find? a.attemptId = none →
    ∀ n, limit ≤ n → n < a.attemptNumber →
      ∃ b ∈ s.projections.attempts, b.queueItemId = q ∧ b.attemptNumber = n ∧ b.status = .running

/-- The failures of an item are reported with one policy. -/
def Op.ReportsWith (q : String) (policy : RetryPolicy) : Op → Prop
  | .fail owner _ _ _ failure => owner.queueItemId = q → failure.retryPolicy = policy
  | _ => True

/-! ### Numbers -/

theorem Event.startsAttempt_eq (event : Event) (hid : id ≠ "") :
    event.startsAttempt id = event.fact.any (·.starts id) := by
  unfold Event.startsAttempt Event.fact
  cases hkind : eventKind event.eventType with
  | attempt =>
    cases hstatus : attemptStatusOfType (lastSegment event.eventType) with
    | none => simp
    | some status =>
      cases htext : event.payload.text "attempt_id" with
      | none => simp [Event.text, htext, Work.Fact.starts, hid.symm]
      | some text => simp [Event.text, htext, Work.Fact.starts, Bool.and_comm]
  | queueItem =>
    cases QueueItemStatus.fromStr (lastSegment event.eventType) <;> simp [Work.Fact.starts]
  | _ => simp [Work.Fact.starts]

/-- The facts that start an attempt are those the log shows. -/
theorem countP_startsAttempt (s : Store) (hid : id ≠ "") :
    (s.journal.countP fun entry => entry.event.startsAttempt id)
      = s.work.log.countP (·.starts id) := by
  show _ = (s.journal.filterMap (·.event.fact)).countP _
  rw [List.countP_filterMap]
  refine List.countP_congr fun entry _ => ?_
  rw [Event.startsAttempt_eq _ hid]
  cases entry.event.fact <;> simp

theorem work_attempts_iff {a : Work.Attempt} :
    s.work.attempts id = some a ↔
      ∃ row ∈ s.projections.attempts, row.attemptId = id ∧ row.toAttempt = a := by
  constructor
  · intro h
    obtain ⟨row, hrow, rfl⟩ := Option.map_eq_some_iff.mp h
    exact ⟨row, Table.mem_of_find? hrow, Table.key_of_find? hrow, rfl⟩
  · rintro ⟨row, hrow, rfl, rfl⟩
    exact work_attempts_of_mem hrow

/-- What the machine says of attempts, the tables show. -/
theorem numbered_of_steps (h : Work.Steps G .empty s.work) : s.Numbered := by
  have hinv := h.inv Work.inv_empty
  have hattempt : ∀ row ∈ s.projections.attempts,
      row.attemptId = attemptId row.queueItemId row.attemptNumber :=
    fun row hrow => (hinv.attempt _ _ (work_attempts_of_mem hrow)).1
  refine ⟨fun row hrow n => ?_, fun a ha b hb hitem hnumber => ?_, fun a ha => ?_⟩
  · have hit := work_items_of_find? (Table.find?_of_mem hrow)
    rw [show row.attemptCount = row.toItem.attempts from rfl, ← hinv.attempt_number_iff hit n]
    constructor
    · rintro ⟨a, ha, hitem, hnumber⟩
      exact ⟨a.attemptId, a.toAttempt, work_attempts_of_mem ha, hitem, hnumber⟩
    · rintro ⟨id, a, ha, hitem, hnumber⟩
      obtain ⟨arow, harow, -, rfl⟩ := work_attempts_iff.mp ha
      exact ⟨arow, harow, hitem, hnumber⟩
  · refine Table.eq_of_key_eq ha hb ?_
    rw [hattempt a ha, hattempt b hb, hitem, hnumber]
  · have hid : a.attemptId ≠ "" := by
      rw [hattempt a ha]
      exact attemptId_ne_empty _ _
    rw [countP_startsAttempt s hid]
    exact h.started (work_attempts_of_mem ha)

/-! ### The limit -/

/-- Without a start there is no new attempt. -/
theorem Work.Steps.attempts_of_unstarted {w w' : Work} (hG : ∀ v q, ¬G.start v q)
    (h : Work.Steps G w w') (hid : w.attempts id = none) : w'.attempts id = none := by
  induction h with
  | refl => exact hid
  | tail _ hstep ih => cases hstep <;> grind [Function.update_apply]

/-- The guard under which the failures of an item are reported with one limit. -/
def Work.Guard.limited (q : String) (limit : ℕ) : Work.Guard :=
  { Work.Guard.none with limit := fun x n => x = q → n = limit }

theorem Op.allowed_limited (s : Store) {policy : RetryPolicy} (h : op.ReportsWith q policy) :
    op.Allowed (.limited q policy.maxAttempts) s := by
  cases op with
  | fail owner nowMs first second failure => exact fun hq => congrArg _ (h hq)
  | _ => simp [Op.Allowed, Work.Guard.limited, Work.Guard.none]

/-- The guard under which nothing is started. -/
def Work.Guard.unstarted : Work.Guard := { Work.Guard.none with start := fun _ _ => False }

/-- An operation starts attempts over running ones only. -/
theorem startsOverRunning_of_final [Platform] (hs : Ready s) {limit : ℕ} (hpos : limit ≠ 0)
    (hfinal : s.work.Final q limit) (hop : op.Authentic) :
    s.StartsOverRunning q limit (apply s op) := by
  intro a ha hitem hbeyond hnew n hn hlt
  have hnone : s.work.attempts a.attemptId = none := by
    show Option.map _ (s.projections.attempts.find? a.attemptId) = none
    rw [hnew]
    rfl
  have hsome := work_attempts_of_mem ha
  cases op with
  | start owner nowMs queueIdentity attemptIdentity startedAt claimedRunId =>
    rw [apply] at hsome
    rcases commit_cases s (startClaimedAttempt s owner nowMs queueIdentity attemptIdentity startedAt
      claimedRunId) with hsame | ⟨started, hok⟩
    · rw [hsame, hnone] at hsome
      cases hsome
    rcases (steps_startClaimedAttempt (G := .none) hs.inv (fun _ _ _ => trivial) hok).2 with
      hsame | ⟨it, hit, havailable, hattempts⟩
    · rw [hsame, hnone] at hsome
      cases hsome
    rw [hattempts] at hsome
    -- The new attempt is the next one of an item that is available.
    have hid : a.attemptId = attemptId owner.queueItemId (it.attempts + 1) := by
      by_contra hne
      rw [Function.update_of_ne hne, hnone] at hsome
      cases hsome
    rw [hid, Function.update_self, Option.some.injEq] at hsome
    have howner : owner.queueItemId = q := (congrArg Work.Attempt.item hsome).trans hitem
    have hnumber : it.attempts + 1 = a.attemptNumber := congrArg Work.Attempt.number hsome
    rw [howner] at hit
    obtain ⟨id, b, hb, hbitem, hbnumber⟩ := (hs.inv.attempt_number_iff hit n).mpr
      ⟨by omega, by omega⟩
    have hopen : it.status.terminal = false := by
      rw [havailable]
      rfl
    have hrunning := hfinal.running hit hopen hb hbitem (by omega)
    obtain ⟨row, hrow, -, rfl⟩ := work_attempts_iff.mp hb
    exact ⟨row, hrow, hbitem, hbnumber, hrunning⟩
  | _ =>
    have hsteps := Op.steps (G := .unstarted) hs hop
      (by simp [Op.Allowed, Work.Guard.unstarted, Work.Guard.none])
    rw [hsteps.attempts_of_unstarted (fun _ _ h => h) hnone] at hsome
    cases hsome

/-- In every run without forged facts, attempts are numbered and started once; and if the failures
of an item are all reported with one policy, an attempt beyond the limit is started only while all
attempts of the item from the limit on are running. -/
theorem numbered_and_startsOverRunning [Platform] [LawfulFloatText] {ops : List Op}
    (hops : ∀ op ∈ ops, op.Authentic) :
    (applyAll .empty ops).Numbered ∧
      ∀ q policy, (∀ op ∈ ops, op.ReportsWith q policy) → ∀ op : Op, op.Authentic →
        (applyAll .empty ops).StartsOverRunning q policy.maxAttempts
          (apply (applyAll .empty ops) op) := by
  obtain ⟨hready, hsteps⟩ := steps_of_authentic (G := .none) hops fun op _ s => op.allowed_none s
  refine ⟨numbered_of_steps hsteps, fun q policy hreports op hop => ?_⟩
  obtain ⟨-, hlimited⟩ := steps_of_authentic (G := .limited q policy.maxAttempts) hops
    fun op hop s => Op.allowed_limited s (hreports op hop)
  have hlimit : ∀ n, (Work.Guard.limited q policy.maxAttempts).limit q n → n = policy.maxAttempts :=
    fun n hn => hn rfl
  exact startsOverRunning_of_final hready policy.maxAttempts_pos (hlimited.final hlimit) hop

namespace Sample

/-- A policy that allows one attempt. -/
def once : RetryPolicy := ⟨1, 0, 1, 0, by decide⟩

/-- A worker starts an attempt and is gone. When its lease has ended, another one starts the next.
-/
def abandoned : List Op := running ++ [
  .claim "worker" "u" 1000 2000,
  .start (claim "qi_e" "u") 2000 (identity "g2") (identity "g3") "1970-01-01T00:00:02Z" none]

end Sample

open Sample in
/-- In a run in which a worker is lost the attempts are numbered, and the next one would be started
over running ones. -/
theorem abandoned_numbered :
    (∀ op ∈ abandoned, op.Authentic ∧ op.ReportsWith "qi_e" once) ∧ (run abandoned).Numbered ∧
      ∀ op : Op, op.Authentic →
        (run abandoned).StartsOverRunning "qi_e" once.maxAttempts
        (@apply platform (run abandoned) op) := by
  have hops : ∀ op ∈ abandoned, op.Authentic ∧ op.ReportsWith "qi_e" once := by
    simp [abandoned, running, Op.Authentic, Op.ReportsWith]
  obtain ⟨hnumbered, hstarts⟩ := @numbered_and_startsOverRunning platform platform_lawful abandoned
    fun op hop => (hops op hop).1
  exact ⟨hops, hnumbered, hstarts "qi_e" once fun op hop => (hops op hop).2⟩

open Sample in
/-- A second attempt is started at an item that is allowed one, although all failures would be
reported with that policy. -/
theorem abandoned_beyond_limit :
    (∀ op ∈ abandoned, op.Authentic ∧ op.ReportsWith "qi_e" once) ∧
      ∃ a ∈ (run abandoned).projections.attempts.rows,
        a.queueItemId = "qi_e" ∧ once.maxAttempts < a.attemptNumber := by
  refine ⟨by simp [abandoned, running, Op.Authentic, Op.ReportsWith], ?_⟩
  rw [show once.maxAttempts = 1 from rfl]
  decide +kernel

end Zeta
