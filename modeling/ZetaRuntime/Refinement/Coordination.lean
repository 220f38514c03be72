import ZetaRuntime.Refinement.Abstraction

/-!
# Coordination refines the abstract machine

Claims are taken and lost without a fact. Each way to lose them (a release, an expired lease, a
rebuild) is the same abstract step: some owners are gone, and what they had started to work on is
available again. A rebuild is that step for all owners at once, because the rest of the tables comes
back as it was.
-/

namespace Zeta

open Outcome

variable {s s' : Store} {G : Work.Guard}

variable {nowMs : Int} {p : Projections} {claim : QueueClaim} {row : QueueItemRow}
  {token workerName : String} {leaseMs : ℕ}

/-! ### Losing claims -/

/-- Deleting claims and putting back what they had claimed. -/
theorem loses_of_dead {dead : QueueClaimRow → Bool} {lost : QueueItemRow → Bool}
    (hlost : ∀ row ∈ s.projections.queueItems,
      lost row = (s.projections.queueClaims.find? row.queueItemId).any dead) :
    Work.Step G s.work
      (Store.work { s with
        projections := (s.projections.unclaimItems lost).deleteClaimsWhere dead }) := by
  have howned : ∀ q, (s.projections.queueClaims.find? q).any dead = true →
      s.work.claims q ≠ none := by
    intro q hq
    cases hfind : s.projections.queueClaims.find? q with
    | none => simp [hfind] at hq
    | some claim => simp [Store.work, hfind]
  convert Work.Step.lose (G := G) howned using 1
  refine Work.ext ?_ ?_ rfl rfl rfl
  · funext q
    simp only [Store.work, Projections.unclaimItems, Projections.deleteClaimsWhere,
      Table.find?_updateWhere, Work.loseItems]
    cases hrow : s.projections.queueItems.find? q with
    | none => simp
    | some row =>
      have hkey := Table.key_of_find? hrow
      have hrowlost := hlost row (Table.mem_of_find? hrow)
      rw [hkey] at hrowlost
      by_cases hdead : (s.projections.queueClaims.find? q).any dead = true
      · by_cases hclaimed : row.status = .claimed <;>
          simp [hrowlost, hdead, hclaimed, Work.Item.unclaim, QueueItemRow.toItem]
      · simp [hrowlost, hdead]
  · funext q
    simp only [Store.work, Projections.unclaimItems, Projections.deleteClaimsWhere,
      Table.find?_deleteWhere]
    cases hfind : s.projections.queueClaims.find? q with
    | none => simp
    | some claim => by_cases hdead : dead claim = true <;> simp [hdead, Option.filter]

/-- Whether some claim on an item satisfies a condition. -/
theorem any_claim_eq (p : Projections) (q : String) (dead : QueueClaimRow → Bool) :
    (p.queueClaims.rows.any fun claim => claim.queueItemId = q && dead claim)
      = (p.queueClaims.find? q).any dead := by
  rw [Bool.eq_iff_iff, List.any_eq_true]
  constructor
  · rintro ⟨claim, hclaim, h⟩
    simp only [Bool.and_eq_true, decide_eq_true_eq] at h
    rw [Table.find?_eq_some_iff.mpr ⟨hclaim, h.1⟩]
    exact h.2
  · intro h
    cases hfind : p.queueClaims.find? q with
    | none => simp [hfind] at h
    | some claim =>
      rw [hfind] at h
      exact ⟨claim, Table.mem_of_find? hfind, by simpa [Table.key_of_find? hfind] using h⟩

theorem loses_reconcileExpired (s : Store) (nowMs : Int) :
    Work.Step G s.work
      (Store.work { s with projections := reconcileExpired s.projections nowMs }) :=
  loses_of_dead fun row _ => any_claim_eq s.projections row.queueItemId _

/-- A receipt that is current names the claim row of its item. -/
theorem find?_of_claimIsCurrentIn (h : claimIsCurrentIn p claim nowMs = true) :
    ∃ row, p.queueClaims.find? claim.queueItemId = some row ∧ claim.names row = true ∧
      nowMs < row.claimedUntil := by
  obtain ⟨row, hrow, h⟩ := List.any_eq_true.mp h
  simp only [Bool.and_eq_true, decide_eq_true_eq] at h
  have hid : row.queueItemId = claim.queueItemId := by
    have := h.1
    simp only [QueueClaim.names, Bool.and_eq_true, decide_eq_true_eq] at this
    exact this.1.1
  exact ⟨row, Table.find?_eq_some_iff.mpr ⟨hrow, hid⟩, h⟩

/-- The item of a receipt that is current is owned. -/
theorem owned_of_claimIsCurrentIn (h : claimIsCurrentIn s.projections claim nowMs = true) :
    s.work.claims claim.queueItemId ≠ none := by
  obtain ⟨row, hrow, -⟩ := find?_of_claimIsCurrentIn h
  simp [Store.work, hrow]

/-- Among the claims on one item, a receipt names at most the one of its own item. -/
theorem any_names_eq {row : QueueClaimRow} (hrow : p.queueClaims.find? claim.queueItemId = some row)
    (hnames : claim.names row = true) (q : String) :
    (p.queueClaims.find? q).any claim.names = decide (q = claim.queueItemId) := by
  by_cases hq : q = claim.queueItemId
  · subst hq
    simp [hrow, hnames]
  · cases hfind : p.queueClaims.find? q with
    | none => simp [hq]
    | some other =>
      have hne : ¬other.queueItemId = claim.queueItemId := by
        rw [Table.key_of_find? hfind]
        exact hq
      simp [QueueClaim.names, hne, hq]

theorem steps_releaseClaim (s : Store) (claim : QueueClaim) (nowMs : Int) :
    Work.Steps G s.work (releaseClaim s claim nowMs).2.work := by
  unfold releaseClaim
  split
  · rename_i hcurrent
    obtain ⟨row, hrow, hnames, -⟩ := find?_of_claimIsCurrentIn hcurrent
    exact .single (loses_of_dead fun item _ => (any_names_eq hrow hnames item.queueItemId).symm)
  · exact .refl

/-- A renewal is invisible. -/
theorem work_renewClaim {renewed : Bool}
    (h : renewClaim s claim leaseMs nowMs = .ok (renewed, s')) :
    s'.work = s.work := by
  simp only [renewClaim, bind_ok_iff] at h
  obtain ⟨_, -, h⟩ := h
  split at h
  · simp only [ok_iff, Prod.mk.injEq] at h
    obtain ⟨_, -, _, -, -, rfl⟩ := h
    refine Work.ext rfl ?_ rfl rfl rfl
    funext q
    simp only [Store.work, Projections.extendClaim, Table.find?_updateWhere]
    cases s.projections.queueClaims.find? q with
    | none => rfl
    | some row =>
      simp only [Option.map_some]
      split <;> rfl
  · cases h
    rfl

/-- The claim of a fenced operation is given up. -/
theorem work_releaseClaimInTransaction (h : releaseClaimInTransaction s claim = .ok s') :
    s'.work = { s.work with claims := Function.update s.work.claims claim.queueItemId none } := by
  simp only [releaseClaimInTransaction, ok_iff] at h
  obtain ⟨_, hcount, rfl⟩ := h
  obtain ⟨row, hrow, hnames⟩ : ∃ row ∈ s.projections.queueClaims, claim.names row = true :=
    List.countP_pos_iff.mp (by rw [Table.countWhere] at hcount; omega)
  have hid : row.queueItemId = claim.queueItemId := by
    have := hnames
    simp only [QueueClaim.names, Bool.and_eq_true, decide_eq_true_eq] at this
    exact this.1.1
  have hany := any_names_eq (Table.find?_eq_some_iff.mpr ⟨hrow, hid⟩) hnames
  refine Work.ext rfl ?_ rfl rfl rfl
  funext q
  simp only [Store.work, Projections.deleteClaimsWhere, Table.find?_deleteWhere]
  have hq := hany q
  cases hfind : s.projections.queueClaims.find? q with
  | none => by_cases hne : q = claim.queueItemId <;> simp [hne, hfind]
  | some other =>
    rw [hfind, Option.any_some] at hq
    by_cases hne : q = claim.queueItemId <;> simp [hq, hne, Option.filter, hfind]

/-! ### Rebuilding -/

/-- A rebuild loses every claim and changes nothing else. -/
theorem loses_rebuildProjections [Platform] (hs : History s) (hinv : s.work.Shape) {n : ℕ}
    (h : rebuildProjections s = .ok (n, s')) : Work.Step G s.work s'.work := by
  obtain ⟨p, hreplay, rfl⟩ := rebuildProjections_ok h
  have hagree : Agree s.projections p := hs.faithful [] p (by rwa [List.append_nil])
  have hrecovered := hagree.recovered
  have howned : ∀ q, (s.work.claims q).isSome = true → s.work.claims q ≠ none := by
    intro q hq hnone
    simp [hnone] at hq
  convert Work.Step.lose (G := G) howned using 1
  refine Work.ext ?_ ?_ ?_ rfl rfl
  · funext q
    have hkey (row row' : QueueItemRow) (h : row' = row.recovered) :
        row.queueItemId = row'.queueItemId := by
      subst h
      unfold QueueItemRow.recovered QueueItemRow.recover
      split <;> rfl
    cases hrow : s.projections.queueItems.find? q with
    | none => simp [Store.work, Work.loseItems, hrow, hrecovered.queueItems.find?_none hkey hrow]
    | some row =>
      obtain ⟨row', hrow', rfl⟩ := hrecovered.queueItems.find?_some hkey hrow
      rw [work_items_of_find? (s := { s with projections := p.recover }) hrow']
      change _ = s.work.loseItems (fun q => (s.work.claims q).isSome) q
      by_cases hclaimed : row.status = .claimed
      · -- A claimed item is owned, and has an agent to go back to.
        have hclaim := hinv.claimed q row.toItem (work_items_of_find? hrow) hclaimed
        have htarget : row.targetAgent ≠ "" := by
          obtain ⟨row', -, hrow'⟩ := hagree.queueItems.find?_some
            (fun _ _ h => h.queueItemId_eq) hrow
          have hstatus : row'.status = .claimed := by
            rcases hrow'.status with heq | ⟨-, hc⟩
            · rw [← heq, hclaimed]
            · exact hc
          exact hrow'.targetAgent_eq ▸ hrow'.bound hstatus
        obtain ⟨c, hc⟩ := Option.ne_none_iff_exists'.mp hclaim
        rw [Work.loseItems, hc, work_items_of_find? hrow]
        simp [QueueItemRow.recovered, hclaimed, QueueItemRow.recover, htarget, QueueItemRow.toItem,
          Work.Item.unclaim]
      · rw [Work.loseItems, work_items_of_find? hrow]
        simp [QueueItemRow.recovered, hclaimed, QueueItemRow.toItem, Work.Item.unclaim]
  · funext q
    have hnone : (Store.work { s with projections := p.recover }).claims q = none := by
      simp [Store.work, hrecovered.noClaims]
    rw [hnone]
    change none = if (s.work.claims q).isSome = true then none else s.work.claims q
    cases s.work.claims q <;> rfl
  · funext id
    have hkey (row row' : AttemptRow)
      (h : row' = { row with claimToken := none, heartbeatAt := none }) :
        row.attemptId = row'.attemptId := by
      subst h
      rfl
    cases hrow : s.projections.attempts.find? id with
    | none => simp [Store.work, hrow, hrecovered.attempts.find?_none hkey hrow]
    | some row =>
      obtain ⟨row', hrow', rfl⟩ := hrecovered.attempts.find?_some hkey hrow
      simp [Store.work, hrow, hrow', AttemptRow.toAttempt]

/-! ### Taking a claim -/

/-- A claim is written for one of the candidates, or nothing is written. -/
theorem claimFirst_cases {claimedUntil : Int} {items : List QueueItemRow}
    {claim : Option QueueClaim}
    (h : claimFirst s workerName token nowMs claimedUntil items = .ok (claim, s')) :
    s' = s ∨ ∃ item ∈ items, ∃ queueClaims locks,
      s.projections.queueClaims.insert? ⟨item.queueItemId, workerName, token, nowMs, claimedUntil⟩
        = some queueClaims ∧
      s' = { s with projections := { s.projections with queueClaims, locks } } := by
  rcases claimFirst_ok h with ⟨-, heq, -⟩ | ⟨item, hitem, -, p, htake, -, rfl⟩
  · exact .inl heq
  · obtain ⟨queueClaims, locks, hinsert, rfl⟩ := takeClaim_frame htake
    exact .inr ⟨item, hitem, queueClaims, locks, hinsert, rfl⟩

/-- Claiming a claimable item is fair. -/
theorem fair_of_claimable (h : claimable s.projections nowMs row = true) :
    s.work.Fair row.toItem := by
  simp only [claimable, Bool.and_eq_true, List.all_eq_true] at h
  obtain ⟨⟨-, hbarrier⟩, hserial⟩ := h
  constructor
  · intro x other hother hunrouted hbefore
    obtain ⟨row', hrow', rfl⟩ := find?_of_work_items hother
    have hnot := hbarrier row' (Table.mem_of_find? hrow')
    have hbefore : row'.inputCursor < row.inputCursor := hbefore
    have hstatus : row'.status = .pending := hunrouted.1
    have hagent : row'.targetAgent = "" := hunrouted.2
    simp [hbefore, hstatus, hagent] at hnot
  · intro session hsession x other hother hother' hbefore
    obtain ⟨row', hrow', rfl⟩ := find?_of_work_items hother
    have hsession : row.sessionId = some session := hsession
    have hother' : row'.sessionId = some session := hother'
    have hbefore : row'.inputCursor < row.inputCursor := hbefore
    simp only [hsession, reduceCtorEq, decide_false, Bool.false_or, List.all_eq_true] at hserial
    have hnot := hserial row' (Table.mem_of_find? hrow')
    simpa [hother', hbefore, QueueItemRow.blocksSession, QueueItemRow.toItem] using hnot

/-- Writing the claim of a claimable item. -/
theorem claims_of_insert? (hrow : row ∈ s.projections.queueItems)
    (hclaimable : claimable s.projections nowMs row = true) {claim : QueueClaimRow}
    (hitem : claim.queueItemId = row.queueItemId) {queueClaims : Table QueueClaimRow.queueItemId}
    (hinsert : s.projections.queueClaims.insert? claim = some queueClaims)
    {locks : Table LockRow.lockKey} :
    Work.Step G s.work
      (Store.work { s with projections := { s.projections with queueClaims, locks } }) := by
  have hfair := fair_of_claimable hclaimable
  simp only [claimable, Bool.and_eq_true, decide_eq_true_eq] at hclaimable
  obtain ⟨⟨⟨⟨⟨hstatus, -⟩, -⟩, huncancelled⟩, -⟩, -⟩ := hclaimable
  have hfree : s.projections.queueClaims.find? row.queueItemId = none :=
    hitem ▸ (Table.insert?_eq_some_iff.mp hinsert).1
  have hstep := Work.Step.claim (G := G) (w := s.work) (q := row.queueItemId) (c := claim.toClaim)
    (work_items_of_find? (Table.find?_of_mem hrow)) hstatus
    (by simp [QueueItemRow.toItem, huncancelled]) (by simp [Store.work, hfree]) hfair
  convert hstep using 1
  refine Work.ext rfl ?_ rfl rfl rfl
  funext q
  simp only [Store.work, Table.find?_of_insert? hinsert, hitem]
  by_cases hq : q = row.queueItemId
  · subst hq
    simp
  · simp [Function.update_of_ne hq, Ne.symm hq]

theorem steps_claimNextQueueItem {claim : Option QueueClaim}
    (h : claimNextQueueItem s workerName token leaseMs nowMs = .ok (claim, s')) :
    Work.Steps G s.work s'.work := by
  simp only [claimNextQueueItem, claimCandidates, ok_iff] at h
  obtain ⟨_, -, _, -, _, -, _, ⟨_, -, rfl⟩, h⟩ := h
  refine .head (loses_reconcileExpired s nowMs) ?_
  rcases claimFirst_cases h with rfl | ⟨row, hrow, queueClaims, locks, hinsert, rfl⟩
  · exact .refl
  · rw [List.mem_insertionSort, List.mem_filter] at hrow
    exact .single
      (claims_of_insert? (s := { s with projections := reconcileExpired s.projections nowMs })
      hrow.1 hrow.2 rfl hinsert)

end Zeta
