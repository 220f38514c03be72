import ZetaRuntime.Refinement.Openings
import ZetaRuntime.Refinement.Cancellation

/-!
# Runs refine the abstract machine

Every operation of a store is a sequence of steps of the machine of `Work.Step`, as long as its
caller authors no lifecycle fact. So what holds of the work in every run of the machine holds of
every store that a run reaches.

A run may have to meet a condition on every operation in the state it is applied to. `Meets` says
that it does. The guards of the machine are such conditions: `Op.Allowed` says what an operation
needs to be allowed by a guard.
-/

namespace Zeta

open Outcome

variable {s s' : Store} {G : Work.Guard} [Platform]

variable {claim : EgressDeliveryClaim} {nowMs : Int} {ops : List Op}
  {identity : RuntimeEventIdentity} {C : Store → Op → Prop} {leaseMs : ℕ}

/-! ### Conditions on runs -/

/-- Every operation of a run meets a condition in the state it is applied to. -/
def Meets (C : Store → Op → Prop) : Store → List Op → Prop
  | _, [] => True
  | s, op :: ops => C s op ∧ Meets C (apply s op) ops

/-- What operations keep under a condition, runs keep. -/
theorem Meets.invariant {I : Store → Prop} (hstep : ∀ s op, I s → C s op → I (apply s op))
    (h : Meets C s ops) (hs : I s) : I (applyAll s ops) := by
  induction ops generalizing s with
  | nil => exact hs
  | cons op ops ih => exact ih h.2 (hstep s op hs h.1)

theorem Meets.mono {C' : Store → Op → Prop} (hC : ∀ s op, C s op → C' s op) (h : Meets C s ops) :
    Meets C' s ops := by
  induction ops generalizing s with
  | nil => trivial
  | cons op ops ih => exact ⟨hC s op h.1, ih h.2⟩

theorem meets_of_forall (h : ∀ op ∈ ops, ∀ s, C s op) : Meets C s ops := by
  induction ops generalizing s with
  | nil => trivial
  | cons op ops ih =>
    rw [List.forall_mem_cons] at h
    exact ⟨h.1 s, ih h.2⟩

/-- What a guard asks of an operation. -/
def Op.Allowed (G : Work.Guard) (s : Store) : Op → Prop
  | .start owner _ _ _ _ _ => loadRunningAttemptForClaim s.projections owner = .ok none →
    ∀ v : Work, v.attempts = s.work.attempts → G.start v owner.queueItemId
  | .fail owner _ _ _ failure => G.limit owner.queueItemId failure.retryPolicy.maxAttempts
  | .cancelQueueItem q _ _ _ _ => s.work.claims q = none → s.work.Running q → G.strand
  | .cancelRun runId _ _ _ _ => ∀ row, itemForRun s runId = some row →
    s.work.claims row.queueItemId = none → s.work.Running row.queueItemId → G.strand
  | .submitMessage request _ requestedIdentity _ => ∀ retained, retainedSessionMessage s.journal
    (sessionMessageRequestedEvent requestedIdentity request) = .ok (some retained) →
    ¬s.offers retained.id request.agentId → G.rebind
  | _ => True

omit [Platform] in
/-- No guard asks nothing. -/
theorem Op.allowed_none (s : Store) (op : Op) : op.Allowed .none s := by
  cases op <;> simp [Op.Allowed, Work.Guard.none]

/-! ### Operations that are not about work -/

theorem arrived_of_appendTrustedEvent {event : Event} {outcome : AppendOutcome}
    (hs : Ordered s.journal) (hkind : (eventKind event.eventType).ofWork = false)
    (h : appendTrustedEvent s event = .ok (outcome, s')) : s.work.Arrived s'.work := by
  rcases appendTrustedEvent_ok h with ⟨-, rfl, -⟩ | ⟨-, hrecorded⟩
  · exact .refl _
  · exact hrecorded.arrived hs hkind

omit [Platform] in
theorem work_claimNextEgressDelivery {workerName token : String}
    {claim : Option (EgressDeliveryClaim × EffectRow)}
    (h : claimNextEgressDelivery s workerName token leaseMs nowMs = .ok (claim, s')) :
    s'.work = s.work := by
  simp only [claimNextEgressDelivery, bind_ok_iff] at h
  obtain ⟨_, -, _, -, effect, -, h⟩ := h
  cases effect with
  | none =>
    cases h
    rfl
  | some effect =>
    simp only [claimEffect, insertEffectClaim, ok_iff, Prod.mk.injEq] at h
    obtain ⟨_, ⟨_, -, _, -, _, -, rfl⟩, -, rfl⟩ := h
    rfl

omit [Platform] in
theorem work_renewEgressDeliveryClaim {renewed : Bool}
    (h : renewEgressDeliveryClaim s claim leaseMs nowMs = .ok (renewed, s')) :
    s'.work = s.work := by
  simp only [renewEgressDeliveryClaim, ok_iff, Prod.mk.injEq] at h
  obtain ⟨_, -, _, -, -, rfl⟩ := h
  rfl

theorem arrived_startClaimedEgressDelivery (hs : Ordered s.journal) {effect : EffectRow}
    (h : startClaimedEgressDelivery s claim nowMs identity = .ok (effect, s')) :
    s.work.Arrived s'.work := by
  simp only [startClaimedEgressDelivery, bind_ok_iff] at h
  obtain ⟨effect, -, h⟩ := h
  split at h
  · cases h
    exact .refl _
  · simp only [startDelivery, ok_iff, pair_iff] at h
    obtain ⟨_, -, _, t, happend, _, -, _, -, -, rfl⟩ := h
    exact ((recordings_of_appendCandidate aside_effectEvent happend).arrived hs).1

theorem arrived_finishClaimedEgressDelivery (hs : Ordered s.journal) {status : EffectStatus}
    {result : Map} {retryAt : Option Int}
    (h : finishClaimedEgressDelivery s claim nowMs identity status result retryAt = .ok s') :
    s.work.Arrived s'.work := by
  simp only [finishClaimedEgressDelivery, ok_iff, Prod.exists] at h
  obtain ⟨effect, -, _, -, _, -, _, t, happend, rfl⟩ := h
  exact ((recordings_of_appendCandidate aside_effectEvent happend).arrived hs).1

/-! ### Advancing what is due -/

theorem steps_runDueStep (hs : Coherent s) (hreserved : s.projections.Unreserved)
    {exhausted : DispatchError} {supply rest : List RuntimeEventIdentity} {step : DueStep}
    {events : Option (List Event)}
    (h : runDueStep s nowMs exhausted supply step = .ok ((events, s'), rest)) :
    Work.Steps G s.work s'.work ∧ Coherent s' := by
  cases step with
  | timeout =>
    match supply with
    | [] | [_] => cases h
    | first :: second :: supply =>
      simp only [runDueStep, ok_iff, Prod.mk.injEq] at h
      obtain ⟨_, htimeout, rfl, -⟩ := h
      exact steps_of_resumes (resumes_timeoutNextDueWait hs htimeout) hs
  | publish n =>
    simp only [runDueStep, ok_iff, pair_iff] at h
    obtain ⟨_, _, -, _, _, hpublish, ⟨rfl, rfl⟩, -⟩ := h
    exact steps_publishNextDueDeferredPublication hs hreserved hpublish

/-- An advance is a sequence of steps, and keeps them coherent. -/
theorem steps_advanceDue (nowMs : Int) (exhausted : DispatchError) (limit : ℕ) (s : Store)
    (hs : Coherent s) (hreserved : s.projections.Unreserved) (supply : List RuntimeEventIdentity) :
    Work.Steps G s.work (advanceDue nowMs exhausted limit s supply).2.work := by
  induction limit generalizing s supply with
  | zero => exact .refl
  | succ limit ih =>
    unfold advanceDue
    split
    · exact .refl
    · exact .refl
    · split
      · exact .refl
      · rename_i hrun
        obtain ⟨hsteps, hcoherent⟩ := steps_runDueStep (G := G) hs hreserved hrun
        exact hsteps.trans
          (ih _ hcoherent ((changes_runDueStep hreserved hrun).unreserved hreserved) _)

/-! ### All operations -/

/-- What every run keeps. -/
structure Ready (s : Store) : Prop where
  history : History s
  resources : Resources s
  inv : s.work.Inv

theorem ready_empty : Ready .empty where
  history := history_empty
  resources := resources_empty
  inv := by
    rw [work_empty]
    exact Work.inv_empty

theorem Ready.coherent (hs : Ready s) : Coherent s := ⟨hs.history.ordered, hs.resources, hs.inv⟩

omit [Platform] in
/-- What a transaction did is a sequence of steps if what it does when it returns is one. -/
theorem steps_commit {α : Type} {r : Except DispatchError (α × Store)}
    (h : ∀ a s', r = .ok (a, s') → Work.Steps G s.work s'.work) :
    Work.Steps G s.work (commit s r).work := by
  rcases commit_cases s r with heq | ⟨a, hok⟩
  · rw [heq]
  · exact h a _ hok

/-- An operation is a sequence of steps. -/
theorem Op.steps (hs : Ready s) {op : Op} (hop : op.Authentic) (hallowed : op.Allowed G s) :
    Work.Steps G s.work (apply s op).work := by
  have hinv := hs.inv
  have hordered := hs.history.ordered
  have hcoherent := hs.coherent
  have hreserved := hs.history.unreserved
  cases op with
  | appendTrusted event =>
    exact steps_commit fun _ _ h => (arrived_of_appendTrustedEvent hordered
      (ofWork_of_not_isLifecycleType hop) h).toSteps G
  | ingest event =>
    refine steps_commit fun _ _ h => ?_
    unfold ingestEvent at h
    split at h
    · cases h
    · rename_i hreserved
      exact (arrived_of_appendTrustedEvent hordered
        (ofWork_of_unreserved (by simpa using hreserved))
        h).toSteps G
  | route => exact steps_commit fun _ _ => steps_routeIngressEvent hinv
  | claim => exact steps_commit fun _ _ => steps_claimNextQueueItem
  | renew =>
    refine steps_commit fun _ _ h => ?_
    rw [work_renewClaim h]
  | release => exact steps_releaseClaim s _ _
  | reconcile nowMs => exact .single (loses_reconcileExpired s nowMs)
  | start => exact steps_commit fun _ _ h => (steps_startClaimedAttempt hinv hallowed h).1
  | fail => exact steps_commit fun _ _ => steps_failClaimedAttempt hinv hordered hallowed
  | complete => exact steps_commit fun _ _ => steps_completeClaimedAttempt hinv hordered hop
  | cancelRun => exact steps_commit fun _ _ => steps_cancelRun hinv hallowed
  | cancelQueueItem => exact steps_commit fun _ _ => steps_cancelQueueItem hinv hallowed
  | finalizeCancellation =>
    exact steps_commit fun _ _ => steps_finalizeNextRequestedCancellation hinv hordered
  | resumeWaits =>
    exact steps_commit fun _ _ h =>
      (steps_of_resumes (resumes_resumeWaitsForEvent hcoherent h) hcoherent).1
  | timeoutWait =>
    exact steps_commit fun _ _ h =>
      (steps_of_resumes (resumes_timeoutNextDueWait hcoherent h) hcoherent).1
  | publishDeferred =>
    exact steps_commit fun _ _ h =>
      (steps_publishNextDueDeferredPublication hcoherent hreserved h).1
  | advanceDue => exact steps_advanceDue _ _ _ s hcoherent hreserved _
  | cancelResource =>
    exact steps_commit fun _ _ h => ((recordings_cancelResource h).arrived hordered).1.toSteps G
  | submitMessage => exact steps_commit fun _ _ => steps_submitSessionMessage hinv hordered hallowed
  | claimEgress =>
    refine steps_commit fun _ _ h => ?_
    rw [work_claimNextEgressDelivery h]
  | renewEgress =>
    refine steps_commit fun _ _ h => ?_
    rw [work_renewEgressDeliveryClaim h]
  | reconcileEgress => exact .refl
  | startEgress =>
    exact steps_commit fun _ _ h => (arrived_startClaimedEgressDelivery hordered h).toSteps G
  | completeEgress | failEgress | markEgressAmbiguous =>
    refine steps_commit fun _ _ h => ?_
    obtain ⟨_, hfinish, ht⟩ := map_ok_iff.mp h
    cases ht
    exact (arrived_finishClaimedEgressDelivery hordered hfinish).toSteps G
  | rebuild =>
    exact steps_commit fun _ _ h => .single (loses_rebuildProjections hs.history hinv.toShape h)

/-- Operations keep what every run keeps. -/
theorem Ready.apply [LawfulFloatText] (hs : Ready s) {op : Op} (hop : op.Authentic) :
    Ready (apply s op) where
  history := hs.history.apply hop
  resources := hs.resources.apply hs.history hop
  inv := (Op.steps (G := .none) hs hop (Op.allowed_none s op)).inv hs.inv

/-- A condition under which the caller authors no lifecycle fact and a guard allows the operation.
-/
def Op.Under (G : Work.Guard) (s : Store) (op : Op) : Prop := op.Authentic ∧ op.Allowed G s

/-- A run from a new store is a run of the machine. -/
theorem Meets.steps [LawfulFloatText] (h : Meets (Op.Under G) s ops) (hs : Ready s) :
    Ready (applyAll s ops) ∧ Work.Steps G s.work (applyAll s ops).work := by
  refine h.invariant (I := fun t => Ready t ∧ Work.Steps G s.work t.work) ?_ ⟨hs, .refl⟩
  rintro t op ⟨ht, hsteps⟩ ⟨hop, hallowed⟩
  exact ⟨ht.apply hop, hsteps.trans (Op.steps ht hop hallowed)⟩

/-- A run without forged facts is a run of the machine, under every guard that allows its operations
in every state. -/
theorem steps_of_authentic [LawfulFloatText] (hops : ∀ op ∈ ops, op.Authentic)
    (hallowed : ∀ op ∈ ops, ∀ s, op.Allowed G s) :
    Ready (applyAll .empty ops) ∧ Work.Steps G .empty (applyAll .empty ops).work := by
  have h : Meets (Op.Under G) .empty ops :=
    meets_of_forall fun op hop s => ⟨hops op hop, hallowed op hop s⟩
  exact h.steps ready_empty

end Zeta
