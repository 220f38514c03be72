import ZetaRuntime.Guarantee.Advance
import ZetaRuntime.Guarantee.Messages

/-!
# What a completion commits

A worker that completes its attempt commits everything at once: the fact that ends the attempt, what
each control asks for, and the fact that ends the item. Each of these is offered to the journal,
which writes it unless its key is taken by an entry with the same intention. A cancellation may ask
for nothing: when its turn comes, what it names may have ended, perhaps by an earlier control of the
same completion.

A worker that was told to stop, or whose item was asked to, commits two facts that say so, and its
controls are not looked at.
-/

namespace Zeta

open Outcome

variable {completion : AttemptCompletion} {attempt : AttemptRow} {ctx : CompletionContext}
  {input : Event} {completedAt : Int} {controls : List (AttemptControl × RuntimeEventIdentity)}
  {returned written : List Event} {result : Map} {item : QueueItem}
  {first last : RuntimeEventIdentity}

/-! ### Facts that are offered -/

section

variable [Platform] {s t u : Store}

/-- Facts are offered to a store one after the other. Those that are `written` are new, and the
others repeat an entry; `returned` are the events the journal has for all of them. -/
inductive FactsOffered : Store → List Event → List Event → List Event → Store → Prop
  | nil (s : Store) : FactsOffered s [] [] [] s
  | new {s t u : Store} {event : Event} {offered written returned : List Event} :
    Recorded s event t → FactsOffered t offered written returned u →
      FactsOffered s (event :: offered) (event :: written)
        ({ event with cursor := some (nextCursor s.journal) } :: returned) u
  | kept {s u : Store} {event : Event} {entry : JournalEntry}
    {offered written returned : List Event} :
    entry ∈ s.journal → entry.Repeats event → FactsOffered s offered written returned u →
      FactsOffered s (event :: offered) written (entry.event :: returned) u

theorem FactsOffered.append {offered offered' written' returned' : List Event}
    (h : FactsOffered s offered written returned t)
    (h' : FactsOffered t offered' written' returned' u) :
    FactsOffered s (offered ++ offered') (written ++ written') (returned ++ returned') u := by
  induction h with
  | nil => exact h'
  | new hrecorded _ ih => exact .new hrecorded (ih h')
  | kept hentry hrepeats _ ih => exact .kept hentry hrepeats (ih h')

/-- The journal grows by what is written. -/
theorem FactsOffered.journal {offered : List Event}
    (h : FactsOffered s offered written returned t) :
    ∃ entries, t.journal = s.journal ++ entries ∧
      List.Forall₂ JournalEntry.Holds entries written := by
  induction h with
  | nil => exact ⟨[], (List.append_nil _).symm, .nil⟩
  | new hrecorded _ ih =>
    obtain ⟨entry, hjournal, hholds⟩ := hrecorded.holds
    obtain ⟨entries, hentries, hwritten⟩ := ih
    refine ⟨entry :: entries, ?_, .cons hholds hwritten⟩
    rw [hentries, hjournal, List.append_assoc, List.singleton_append]
  | kept _ _ _ ih => exact ih

/-- An append offers one fact. -/
theorem factsOffered_of_append {event : Event} {outcome : AppendOutcome}
    (h : appendRuntimeEvent s event = .ok (outcome, t)) :
    ∃ written, FactsOffered s [event] written [outcome.event] t := by
  rcases appendCandidate_ok h with ⟨-, rfl, ⟨entry, hentry, hevent, hread, -⟩, hsame⟩
    | ⟨hins, hrecorded⟩
  · rw [hevent] at hsame ⊢
    exact ⟨[], .kept hentry ⟨hread, hsame⟩ (.nil _)⟩
  · rw [appendCandidate_event h hins]
    exact ⟨[event], .new hrecorded (.nil _)⟩

theorem factsOffered_of_appendBatch {offered : List Event}
    (h : appendBatch sameLifecycleIntention s offered = .ok (returned, t)) :
    ∃ written, FactsOffered s offered written returned t := by
  induction offered generalizing s returned with
  | nil =>
    cases h
    exact ⟨[], .nil _⟩
  | cons event offered ih =>
    simp only [appendBatch, ok_iff, pair_iff] at h
    obtain ⟨outcome, x, happend, rest, y, hrest, rfl, rfl⟩ := h
    obtain ⟨written, hwritten⟩ := factsOffered_of_append happend
    obtain ⟨written', hwritten'⟩ := ih hrest
    exact ⟨written ++ written', hwritten.append hwritten'⟩

/-! ### Controls -/

/-- What a control offers when its turn comes. A cancellation offers nothing for what has ended. -/
def controlOffer (s : Store) (ctx : CompletionContext) (identity : RuntimeEventIdentity) :
    AttemptControl → List Event
  | .cancel handle reason agentId sessionId _ =>
    if startsWith handle "wait_" then
      ((s.projections.waits.find? handle).filter (·.status = .active)).toList.map fun wait =>
        waitCancelledEvent identity wait reason (some agentId) (some sessionId)
    else
      ((s.projections.deferredPublications.find? handle).filter (·.status = .pending)).toList.map
        fun row =>
        deferredPublicationCancelledEvent identity row reason (some agentId) (some sessionId)
  | control => (completionControlEvent identity ctx control).toOption.toList

/-- The controls of a completion, each in its turn. -/
inductive Controlled (ctx : CompletionContext) : Store →
    List (AttemptControl × RuntimeEventIdentity) →
    List Event → List Event → List Event → Store → Prop
  | nil (s : Store) : Controlled ctx s [] [] [] [] s
  | cons {s t u : Store} {control : AttemptControl} {identity : RuntimeEventIdentity}
    {rest : List (AttemptControl × RuntimeEventIdentity)}
    {written returned offered' written' returned' : List Event} :
    FactsOffered s (controlOffer s ctx identity control) written returned t →
      Controlled ctx t rest offered' written' returned' u →
      Controlled ctx s ((control, identity) :: rest)
        (controlOffer s ctx identity control ++ offered')
        (written ++ written') (returned ++ returned') u

theorem Controlled.factsOffered {offered : List Event}
    (h : Controlled ctx s controls offered written returned t) :
    FactsOffered s offered written returned t := by
  induction h with
  | nil => exact .nil _
  | cons hfirst _ ih => exact hfirst.append ih

/-- A cancellation offers the end of what is open, and nothing otherwise. -/
theorem factsOffered_of_cancel {identity : RuntimeEventIdentity} {handle agentId sessionId : String}
    {reason : Option String} {position : ℕ} {kind : ResourceKind}
    {outcome : ResourceCancellationOutcome} (hkind : resourceKindForHandle handle = .ok kind)
    (h : cancelResourceInTransaction s handle reason (some agentId) (some sessionId) identity kind =
      .ok (outcome, t)) :
    ∃ written,
      FactsOffered s
      (controlOffer s ctx identity (.cancel handle reason agentId sessionId position))
      written outcome.event.toList t := by
  have hrecord {event : Event} {table : String}
      (h : recordResourceCancellation s handle kind event table = .ok (outcome, t)) :
      ∃ written, FactsOffered s [event] written outcome.event.toList t := by
    simp only [recordResourceCancellation, ok_iff, pair_iff] at h
    obtain ⟨appended, u, happend, _, -, rfl, rfl⟩ := h
    exact factsOffered_of_append happend
  unfold resourceKindForHandle at hkind
  split at hkind
  · rename_i hwait
    cases hkind
    simp only [cancelResourceInTransaction, ok_iff] at h
    obtain ⟨_, hload, wait, rfl, _, -, h⟩ := h
    obtain hfind : s.projections.waits.find? handle = some wait := rehydrateWait_eq hload
    obtain rfl : wait.handle = handle := Table.key_of_find? hfind
    simp only [controlOffer, if_pos hwait, hfind, Option.filter_some]
    unfold cancelWait at h
    split at h
    · rename_i hactive
      simpa [hactive] using hrecord h
    all_goals
      rename_i hended
      cases h
      exact ⟨[], by simpa [hended, terminalResourceCancellation] using FactsOffered.nil s⟩
  · rename_i hwait
    split at hkind
    · cases hkind
      simp only [cancelResourceInTransaction, ok_iff] at h
      obtain ⟨_, hload, row, rfl, _, -, h⟩ := h
      obtain hfind : s.projections.deferredPublications.find? handle = some row :=
        rehydrateDeferredPublication_eq hload
      obtain rfl : row.handle = handle := Table.key_of_find? hfind
      simp only [controlOffer, if_neg hwait, hfind, Option.filter_some]
      unfold cancelDeferredPublication at h
      split at h
      · rename_i hpending
        simpa [hpending] using hrecord h
      · rename_i hended
        cases h
        exact ⟨[], by simpa [hended, terminalResourceCancellation] using FactsOffered.nil s⟩
      · rename_i hended
        cases h
        exact ⟨[], by simpa [hended, terminalResourceCancellation] using FactsOffered.nil s⟩
      · cases h
    · cases hkind

/-- A control that was applied has offered what it asks for. -/
theorem factsOffered_of_applyControl {identity : RuntimeEventIdentity} {control : AttemptControl}
    (h : applyControl s ctx identity control = .ok (returned, t)) :
    ∃ written, FactsOffered s (controlOffer s ctx identity control) written returned t := by
  have hcreate (hoffer : controlOffer s ctx identity control
        = (completionControlEvent identity ctx control).toOption.toList)
      (h : applyCreation s ctx control identity = .ok (returned, t)) :
      ∃ written, FactsOffered s (controlOffer s ctx identity control) written returned t := by
    simp only [applyCreation, ok_iff, pair_iff] at h
    obtain ⟨event, hevent, outcome, u, happend, rfl, rfl⟩ := h
    rw [hoffer, hevent]
    exact factsOffered_of_append happend
  cases control with
  | cancel handle reason agentId sessionId position =>
    simp only [applyControl, ok_iff, pair_iff] at h
    obtain ⟨_, -, kind, hkind, outcome, u, hcancel, rfl, rfl⟩ := h
    exact factsOffered_of_cancel hkind hcancel
  | publish | wait => exact hcreate rfl h

/-- Controls are applied one after the other. -/
theorem controlled_of_applyControls (h : applyControls ctx s controls = .ok (returned, t)) :
    ∃ offered written, Controlled ctx s controls offered written returned t := by
  induction controls generalizing s returned with
  | nil =>
    cases h
    exact ⟨[], [], .nil _⟩
  | cons control controls ih =>
    obtain ⟨control, identity⟩ := control
    simp only [applyControls, ok_iff, pair_iff] at h
    obtain ⟨first, u, hfirst, rest, v, hrest, rfl, rfl⟩ := h
    obtain ⟨written, hwritten⟩ := factsOffered_of_applyControl hfirst
    obtain ⟨offered', written', hcontrolled⟩ := ih hrest
    exact ⟨_, _, .cons hwritten hcontrolled⟩

/-! ### Completions -/

/-- What a completion writes: two facts that say that the work was cancelled, or the end of the
attempt, what the controls ask for, and the end of the item. -/
inductive Committed (s : Store) (first last : RuntimeEventIdentity)
    (controls : List (AttemptControl × RuntimeEventIdentity)) (completedAt : Int) (input : Event)
    (item : QueueItem) (attempt : AttemptRow) (completion : AttemptCompletion) (result : Map) :
    List Event → List Event → Store → Prop
  | cancelled {written returned : List Event} {t : Store} :
    completion.disposition = .cancelled ∨ item.cancelRequestedEventId.isSome →
      FactsOffered s
        (liveCancelledEvents first last input item attempt completion.finishedAt (some result))
        written returned t →
      Committed s first last controls completedAt input item attempt completion result written
        returned t
  | succeeded {before offered written after returned : List Event} {completed ended : Event}
    {t u v : Store} :
    ¬(completion.disposition = .cancelled ∨ item.cancelRequestedEventId.isSome) →
      FactsOffered s [completedAttemptEvent first input attempt completion.finishedAt result]
        before [completed] t →
      Controlled { completedAt, input, item, attempt, completed } t controls offered written
        returned u →
      FactsOffered u [completedQueueEvent last input item attempt result] after [ended] v →
      Committed s first last controls completedAt input item attempt completion result
        (before ++ written ++ after) (completed :: returned ++ [ended]) v

theorem Committed.journal
    (h : Committed s first last controls completedAt input item attempt completion result written
      returned t) :
    ∃ entries, t.journal = s.journal ++ entries ∧
      List.Forall₂ JournalEntry.Holds entries written := by
  cases h with
  | cancelled _ hfacts => exact hfacts.journal
  | succeeded _ hbefore hcontrolled hafter =>
    exact ((hbefore.append hcontrolled.factsOffered).append hafter).journal

theorem committed_of_recordCompletion
    (h : recordCompletion s first last controls completedAt input item attempt
      completion result = .ok (returned, t)) :
    ∃ written, Committed s first last controls completedAt input item attempt completion result
      written
      returned t := by
  unfold recordCompletion at h
  split at h
  · rename_i hcancelled
    obtain ⟨written, hfacts⟩ := factsOffered_of_appendBatch h
    exact ⟨written, .cancelled hcancelled hfacts⟩
  · rename_i hcancelled
    simp only [recordSuccess, ok_iff, pair_iff] at h
    obtain ⟨completed, u, hcompleted, applied, v, happly, ended, w, hended, rfl, rfl⟩ := h
    obtain ⟨before, hbefore⟩ := factsOffered_of_append hcompleted
    obtain ⟨offered, written, hcontrolled⟩ := controlled_of_applyControls happly
    obtain ⟨after, hafter⟩ := factsOffered_of_append hended
    exact ⟨_, .succeeded hcancelled hbefore hcontrolled hafter⟩

/-- What a completion that succeeds has done: under a claim that is current it has used its
identities in order, has put its controls in the order of their positions, and has written what
`Committed` says; the journal grows by that, and the claim is gone with its locks. -/
structure CompletesExactly (s : Store) (claim : QueueClaim) (nowMs : Int)
    (identities : List RuntimeEventIdentity) (completion : AttemptCompletion)
    (returned : List Event)
    (s' : Store) : Prop where
  current : claimIsCurrentIn s.projections claim nowMs = true
  commits : ∃ first middle last controls completedAt result attempt item input written t entries,
    identities = first :: middle ++ [last] ∧ middle.length = controls.length ∧
    controls.Perm completion.controls ∧
    controls.Pairwise (fun a b => a.position < b.position) ∧
    Platform.parseRfc3339 completion.finishedAt = some completedAt ∧
    completionResult completion controls = .ok result ∧
    loadRunningAttemptForClaim s.projections claim = .ok (some attempt) ∧
    loadQueueItem s.projections claim.queueItemId = .ok (some item) ∧
    referencedEvent s.journal attempt.eventId "attempts" "event_id" = .ok input ∧
    Committed s first last (controls.zip middle) completedAt input item attempt completion result
      written returned t ∧
    s'.journal = s.journal ++ entries ∧ List.Forall₂ JournalEntry.Holds entries written ∧
    (∀ row, row ∈ s'.projections.queueClaims ↔
      row ∈ t.projections.queueClaims ∧ claim.names row = false) ∧
    ∀ lock, lock ∈ s'.projections.locks ↔ lock ∈ t.projections.locks ∧ lock.owner ≠ claim.token

/-- **A completion is exact and atomic.** One that fails changes nothing, and one that succeeds has
done what `CompletesExactly` says. -/
theorem completeClaimedAttempt_exact (s : Store) (claim : QueueClaim) (nowMs : Int)
    (identities : List RuntimeEventIdentity) (completion : AttemptCompletion) :
    (∀ error, completeClaimedAttempt s claim nowMs identities completion = .error error →
        apply s (.complete claim nowMs identities completion) = s) ∧
      ∀ returned s', completeClaimedAttempt s claim nowMs identities completion =
        .ok (returned, s') →
        CompletesExactly s claim nowMs identities completion returned s' := by
  constructor
  · intro error herror
    rw [apply, herror]
    rfl
  intro returned s' h
  obtain ⟨completedAt, controls, result, first, middle, last, attempt, item, input, t, hcontrols,
    hresult, hidentities, hcount, hcurrent, hrunning, hfound, hinput, hrecord, hrelease⟩ :=
    completeClaimedAttempt_ok h
  obtain ⟨written, hcommitted⟩ := committed_of_recordCompletion hrecord
  obtain ⟨entries, hjournal, hentries⟩ := hcommitted.journal
  obtain ⟨htime, hperm, hsorted⟩ := completionControls_ok hcontrols
  simp only [releaseClaimInTransaction, ok_iff] at hrelease
  obtain ⟨_, hone, rfl⟩ := hrelease
  refine ⟨hcurrent, first, middle, last, controls, completedAt, result, attempt, item, input,
    written, t, entries, hidentities, hcount, hperm, hsorted, htime, hresult, hrunning, hfound,
    hinput, hcommitted, hjournal, hentries, fun row => Table.mem_deleteWhere, fun lock => ?_⟩
  -- The claim's row has the claim's token, which owns its locks.
  obtain ⟨row, hrow, hnames⟩ : ∃ row ∈ t.projections.queueClaims.rows, claim.names row = true :=
    List.countP_pos_iff.mp (by rw [Table.countWhere] at hone; omega)
  have htoken : ∀ other, claim.names other = true → other.claimToken = claim.token := by
    intro other hother
    simp only [QueueClaim.names, Bool.and_eq_true, decide_eq_true_eq] at hother
    exact hother.2
  rw [Projections.deleteClaimsWhere, Table.mem_deleteWhere, Bool.eq_false_iff, Ne,
    List.any_eq_true]
  refine and_congr_right fun _ => not_congr ⟨?_, fun howner => ⟨row, hrow, ?_⟩⟩
  · rintro ⟨other, -, hother⟩
    simp only [Bool.and_eq_true, decide_eq_true_eq] at hother
    exact hother.2.symm.trans (htoken other hother.1)
  · simp [hnames, htoken row hnames, howner]

end

namespace Sample

/-- A worker reports that it stopped. -/
def stopping : Op :=
  .complete (claim "qi_e" "t") 0 [identity "f4", identity "f5"]
    { succeeding [] with disposition := .cancelled }

/-- An agent waits for the answer to a question, which it publishes first. -/
def asking : AttemptCompletion :=
  succeeding [.wait "w" "answer" [] none 1, .publish "p" "question" [] none 0]

theorem asking_exact :
    ∃ returned s', @completeClaimedAttempt platform (run running) (claim "qi_e" "t") 0
          [identity "f4", identity "f5", identity "f6", identity "f7"] asking = .ok (returned, s') ∧
      returned.map (·.eventType) = ["runtime.attempt.completed", "question", "runtime.wait.created",
        "runtime.queue_item.completed"] ∧
      @CompletesExactly platform (run running) (claim "qi_e" "t") 0
        [identity "f4", identity "f5", identity "f6", identity "f7"] asking returned s' := by
  have htypes : (@completeClaimedAttempt platform (run running) (claim "qi_e" "t") 0
      [identity "f4", identity "f5", identity "f6", identity "f7"] asking).map
        (fun r => r.1.map (·.eventType)) = .ok ["runtime.attempt.completed", "question",
          "runtime.wait.created", "runtime.queue_item.completed"] := by
    decide +kernel
  obtain ⟨⟨returned, s'⟩, hok, htypes⟩ := map_ok_iff.mp htypes
  exact ⟨returned, s', hok, htypes, (@completeClaimedAttempt_exact platform _ _ _ _ _).2 returned s'
    hok⟩

/-- Another agent publishes what the first one waits for. -/
def answeringWait : List Op := waitingUntil ++ [
  .ingest (event "d" "question" []),
  .route "d" [route "b" "question"] [identity "g1"],
  .claim "worker" "u" 1000 0,
  .start (claim "qi_d" "u") 0 (identity "g2") (identity "g3") "1970-01-01T00:00:00Z" none,
  .complete (claim "qi_d" "u") 0 [identity "g4", identity "g5", identity "g6"]
    (succeeding [.publish "p" "answer" [] none 0])]

end Sample

open Sample in
/-- A completion that reports a cancellation ends the attempt and the item as cancelled. One that
publishes what an agent waits for writes the event and leaves the wait active. -/
theorem stopping_and_answering :
    (run (running ++ [stopping])).journal.map (fun entry => entry.event.eventType)
        = (run running).journal.map (fun entry => entry.event.eventType)
          ++ ["runtime.attempt.cancelled", "runtime.queue_item.cancelled"] ∧
      ((run answeringWait).journal.map fun entry => entry.event.eventType).drop
          ((run waitingUntil).journal.length + 4)
        = ["runtime.attempt.completed", "answer", "runtime.queue_item.completed"] ∧
      (run answeringWait).projections.waits.rows.map (fun wait => (wait.eventType, wait.status))
        = [("answer", .active)] := by
  decide +kernel

end Zeta
