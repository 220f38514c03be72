import ZetaRuntime.Replay.History

/-!
# Reserved event types

Types that start with `runtime.` are for the facts the dispatcher writes itself. Two of the three
ways in which a caller's type gets into the journal refuse them: `ingestEvent`, and the projections
of deferred publications and waits. The third does not: a publication that is due when its attempt
completes is appended under whatever type the agent named.

The theorem says exactly when a completion keeps to the reserved namespace. A completion that turns
into a cancellation applies no control. One that does not lets a reserved type through for every
publication that is due at once, unless an entry with the key of the publication is journaled
already; then the append resolves to that entry.

Facts of the dispatcher carry the source `zeta`, and what an agent publishes the source
`agent:<id>`. This is how the two are told apart below.
-/

namespace Zeta

open Outcome

variable {outcome : AppendOutcome} {control : AttemptControl} {attempt : AttemptRow}
  {ctx : CompletionContext} {input : Event} {completedAt : Int}
  {controls : List (AttemptControl × RuntimeEventIdentity)} {events : List Event} {result : Map}
  {item : QueueItem} {first : RuntimeEventIdentity} {finishedAt key : String}

/-- The entries a store has beyond those of an earlier one. -/
def Store.added (s s' : Store) : List JournalEntry := s'.journal.drop s.journal.length

/-- Whether a projection takes events of a kind for facts. -/
def EventKind.lifecycle : EventKind → Bool
  | .effect | .wait | .deferredPublication | .cancelRequested | .queueItem | .attempt => true
  | .ingress | .unprojected => false

/-- Reserved types are the dispatcher's own, and nothing else is projected as a fact. -/
structure Confined (entries : List JournalEntry) : Prop where
  reserved : ∀ entry ∈ entries, startsWith entry.event.eventType "runtime." = true →
    entry.event.source = "zeta"
  projected : ∀ entry ∈ entries, entry.event.source ≠ "zeta" →
    (eventKind entry.event.eventType).lifecycle = false

instance (entries : List JournalEntry) : Decidable (Confined entries) :=
  decidable_of_iff
    ((∀ entry ∈ entries, startsWith entry.event.eventType "runtime." = true →
      entry.event.source = "zeta") ∧
    ∀ entry ∈ entries, entry.event.source ≠ "zeta" →
      (eventKind entry.event.eventType).lifecycle = false)
    ⟨fun h => ⟨h.1, h.2⟩, fun h => ⟨h.1, h.2⟩⟩

/-- An entry whose type is reserved only if the dispatcher wrote it. -/
def Event.Kept (event : Event) : Prop :=
  startsWith event.eventType "runtime." = true → event.source = "zeta"

theorem confined_of_kept {entries : List JournalEntry}
    (h : ∀ entry ∈ entries, entry.event.Kept) : Confined entries where
  reserved := h
  projected entry hentry hsource := by
    cases hreserved : startsWith entry.event.eventType "runtime." with
    | true => exact absurd (h entry hentry hreserved) hsource
    | false => rcases eventKind_of_unreserved hreserved with hkind | hkind <;> rw [hkind] <;> rfl

/-- The key under which a completion publishes. -/
def publicationKey (queueItemId : String) (position : ℕ) : String :=
  "agent.publish:" ++ queueItemId ++ ":" ++ toString position

theorem publicationKey_eq (queueItemId : String) (position : ℕ) :
    publicationKey queueItemId position
      = "agent.publish:" ++ (queueItemId ++ (":" ++ toString position)) :=
  (String.append_assoc ..).trans (String.append_assoc ..)

section

variable [Platform]

/-- A publication of a reserved type that is due when the attempt ends. -/
def AttemptControl.PublishesReserved (finishedAt : String) : AttemptControl → Prop
  | .publish _ eventType _ at_ _ =>
    startsWith eventType "runtime." = true ∧
      ∃ completedAt ∈ Platform.parseRfc3339 finishedAt, publishesAtOnce completedAt at_ = .ok true
  | .wait .. => False
  | .cancel .. => False

/-- Whether the completion of a claimed item is a cancellation. -/
def CancelsInstead (s : Store) (claim : QueueClaim) (completion : AttemptCompletion) : Prop :=
  completion.disposition = .cancelled ∨
    ∃ row ∈ s.projections.queueItems.find? claim.queueItemId,
      row.cancelRequestedEventId.isSome = true

variable {s s' : Store} {P : Event → Prop}

/-! ### What recording adds -/

/-- Recording events adds entries that say what the events say. -/
theorem Recordings.added_spec (h : Recordings P s s') :
    ∃ entries, s'.journal = s.journal ++ entries ∧
      ∀ entry ∈ entries, ∃ event, P event ∧ entry.event.eventType = event.eventType ∧
        entry.event.source = event.source ∧ entry.event.idempotencyKey = event.idempotencyKey := by
  obtain ⟨entries, hjournal, hentries⟩ := (h.changes fun _ => id).added_spec
  refine ⟨entries, hjournal, fun entry hentry => ?_⟩
  obtain ⟨event, hP, -, cursor, hback⟩ := hentries entry hentry
  exact ⟨event, hP, hback.eventType_eq, hback.source_eq, hback.idempotencyKey_eq⟩

/-- What recording kept events adds is confined. -/
theorem Recordings.confined (h : Recordings Event.Kept s s') : Confined (s.added s') := by
  obtain ⟨entries, hjournal, hentries⟩ := h.added_spec
  refine confined_of_kept fun entry hentry hreserved => ?_
  rw [Store.added, hjournal, List.drop_left] at hentry
  obtain ⟨event, hkept, htype, hsource, -⟩ := hentries entry hentry
  rw [hsource]
  exact hkept (htype ▸ hreserved)

/-- A key that no recorded event carries is journaled after if it was before. -/
theorem Recordings.unkeyed (h : Recordings (fun event => event.idempotencyKey ≠ some key) s s')
    (hs : ∀ entry ∈ s.journal, entry.event.idempotencyKey ≠ some key) :
    ∀ entry ∈ s'.journal, entry.event.idempotencyKey ≠ some key := by
  obtain ⟨entries, hjournal, hentries⟩ := h.added_spec
  intro entry hentry
  rw [hjournal] at hentry
  rcases List.mem_append.mp hentry with hentry | hentry
  · exact hs entry hentry
  · obtain ⟨event, hP, -, -, hkey⟩ := hentries entry hentry
    rwa [hkey]

/-! ### What controls record -/

omit [Platform] in
theorem kept_of_source {event : Event} (h : event.source = "zeta") : event.Kept := fun _ => h

/-- A control records what is kept, unless it publishes a reserved type. -/
theorem ControlEvent.kept {identity : RuntimeEventIdentity} {event : Event}
    (hfinished : Platform.parseRfc3339 finishedAt = some ctx.completedAt)
    (hcontrol : ¬control.PublishesReserved finishedAt)
    (h : ControlEvent ctx identity control event) :
    event.Kept := by
  cases h with
  | cancel h =>
    rcases h with ⟨wait, rfl⟩ | ⟨publication, rfl⟩ <;> exact kept_of_source rfl
  | create h =>
    cases control with
    | cancel => cases h
    | wait => cases h; exact kept_of_source rfl
    | publish handle eventType payload at_ position =>
      simp only [completionControlEvent, ok_iff] at h
      obtain ⟨immediate, hdue, rfl⟩ := h
      cases immediate with
      | false => exact kept_of_source rfl
      | true => exact fun hreserved => absurd ⟨hreserved, _, hfinished, hdue⟩ hcontrol

/-- A control at another position does not use the key of a publication. -/
theorem ControlEvent.key_ne {identity : RuntimeEventIdentity} {event : Event} {position : ℕ}
    (hposition : control.position ≠ position) (h : ControlEvent ctx identity control event) :
    event.idempotencyKey ≠ some (publicationKey ctx.item.queueItemId position) := by
  have hne {a x : String} (n : ℕ) (ha : n ≤ a.toList.length)
    (hn : n ≤ "agent.publish:".toList.length)
      (hstart : a.toList.take n ≠ "agent.publish:".toList.take n) :
      some (a ++ x) ≠ some (publicationKey ctx.item.queueItemId position) := by
    rw [publicationKey_eq]
    exact fun heq => append_ne_append n ha hn hstart _ _ (Option.some.inj heq)
  cases h with
  | cancel h =>
    rcases h with ⟨wait, rfl⟩ | ⟨publication, rfl⟩
    · exact hne 1 (by decide) (by decide) (by decide)
    · exact hne 1 (by decide) (by decide) (by decide)
  | create h =>
    cases control with
    | cancel => cases h
    | wait =>
      cases h
      simp only [waitCreatedEvent, runtimeFact, String.append_assoc]
      exact hne 7 (by decide) (by decide) (by decide)
    | publish handle eventType payload at_ other =>
      simp only [completionControlEvent, ok_iff] at h
      obtain ⟨immediate, -, rfl⟩ := h
      cases immediate with
      | false =>
        simp only [Bool.false_eq_true, if_false, deferredPublicationCreatedEvent, runtimeFact,
          String.append_assoc]
        exact hne 7 (by decide) (by decide) (by decide)
      | true =>
        intro heq
        exact hposition (append_toString_inj (s := ":") rfl (by decide) (Option.some.inj heq)).2

/-- An append under a key that is journaled changes nothing. -/
theorem appendCandidate_of_keyed {same : Event → Event → Bool} {event : Event}
    (hkey : event.idempotencyKey = some key)
    (hkeyed : ∃ entry ∈ s.journal, entry.event.idempotencyKey = some key)
    (h : appendCandidate same s event = .ok (outcome, s')) : s' = s := by
  rcases appendCandidate_ok h with ⟨-, hsame, -⟩ | ⟨-, hrecorded⟩
  · exact hsame
  · obtain ⟨projected, hinserted, -⟩ := hrecorded
    obtain ⟨entry, hentry, hentrykey⟩ := hkeyed
    exact absurd hentrykey (hinserted.fresh_key key hkey entry hentry)

/-- An append under a key that is not journaled records its event. -/
theorem recorded_of_unkeyed {event : Event} (hkey : event.idempotencyKey = some key)
    (hunkeyed : ∀ entry ∈ s.journal, entry.event.idempotencyKey ≠ some key)
    (h : appendRuntimeEvent s event = .ok (outcome, s')) : Recorded s event s' := by
  rcases appendCandidate_ok h with ⟨-, -, ⟨entry, hentry, hretained, -⟩, hsame⟩ | ⟨-, hrecorded⟩
  · simp only [sameLifecycleIntention, Bool.and_eq_true, decide_eq_true_eq] at hsame
    have : entry.event.idempotencyKey = some key := by
      rw [← hretained, ← hsame.1.1.1.1.2, hkey]
    exact absurd this (hunkeyed entry hentry)
  · exact hrecorded

theorem Recordings.keyed (h : Recordings P s s')
    (hs : ∃ entry ∈ s.journal, entry.event.idempotencyKey = some key) :
    ∃ entry ∈ s'.journal, entry.event.idempotencyKey = some key := by
  obtain ⟨entries, hjournal, -⟩ := h.added_spec
  obtain ⟨entry, hentry, hkey⟩ := hs
  exact ⟨entry, by rw [hjournal]; exact List.mem_append_left _ hentry, hkey⟩

/-- Publications of reserved types whose keys are journaled, and other controls, record what is
kept. -/
theorem kept_applyControls (h : applyControls ctx s controls = .ok (events, s'))
    (hfinished : Platform.parseRfc3339 finishedAt = some ctx.completedAt)
    (hkeyed : ∀ c ∈ controls, c.1.PublishesReserved finishedAt → ∃ entry ∈ s.journal,
      entry.event.idempotencyKey = some (publicationKey ctx.item.queueItemId c.1.position)) :
    Recordings Event.Kept s s' := by
  induction controls generalizing s events with
  | nil => cases h; exact .refl
  | cons control controls ih =>
    obtain ⟨control, identity⟩ := control
    simp only [applyControls, ok_iff, pair_iff] at h
    obtain ⟨_, t, hfirst, _, u, hrest, -, rfl⟩ := h
    have hone : Recordings Event.Kept s t := by
      by_cases hreserved : control.PublishesReserved finishedAt
      · have hjournaled := hkeyed _ (.head _) hreserved
        cases control with
        | wait | cancel => exact hreserved.elim
        | publish handle eventType payload at_ position =>
          obtain ⟨-, completedAt, hcompleted, hdue⟩ := hreserved
          obtain rfl : ctx.completedAt = completedAt := Option.some.inj
            (hfinished.symm.trans hcompleted)
          simp only [applyControl, applyCreation, completionControlEvent, hdue, ok_iff, pair_iff,
            Except.ok.injEq] at hfirst
          obtain ⟨event, ⟨_, rfl, rfl⟩, _, v, happend, -, rfl⟩ := hfirst
          have hsame := appendCandidate_of_keyed rfl hjournaled happend
          exact hsame ▸ .refl
      · exact (recordings_applyControl hfirst).mono fun _ => ControlEvent.kept hfinished hreserved
    exact hone.trans (ih hrest fun c hc hreserved =>
      hone.keyed (hkeyed c (.tail _ hc) hreserved))

/-- Controls are applied one part after the other. -/
theorem applyControls_append {first rest : List (AttemptControl × RuntimeEventIdentity)}
    (h : applyControls ctx s (first ++ rest) = .ok (events, s')) :
    ∃ before t after, applyControls ctx s first = .ok (before, t) ∧
      applyControls ctx t rest = .ok (after, s') := by
  induction first generalizing s events with
  | nil => exact ⟨[], s, events, rfl, h⟩
  | cons control first ih =>
    obtain ⟨control, identity⟩ := control
    simp only [List.cons_append, applyControls, ok_iff, pair_iff] at h
    obtain ⟨events, t, hcontrol, _, u, hrest, -, rfl⟩ := h
    obtain ⟨before, v, after, hbefore, hafter⟩ := ih hrest
    refine ⟨events ++ before, v, after, ?_, hafter⟩
    simp only [applyControls, ok_iff, pair_iff]
    exact ⟨events, t, hcontrol, before, v, hbefore, rfl, rfl⟩

/-- A publication of a reserved type whose key is not journaled gets into the journal. -/
theorem publishes_reserved (h : applyControls ctx s controls = .ok (events, s'))
    (hfinished : Platform.parseRfc3339 finishedAt = some ctx.completedAt)
    (hpositions : (controls.map (·.1.position)).Nodup) {c : AttemptControl × RuntimeEventIdentity}
    (hc : c ∈ controls) (hreserved : c.1.PublishesReserved finishedAt)
    (hunkeyed : ∀ entry ∈ s.journal, entry.event.idempotencyKey ≠
      some (publicationKey ctx.item.queueItemId c.1.position)) :
    ∃ entry ∈ s'.journal, entry.event.idempotencyKey
        = some (publicationKey ctx.item.queueItemId c.1.position) ∧
      startsWith entry.event.eventType "runtime." = true ∧ entry.event.source ≠ "zeta" := by
  obtain ⟨first, rest, rfl⟩ := List.append_of_mem hc
  obtain ⟨before, t, after, hbefore, hafter⟩ := applyControls_append h
  -- The controls before it are at other positions, so its key is still free.
  have hfree : ∀ entry ∈ t.journal, entry.event.idempotencyKey
      ≠ some (publicationKey ctx.item.queueItemId c.1.position) := by
    refine Recordings.unkeyed
      (recordings_applyControls (fun other hother event hevent => ?_) hbefore)
      hunkeyed
    refine hevent.key_ne fun hsame => ?_
    rw [List.map_append, List.map_cons, List.nodup_append] at hpositions
    exact hpositions.2.2 _ (List.mem_map_of_mem hother) _ (.head _) hsame
  obtain ⟨control, identity⟩ := c
  simp only [applyControls, ok_iff, pair_iff] at hafter
  obtain ⟨_, u, hcontrol, _, v, hrest, -, rfl⟩ := hafter
  cases control with
  | wait | cancel => exact hreserved.elim
  | publish handle eventType payload at_ position =>
    obtain ⟨htype, completedAt, hcompleted, hdue⟩ := hreserved
    obtain rfl : ctx.completedAt = completedAt := Option.some.inj (hfinished.symm.trans hcompleted)
    simp only [applyControl, applyCreation, completionControlEvent, hdue, ok_iff, pair_iff,
      Except.ok.injEq] at hcontrol
    obtain ⟨event, ⟨_, rfl, rfl⟩, _, x, happend, -, rfl⟩ := hcontrol
    have hrecorded := recorded_of_unkeyed rfl hfree happend
    obtain ⟨entry, -, happended, -, hevent, -⟩ := hrecorded.entry
    obtain ⟨entries, hjournal, -⟩ := (recordings_applyControls (P := fun _ => True)
      (fun _ _ _ _ => trivial) hrest).added_spec
    refine ⟨entry.stored, ?_, ?_, ?_, ?_⟩
    · rw [hjournal, happended]
      simp
    · have hkey : entry.stored.event.idempotencyKey = entry.event.idempotencyKey := rfl
      rw [hkey, hevent]
      rfl
    · simpa [JournalEntry.stored, hevent, immediatePublicationEvent] using htype
    · have hsource : entry.stored.event.source = "agent:" ++ ctx.attempt.targetAgent := by
        simp [JournalEntry.stored, hevent, immediatePublicationEvent]
      rw [hsource]
      exact append_ne_append (b := "zeta") 1 (by decide) (by decide) (by decide) _ ""

/-! ### What a completion adds -/

/-- Entries that recording adds after others have been added are added. -/
theorem Recordings.mem_added (h : Recordings P s s') {entry : JournalEntry}
    (hentry : entry ∈ s'.journal) (hnew : entry ∉ s.journal) : entry ∈ s.added s' := by
  obtain ⟨entries, hjournal, -⟩ := h.added_spec
  rw [Store.added, hjournal, List.drop_left]
  rw [hjournal] at hentry
  exact (List.mem_append.mp hentry).resolve_left hnew

/-- The two facts of a cancellation are the dispatcher's own. -/
theorem confined_liveCancelled {second : RuntimeEventIdentity} {rawResult : Option Map}
    (h : appendBatch sameLifecycleIntention s
      (liveCancelledEvents first second input item attempt finishedAt rawResult) =
        .ok (events, s')) :
    Confined (s.added s') := by
  simp only [liveCancelledEvents, appendBatch, ok_iff, pair_iff] at h
  obtain ⟨_, t, hfirst, _, _, ⟨_, _, hsecond, _, _, ⟨-, rfl⟩, -, rfl⟩, -, rfl⟩ := h
  exact Recordings.confined ((recordings_of_appendCandidate (kept_of_source rfl) hfirst).trans
    (recordings_of_appendCandidate (kept_of_source rfl) hsecond))

/-- The fact that ends an attempt does not use the key of a publication. -/
theorem recordings_completedAttempt {identity : RuntimeEventIdentity} {queueItemId : String}
    (h : appendRuntimeEvent s (completedAttemptEvent identity input attempt finishedAt result) =
      .ok (outcome, s')) (position : ℕ) :
    Recordings
      (fun event => event.idempotencyKey ≠ some (publicationKey queueItemId position)) s s' := by
  refine recordings_of_appendCandidate (fun heq => ?_) h
  have heq := Option.some.inj heq
  rw [publicationKey_eq, attemptIdempotencyKey_eq] at heq
  exact append_ne_append 2 (by decide) (by decide) (by decide) _ _ heq

/-- An attempt that succeeds keeps to the reserved namespace exactly if its publications of reserved
types are under keys that are journaled already. -/
theorem recordSuccess_confined_iff {last : RuntimeEventIdentity}
    (hfinished : Platform.parseRfc3339 finishedAt = some completedAt)
    (hpositions : (controls.map (·.1.position)).Nodup)
    (h : recordSuccess s first last controls completedAt input item attempt finishedAt result =
      .ok (events, s')) :
    Confined (s.added s') ↔ ∀ c ∈ controls, c.1.PublishesReserved finishedAt →
      ∃ entry ∈ s.journal, entry.event.idempotencyKey
        = some (publicationKey item.queueItemId c.1.position) := by
  simp only [recordSuccess, ok_iff, pair_iff] at h
  obtain ⟨completed, t, hcompleted, _, t', happly, _, u, hended, -, rfl⟩ := h
  have hkept : Recordings Event.Kept s t :=
    recordings_of_appendCandidate (kept_of_source rfl) hcompleted
  have hlast : Recordings Event.Kept t' u :=
    recordings_of_appendCandidate (kept_of_source rfl) hended
  constructor
  · intro hconfined c hc hreserved
    by_contra hunkeyed
    push Not at hunkeyed
    have hfree := (recordings_completedAttempt hcompleted c.1.position).unkeyed hunkeyed
    obtain ⟨entry, hentry, hkey, hreserved', hsource⟩ :=
      publishes_reserved happly hfinished hpositions hc hreserved hfree
    have hall : Recordings (fun _ => True) s u :=
      ((hkept.mono fun _ _ => trivial).trans (recordings_applyControls (fun _ _ _ _ => trivial)
        happly)).trans (hlast.mono fun _ _ => trivial)
    obtain ⟨entries, hlater, -⟩ := hlast.added_spec
    refine hsource (hconfined.reserved entry (hall.mem_added ?_ ?_) hreserved')
    · rw [hlater]
      exact List.mem_append_left _ hentry
    · exact fun hold => hunkeyed entry hold hkey
  · intro hkeyed
    exact Recordings.confined ((hkept.trans (kept_applyControls happly hfinished
      fun c hc hreserved => hkept.keyed (hkeyed c hc hreserved))).trans hlast)

/-- A completion keeps to the reserved namespace exactly if it becomes a cancellation, or all its
publications of reserved types are due later or under keys that are journaled already. -/
theorem completeClaimedAttempt_confined_iff {claim : QueueClaim} {nowMs : Int}
    {identities : List RuntimeEventIdentity} {completion : AttemptCompletion} {events : List Event}
    (h : completeClaimedAttempt s claim nowMs identities completion = .ok (events, s')) :
    Confined (s.added s') ↔ CancelsInstead s claim completion ∨
      ∀ control ∈ completion.controls, control.PublishesReserved completion.finishedAt →
        ∃ entry ∈ s.journal, entry.event.idempotencyKey
          = some (publicationKey claim.queueItemId control.position) := by
  obtain ⟨completedAt, controls, _, _, middle, _, attempt, item, _, u, hcontrols, -, -, hcount, -,
    -, hfound, -, hrecord, hrelease⟩ := completeClaimedAttempt_ok h
  obtain ⟨hfinished, hperm, hsorted⟩ := completionControls_ok hcontrols
  have hpositions := List.pairwise_map.mpr (hsorted.imp ne_of_lt)
  have hadded : s.added s' = s.added u := by
    simp only [releaseClaimInTransaction, ok_iff] at hrelease
    obtain ⟨_, -, rfl⟩ := hrelease
    rfl
  rw [hadded]
  obtain ⟨row, hrow, hitem⟩ := loadQueueItem_some hfound
  have hcancels : CancelsInstead s claim completion ↔
      completion.disposition = .cancelled ∨ item.cancelRequestedEventId.isSome := by
    simp [CancelsInstead, hrow, hitem, QueueItemRow.toQueueItemRow_withClaim]
  have hid : item.queueItemId = claim.queueItemId := by
    rw [hitem]
    simpa only [QueueItemRow.toQueueItemRow_withClaim] using Table.key_of_find? hrow
  unfold recordCompletion at hrecord
  split at hrecord
  · rename_i hcancelled
    exact iff_of_true (confined_liveCancelled hrecord) (.inl (hcancels.mpr hcancelled))
  rename_i hproceeds
  -- There is an identity for every control.
  have hzip : (controls.zip middle).map Prod.fst = controls := List.map_fst_zip hcount.ge
  have hdistinct : ((controls.zip middle).map (·.1.position)).Nodup := by
    have hmap := congrArg (List.map AttemptControl.position) hzip
    rw [List.map_map] at hmap
    exact hmap ▸ hpositions
  refine (recordSuccess_confined_iff hfinished hdistinct hrecord).trans ?_
  rw [or_iff_right (mt hcancels.mp hproceeds), hid]
  constructor
  · intro hkeyed control hcontrol
    rw [← hperm.mem_iff, ← hzip] at hcontrol
    obtain ⟨c, hc, rfl⟩ := List.mem_map.mp hcontrol
    exact hkeyed c hc
  · exact fun hkeyed c hc => hkeyed c.1 (hperm.mem_iff.mp (List.of_mem_zip hc).1)

end

namespace Sample

/-- An agent takes an event, and runs. -/
def running : List Op := [
  .ingest (event "e" "task" []),
  .route "e" [route "a" "task"] [identity "f1"],
  .claim "worker" "t" 1000 0,
  .start (claim "qi_e" "t") 0 (identity "f2") (identity "f3") "1970-01-01T00:00:00Z" none]

/-- A run that succeeds. -/
def succeeding (controls : List AttemptControl) : AttemptCompletion where
  finishedAt := "1970-01-01T00:00:00Z"
  disposition := .succeeded
  metadata := []
  controls := controls

/-- The run ends, and publishes an event of the type the completion names. -/
def publishing (eventType : String) (payload : Map) : Op :=
  .complete (claim "qi_e" "t") 0 [identity "f4", identity "f5", identity "f6"]
    (succeeding [.publish "p" eventType payload none 0])

/-- The payload of a queue fact about the event of the run. -/
def forgedItem : Map := [("queue_item_id", .string "qi_x"), ("event_id", .string "e"),
  ("target_agent", .string "b"), ("status", .string "available")]

end Sample

open Sample in
/-- A publication of an ordinary type keeps to the namespace. -/
theorem publishing_note_confined :
    ∃ r, @completeClaimedAttempt platform (run running) (claim "qi_e" "t") 0
        [identity "f4", identity "f5", identity "f6"] (succeeding [.publish "p" "note" [] none 0]) =
          .ok r ∧
      Confined ((run running).added r.2) := by
  obtain ⟨r, hr⟩ := exists_ok
    (x := @completeClaimedAttempt platform (run running) (claim "qi_e" "t") 0
    [identity "f4", identity "f5", identity "f6"] (succeeding [.publish "p" "note" [] none 0]))
    (by decide +kernel)
  refine ⟨r, hr, (@completeClaimedAttempt_confined_iff platform _ _ _ _ _ _ _ hr).mpr (.inr ?_)⟩
  intro control hcontrol hreserved
  obtain rfl := List.mem_singleton.mp hcontrol
  exact absurd hreserved.1 (by decide)

open Sample in
/-- An agent publishes an event of type `runtime.queue_item.available`, and there is a queue item
that nobody routed. -/
theorem publishing_not_confined :
    ¬Confined ((run running).added
        (run (running ++ [publishing "runtime.queue_item.available" forgedItem]))) ∧
      ((run
        (running ++
        [publishing "runtime.queue_item.available" forgedItem])).projections.queueItems.find?
        "qi_x").map (·.status) = some .available := by
  decide +kernel

end Zeta
