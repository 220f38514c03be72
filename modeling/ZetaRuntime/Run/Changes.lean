import Mathlib.Logic.Relation
import ZetaRuntime.Dispatch.Operations
import ZetaRuntime.Run.Locks

/-!
# What operations do to a store

Every operation but a rebuild is a sequence of two kinds of changes: an event is recorded, or
coordination moves without a fact. `Changes` is such a sequence, with a condition on the events it
records, and the lemmas below decompose every operation into one. An invariant that each change
keeps is then kept by every operation; this is how the journal, the replay and the resources are
treated.

Coordination writes claims and locks, and keeps locks with claims. Of the tables that are derived
from facts it touches two columns: it puts claimed items back to available, and it stamps attempts
with the token and the heartbeat of their claim.
-/

namespace Zeta

open Outcome

variable {outcome : AppendOutcome} {event : Event} {same : Event → Event → Bool}
  {events retained : List Event}

/-! ### Changes -/

/-- What coordination may do to a queue row. -/
def QueueItemRow.Unclaims (row row' : QueueItemRow) : Prop :=
  row' = row ∨ row.status = .claimed ∧ row' = { row with status := .available }

/-- What coordination may do to an attempt. -/
def AttemptRow.Stamps (row row' : AttemptRow) : Prop :=
  ∃ claimToken heartbeatAt, row' = { row with claimToken, heartbeatAt }

/-- Coordination moved, and nothing was journaled. -/
structure Coordinated (s s' : Store) : Prop where
  journal : s'.journal = s.journal
  queueItems : Table.Matches QueueItemRow.Unclaims s.projections.queueItems
    s'.projections.queueItems
  attempts : Table.Matches AttemptRow.Stamps s.projections.attempts s'.projections.attempts
  waits : s'.projections.waits = s.projections.waits
  deferredPublications : s'.projections.deferredPublications = s.projections.deferredPublications
  effects : s'.projections.effects = s.projections.effects
  locked : Locked s.projections → Locked s'.projections

theorem matches_unclaims_refl (t : Table QueueItemRow.queueItemId) :
    Table.Matches QueueItemRow.Unclaims t t :=
  .refl (fun _ => .inl rfl) t

theorem matches_stamps_refl (t : Table AttemptRow.attemptId) :
    Table.Matches AttemptRow.Stamps t t :=
  .refl (fun _ => ⟨_, _, rfl⟩) t

/-- Claims with their locks, and effect claims, are written freely. -/
theorem coordinated_of_eq {s s' : Store} (hjournal : s'.journal = s.journal)
    (hqueueItems : s'.projections.queueItems = s.projections.queueItems)
    (hattempts : s'.projections.attempts = s.projections.attempts)
    (hwaits : s'.projections.waits = s.projections.waits)
    (hdeferred : s'.projections.deferredPublications = s.projections.deferredPublications)
    (heffects : s'.projections.effects = s.projections.effects)
    (hlocked : Locked s.projections → Locked s'.projections) : Coordinated s s' where
  journal := hjournal
  queueItems := hqueueItems ▸ matches_unclaims_refl _
  attempts := hattempts ▸ matches_stamps_refl _
  waits := hwaits
  deferredPublications := hdeferred
  effects := heffects
  locked := hlocked

theorem Coordinated.refl (s : Store) :
    Coordinated s s := coordinated_of_eq rfl rfl rfl rfl rfl rfl id

/-- Nothing but effect claims is written. -/
theorem coordinated_effectClaims (s : Store) (effectClaims : Table EffectClaimRow.effectKey) :
    Coordinated s { s with projections := { s.projections with effectClaims } } :=
  coordinated_of_eq rfl rfl rfl rfl rfl rfl fun h =>
    h.congr_items rfl rfl fun _ _ row hrow => ⟨row, hrow, rfl⟩

section

variable [Platform]

/-- One change of a store: an event is recorded, or coordination moves. -/
inductive Change (P : Event → Prop) (s s' : Store) : Prop where
  | record {event : Event} (hP : P event) (h : Recorded s event s')
  | coordinate (h : Coordinated s s')

/-- A sequence of changes. -/
abbrev Changes (P : Event → Prop) : Store → Store → Prop := Relation.ReflTransGen (Change P)

variable {P Q : Event → Prop} {s s' s'' : Store}

theorem Changes.mono (hPQ : ∀ event, P event → Q event) (h : Changes P s s') : Changes Q s s' := by
  induction h with
  | refl => exact .refl
  | tail _ hlast ih =>
    cases hlast with
    | record hP h => exact ih.tail (.record (hPQ _ hP) h)
    | coordinate h => exact ih.tail (.coordinate h)

/-- A sequence of changes keeps what recording and coordination keep. -/
theorem Changes.induct {I : Store → Prop}
    (hrecord : ∀ s s' event, P event → I s → Recorded s event s' → I s')
    (hcoordinate : ∀ s s', I s → Coordinated s s' → I s') (h : Changes P s s') (hs : I s) :
    I s' := by
  induction h with
  | refl => exact hs
  | tail _ hlast ih =>
    cases hlast with
    | record hP h => exact hrecord _ _ _ hP ih h
    | coordinate h => exact hcoordinate _ _ ih h

theorem Changes.coordinate (h : Coordinated s s') : Changes P s s' := .single (.coordinate h)

/-- A sequence of recorded events. -/
abbrev Recordings (P : Event → Prop) : Store → Store → Prop :=
  Relation.ReflTransGen fun s s' => ∃ event, P event ∧ Recorded s event s'

theorem Recordings.mono (hPQ : ∀ event, P event → Q event) (h : Recordings P s s') :
    Recordings Q s s' := by
  induction h with
  | refl => exact .refl
  | tail _ hlast ih =>
    obtain ⟨event, hP, hrecorded⟩ := hlast
    exact ih.tail ⟨event, hPQ event hP, hrecorded⟩

/-- Recording events is a sequence of changes. -/
theorem Recordings.changes (hPQ : ∀ event, P event → Q event) (h : Recordings P s s') :
    Changes Q s s' := by
  induction h with
  | refl => exact .refl
  | tail _ hlast ih =>
    obtain ⟨event, hP, hrecorded⟩ := hlast
    exact ih.tail (.record (hPQ event hP) hrecorded)

/-- An append that returned recorded its event at most. -/
theorem recordings_of_appendCandidate (hP : P event)
    (h : appendCandidate same s event = .ok (outcome, s')) : Recordings P s s' := by
  rcases appendCandidate_ok h with ⟨-, rfl, -⟩ | ⟨-, hrecorded⟩
  · exact .refl
  · exact .single ⟨event, hP, hrecorded⟩

theorem changes_of_appendCandidate (hP : P event)
    (h : appendCandidate same s event = .ok (outcome, s')) : Changes P s s' :=
  (recordings_of_appendCandidate hP h).changes fun _ => id

/-- A batch that returned recorded some of its events. -/
theorem recordings_of_appendBatch (hP : ∀ event ∈ events, P event)
    (h : appendBatch same s events = .ok (retained, s')) : Recordings P s s' := by
  induction events generalizing s retained with
  | nil => cases h; exact .refl
  | cons event events ih =>
    simp only [appendBatch, ok_iff, pair_iff] at h
    obtain ⟨outcome, t, hfirst, rest, u, hrest, -, rfl⟩ := h
    exact (recordings_of_appendCandidate (hP event (.head _)) hfirst).trans
      (ih (fun event hevent => hP event (.tail _ hevent)) hrest)

theorem changes_of_appendBatch (hP : ∀ event ∈ events, P event)
    (h : appendBatch same s events = .ok (retained, s')) : Changes P s s' :=
  (recordings_of_appendBatch hP h).changes fun _ => id

/-! ### Events of the runtime -/

/-- A claim is recorded for a bound item only. -/
def BoundClaim (event : Event) : Prop :=
  eventKind event.eventType = .queueItem → ∀ fact, readQueueFact event = .ok fact →
    fact.status = .claimed → fact.targetAgent ≠ ""

/-- A fact about an effect says which delivery it is about. -/
def NumbersDelivery (event : Event) : Prop :=
  eventKind event.eventType = .effect → ∀ fact, readEffectFact event = .ok fact →
    fact.deliveryAttempt ≠ none

/-- An event the runtime writes on its own account or an agent's. -/
structure Internal (event : Event) : Prop where
  source : event.source ≠ "user"
  bound : BoundClaim event
  /-- A queue fact never puts its item back to waiting for a route. -/
  moves : eventKind event.eventType = .queueItem →
    QueueItemStatus.fromStr (lastSegment event.eventType) ≠ some .pending
  numbered : NumbersDelivery event

/-- An event of this kind that declares no lock keys for an item. -/
structure Routine (event : Event) : Prop extends Internal event where
  unlocked : eventKind event.eventType = .queueItem → event.payload.get "lock_keys" = none

theorem boundClaim_of_kind (h : eventKind event.eventType ≠ .queueItem) :
    BoundClaim event := fun hkind => absurd hkind h

omit [Platform] in
theorem numbersDelivery_of_kind (h : eventKind event.eventType ≠ .effect) :
    NumbersDelivery event := fun hkind => absurd hkind h

omit [Platform] in
/-- What is recorded under another kind of key is no fact about an effect. -/
theorem numbersDelivery_of_key {key : String} (h : event.idempotencyKey = some key)
    (hkey : startsWith key "runtime.effect." = false) : NumbersDelivery event := by
  intro _ fact hread
  simp only [readEffectFact, ok_iff] at hread
  obtain ⟨status, -, k, -, _, -, _, -, _, -, _, -, _, -, _, -, _, -, _, -, number, -, _, -, _, -, _,
    hexpected, -⟩ := hread
  rw [h, Option.some.injEq] at hexpected
  rw [hexpected] at hkey
  exact absurd hkey (by rw [startsWith_effectIdempotencyKey]; decide)

/-- A fact whose type names another status is no claim. -/
theorem boundClaim_of_status
    (h : QueueItemStatus.fromStr (lastSegment event.eventType) ≠ some .claimed) :
    BoundClaim event := by
  intro _ fact hread hclaimed
  rw [(readQueueFact_reads hread).status, hclaimed] at h
  exact absurd rfl h

theorem boundClaim_of_targetAgent {agent : String} (hagent : agent ≠ "")
    (h : event.payload.text "target_agent" = some agent) : BoundClaim event := by
  intro _ fact hread _
  rw [(readQueueFact_reads hread).targetAgent] at h
  rwa [Option.some.inj h]

/-- An event the runtime writes that is not about queue items or attempts. -/
structure Aside (event : Event) : Prop where
  source : event.source ≠ "user"
  kind : (eventKind event.eventType).ofWork = false
  numbered : NumbersDelivery event

theorem Aside.routine (h : Aside event) : Routine event := by
  have hkind : eventKind event.eventType ≠ .queueItem := by
    intro hkind
    simpa [hkind, EventKind.ofWork] using h.kind
  have hnone {q : Prop} (hqueue : eventKind event.eventType = .queueItem) : q := absurd hqueue hkind
  exact ⟨⟨h.source, boundClaim_of_kind hkind, hnone, h.numbered⟩, hnone⟩

/-! ### Coordination -/

section

omit [Platform]

theorem Coordinated.trans (h : Coordinated s s') (h' : Coordinated s' s'') : Coordinated s s'' where
  journal := h'.journal.trans h.journal
  queueItems := h.queueItems.trans h'.queueItems fun a b c hab hbc => by
    rcases hab with rfl | ⟨hstatus, rfl⟩
    · exact hbc
    · rcases hbc with rfl | ⟨hclaimed, -⟩
      · exact .inr ⟨hstatus, rfl⟩
      · cases hclaimed
  attempts := h.attempts.trans h'.attempts fun a b c hab hbc => by
    obtain ⟨_, _, rfl⟩ := hab
    obtain ⟨_, _, rfl⟩ := hbc
    exact ⟨_, _, rfl⟩
  waits := h'.waits.trans h.waits
  deferredPublications := h'.deferredPublications.trans h.deferredPublications
  effects := h'.effects.trans h.effects
  locked := h'.locked ∘ h.locked

theorem coordinated_deleteClaimsWhere (s : Store) (dead : QueueClaimRow → Bool) :
    Coordinated s { s with projections := s.projections.deleteClaimsWhere dead } :=
  coordinated_of_eq rfl rfl rfl rfl rfl rfl fun h => h.deleteClaimsWhere dead

theorem coordinated_unclaimItems (s : Store) (lost : QueueItemRow → Bool) :
    Coordinated s { s with projections := s.projections.unclaimItems lost } where
  journal := rfl
  queueItems := by
    refine (matches_unclaims_refl _).updateWhere_right ?_ fun a b hab hlost => ?_
    · exact fun _ => rfl
    simp only [Bool.and_eq_true, decide_eq_true_eq] at hlost
    rcases hab with rfl | ⟨-, rfl⟩
    · exact .inr ⟨hlost.1, rfl⟩
    · cases hlost.1
  attempts := matches_stamps_refl _
  waits := rfl
  deferredPublications := rfl
  effects := rfl
  locked h := h.unclaimItems lost

theorem coordinated_reconcileExpired (s : Store) (nowMs : Int) :
    Coordinated s { s with projections := reconcileExpired s.projections nowMs } :=
  (coordinated_unclaimItems s _).trans (coordinated_deleteClaimsWhere _ _)

theorem coordinated_fenceAttempt (s : Store) (attemptId token : String) (nowMs : Int) :
    Coordinated s { s with projections := s.projections.fenceAttempt attemptId token nowMs } where
  journal := rfl
  queueItems := matches_unclaims_refl _
  attempts := by
    refine (matches_stamps_refl _).updateWhere_right ?_ fun a b hab _ => ?_
    · exact fun _ => rfl
    obtain ⟨_, _, rfl⟩ := hab
    exact ⟨_, _, rfl⟩
  waits := rfl
  deferredPublications := rfl
  effects := rfl
  locked h := h.congr_items rfl rfl fun _ _ row hrow => ⟨row, hrow, rfl⟩

end

end

end Zeta
