import ZetaRuntime.Replay.Agreement
import ZetaRuntime.Run.Decomposition

/-!
# The journal as the history of a store

What a rebuild reconstructs is what the live tables say, up to coordination. `Faithful` states this
about a store: whatever its journal replays to agrees with its tables. It says nothing about whether
replay succeeds. Replay may reject a journal, and then there is nothing to compare.

The comparison is stated for replays against a longer journal, since that is what a later replay of
the same entries sees. It is an invariant of runs in which nobody forges lifecycle facts: recording
an event is the simulation step of `Agree`, coordination moves only what `Agree` leaves open, and a
rebuild puts the store where any other replay agrees with it.
-/

namespace Zeta

open Outcome

variable [Platform] {s s' : Store}

variable {event : Event} {P : Event → Prop} {journal : List JournalEntry}
  {live p replayed : Projections}

/-! ### Recording -/

omit [Platform] in
theorem loadEntries_ok_iff {entries : List JournalEntry} :
    loadEntries journal = .ok entries ↔
      entries = journal ∧ ∀ entry ∈ journal, readable entry.payloadBytes = true := by
  induction journal generalizing entries with
  | nil =>
    simp only [loadEntries, Except.ok.injEq, List.not_mem_nil, false_imp_iff, implies_true,
      and_true]
    exact eq_comm
  | cons entry journal ih =>
    simp only [loadEntries, intoEntry, ok_iff, ih, List.forall_mem_cons]
    constructor
    · rintro ⟨_, ⟨_, hread, rfl⟩, _, ⟨rfl, hrest⟩, rfl⟩
      exact ⟨rfl, hread, hrest⟩
    · rintro ⟨rfl, hread, hrest⟩
      exact ⟨entry, ⟨(), hread, rfl⟩, journal, ⟨rfl, hrest⟩, rfl⟩

/-- What is recorded is journaled in the form in which it is read back. -/
theorem Recorded.entry (h : Recorded s event s') :
    ∃ entry, JournalEntry.new event (nextCursor s.journal) (head s.journal) = .ok entry ∧
      s'.journal = s.journal ++ [entry.stored] ∧ ReadsBack entry.event entry.stored.event ∧
      entry.event = { event with cursor := some (nextCursor s.journal) } ∧
      indexEvent s'.journal entry.event s.projections = .ok s'.projections := by
  obtain ⟨projected, ⟨-, -, -, entry, hnew, rfl, hjournal⟩, hindex⟩ := h
  obtain ⟨-, -, bytes, hbytes, address, -, rfl⟩ := JournalEntry.new_ok_iff.mp hnew
  exact ⟨_, hnew, hjournal, ⟨bytes, hbytes, rfl⟩, rfl, hindex⟩

/-- An entry holds an event in the form in which it is read back. -/
def JournalEntry.Holds (entry : JournalEntry) (event : Event) : Prop :=
  entry.event.payload = entry.payloadBytes ∧
    ∃ cursor, ReadsBack { event with cursor := some cursor } entry.event

theorem Recorded.holds (h : Recorded s event s') :
    ∃ entry : JournalEntry, s'.journal = s.journal ++ [entry] ∧ entry.Holds event := by
  obtain ⟨entry, -, hjournal, hback, hevent, -⟩ := h.entry
  exact ⟨entry.stored, hjournal, rfl, nextCursor s.journal, hevent ▸ hback⟩

/-- Changes add entries that hold what was recorded. -/
theorem Changes.added_spec (h : Changes P s s') :
    ∃ entries, s'.journal = s.journal ++ entries ∧
      ∀ entry ∈ entries, ∃ event, P event ∧ entry.Holds event := by
  induction h with
  | refl => exact ⟨[], by simp, by simp⟩
  | tail _ hlast ih =>
    obtain ⟨entries, hjournal, hentries⟩ := ih
    rcases hlast with ⟨hP, hrecorded⟩ | hcoordinated
    · obtain ⟨entry, happended, hholds⟩ := hrecorded.holds
      refine ⟨entries ++ [entry], by rw [happended, hjournal, List.append_assoc], ?_⟩
      intro added hadded
      rcases List.mem_append.mp hadded with hadded | hadded
      · exact hentries added hadded
      · exact ⟨_, hP, List.mem_singleton.mp hadded ▸ hholds⟩
    · exact ⟨entries, hcoordinated.journal.trans hjournal, hentries⟩

/-- Recording keeps a journal sound. -/
theorem Recorded.sound [LawfulFloatText] (h : Recorded s event s') (hs : Sound s.journal) :
    Sound s'.journal := by
  obtain ⟨projected, ⟨hid, hkey, -, entry, hnew, -, hjournal⟩, -⟩ := h
  rw [hjournal]
  refine hs.append hnew ?_ ?_ ?_
  · intro last hlast previous hprevious
    have hlast : s.journal.getLast? = some last := hlast
    have hprevious : last.event.cursor = some previous := hprevious
    simp [nextCursor, hlast, JournalEntry.cursor, hprevious]
  · simpa using hid
  · intro key hkey'
    simpa using hkey key hkey'

omit [Platform] in
/-- Cursors are given out in order. -/
def Ordered (journal : List JournalEntry) : Prop :=
  ∀ entry ∈ journal, entry.cursor < nextCursor journal

theorem Recorded.ordered (h : Recorded s event s') (hs : Ordered s.journal) :
    Ordered s'.journal := by
  obtain ⟨entry, -, hjournal, hback, hentry, -⟩ := h.entry
  have hcursor : entry.stored.cursor = nextCursor s.journal := by
    rw [JournalEntry.cursor, hback.cursor_eq, hentry]
    rfl
  have hnext : nextCursor s'.journal = nextCursor s.journal + 1 := by
    rw [nextCursor, hjournal, List.getLast?_concat, Option.map_some, Option.getD_some, hcursor]
  intro other hother
  rw [hjournal, List.mem_append, List.mem_singleton] at hother
  rw [hnext]
  rcases hother with hold | rfl
  · exact (hs other hold).trans (Nat.lt_succ_self _)
  · rw [hcursor]
    exact Nat.lt_succ_self _

/-! ### Faithful stores -/

/-- Whatever the journal replays to agrees with the tables. -/
def Faithful (s : Store) : Prop :=
  ∀ later p, replay (s.journal ++ later) s.journal = .ok p → Agree s.projections p

omit [Platform] in
/-- A replayed claim is not claimed again. -/
theorem not_applies_of_claimed {fact : QueueFact} {p' : Projections} {row : QueueItemRow}
    (hfact : fact.status = .claimed) (hrow : p.queueItems.find? fact.queueItemId = some row)
    (hstatus : row.status = .claimed) : ¬fact.Applies journal p p' := by
  rintro ⟨closed, hclosed, -, hallowed, -⟩
  rw [find?_self_of_closePendingRouteBarrier hclosed, hrow] at hallowed
  rcases hallowed with hexception | hedge
  · simp [pendingException, hstatus] at hexception
  · simp [hstatus, hfact, QueueItemStatus.canTransition] at hedge

/-- Recording keeps a store faithful. -/
theorem Recorded.faithful [LawfulFloatText] (h : Recorded s event s') (hbound : BoundClaim event)
    (hs : Faithful s) : Faithful s' := by
  obtain ⟨entry, -, hjournal, hback, hentry, hindex⟩ := h.entry
  intro later p hreplay
  rw [hjournal, replay, foldOk_append, bind_ok_iff] at hreplay
  obtain ⟨p₀, hp₀, hlast⟩ := hreplay
  rw [List.append_assoc] at hp₀
  have hagree := hs _ p₀ hp₀
  simp only [foldOk_cons, foldOk_nil, bind_ok_iff, Except.ok.injEq, exists_eq_right] at hlast
  have hbound' : ∀ fact, eventKind entry.event.eventType = .queueItem →
      readQueueFact entry.event = .ok fact → fact.status = .claimed → fact.targetAgent ≠ "" := by
    rw [hentry]
    exact fun fact hkind => hbound hkind fact
  rw [← hjournal] at hlast
  rcases hagree.indexEvent hback hindex hbound' later with
    ⟨replayed, hreplayed, hagree'⟩ | ⟨hkind, fact, hread, hclaimed, row, hrow, hstatus⟩
  · rw [hlast] at hreplayed
    cases hreplayed
    exact hagree'
  · -- The replay went through, so this was not a second claim.
    simp only [indexEvent, hback.eventType_eq, hkind, indexQueueItem_ok_iff, hback.readQueueFact_eq]
      at hlast
    obtain ⟨fact', hread', happlies⟩ := hlast
    obtain rfl : fact = fact' := by
      rw [hread] at hread'
      exact Except.ok.inj hread'
    exact absurd happlies (not_applies_of_claimed hclaimed hrow hstatus)

/-- Coordination moves only what agreement leaves open. -/
theorem Agree.coordinated (h : Agree s.projections p) (hs : Coordinated s s') :
    Agree s'.projections p where
  queueItems := hs.queueItems.symm.trans h.queueItems fun a b c hab hbc => by
    rcases hab with rfl | ⟨hclaimed, rfl⟩
    · exact hbc
    · refine ⟨by rw [hbc.rest], .inr ⟨rfl, ?_⟩, hbc.bound⟩
      rcases hbc.status with heq | ⟨havailable, -⟩
      · rw [← heq, hclaimed]
      · rw [hclaimed] at havailable
        cases havailable
  attempts := hs.attempts.symm.trans h.attempts fun a b c hab hbc => by
    obtain ⟨_, _, rfl⟩ := hab
    obtain ⟨_, _, rfl⟩ := hbc
    exact ⟨_, _, rfl⟩
  waits := hs.waits ▸ h.waits
  deferredPublications := hs.deferredPublications ▸ h.deferredPublications
  effects := hs.effects ▸ h.effects
  noClaims := h.noClaims
  noLocks := h.noLocks
  noEffectClaims := h.noEffectClaims

theorem Coordinated.faithful (h : Coordinated s s') (hs : Faithful s) : Faithful s' := by
  intro later p hreplay
  rw [h.journal] at hreplay
  exact (hs later p hreplay).coordinated h

/-! ### Rebuilding -/

/-- A rebuild replays the journal, if all of it can be read, and recovers what was claimed. -/
theorem rebuildProjections_ok {n : ℕ} (h : rebuildProjections s = .ok (n, s')) :
    ∃ p, replay s.journal s.journal = .ok p ∧ s' = { s with projections := p.recover } := by
  simp only [rebuildProjections, ok_iff, loadEntries_ok_iff, Prod.mk.injEq] at h
  obtain ⟨_, ⟨rfl, -⟩, _, -, p, hreplay, -, rfl⟩ := h
  exact ⟨p, hreplay, rfl⟩

/-- **One operation.** A property of stores is kept by an operation if a rebuild keeps it, and the
operation does when it is not a rebuild. -/
theorem apply_induction {Q : Store → Prop} {op : Op} (hs : Q s)
    (hrebuild : ∀ p, replay s.journal s.journal = .ok p → Q { s with projections := p.recover })
    (hother : op ≠ .rebuild → Q (apply s op)) : Q (apply s op) := by
  by_cases hop : op = .rebuild
  · subst hop
    change Q (commit s (rebuildProjections s))
    rcases commit_cases s (rebuildProjections s) with heq | ⟨n, hok⟩
    · rwa [heq]
    · obtain ⟨p, hreplay, heq⟩ := rebuildProjections_ok hok
      rw [heq]
      exact hrebuild p hreplay
  · exact hother hop

omit [Platform] in
/-- The row of a live item after a rebuild. -/
def QueueItemRow.recovered (row : QueueItemRow) : QueueItemRow :=
  if row.status = .claimed then row.recover else row

/-- Rebuilt tables, compared with the live tables before: a claimed row is claimable again, tokens
and heartbeats are gone, objects are in canonical form, and there is no coordination. -/
structure Recovered (live rebuilt : Projections) : Prop where
  queueItems : Table.Matches (fun row row' => row' = row.recovered)
    live.queueItems rebuilt.queueItems
  attempts : Table.Matches
    (fun row row' => row' = { row with claimToken := none, heartbeatAt := none })
    live.attempts rebuilt.attempts
  waits : Table.Matches (fun row row' => ∃ fields, canonicalPayload row.fields = .ok fields ∧
    row' = { row with fields }) live.waits rebuilt.waits
  deferredPublications : Table.Matches (fun row row' => ∃ payload,
    canonicalPayload row.payload = .ok payload ∧ row' = { row with payload })
    live.deferredPublications rebuilt.deferredPublications
  effects : Table.Matches
    (fun row row' => ∃ params result, canonicalPayload row.params = .ok params ∧
    Option.Rel (fun a b => canonicalPayload a = .ok b) row.result result ∧
    row' = { row with params, result }) live.effects rebuilt.effects
  noClaims : rebuilt.queueClaims = .empty
  noLocks : rebuilt.locks = .empty
  noEffectClaims : rebuilt.effectClaims = .empty

omit [Platform] in
/-- Agreeing rows are the same row after a rebuild. -/
theorem QueueItemRow.Agrees.recovered {live replayed : QueueItemRow} (h : live.Agrees replayed) :
    (if replayed.status = .claimed then replayed.recover else replayed) = live.recovered := by
  have hrest := h.rest
  rcases h.status with heq | ⟨havailable, hclaimed⟩
  · rw [heq] at hrest
    rw [show live = replayed from hrest]
    rfl
  · rw [if_pos hclaimed, QueueItemRow.recover, if_neg (h.bound hclaimed), QueueItemRow.recovered,
      if_neg (by simp [havailable]), hrest, havailable]

/-- What a rebuild leaves of the live tables. -/
theorem Agree.recovered (h : Agree live replayed) : Recovered live replayed.recover where
  queueItems := by
    refine List.forall₂_map_right_iff.mpr (h.queueItems.imp fun a b hab => ?_)
    simpa using hab.recovered
  attempts := by
    refine List.forall₂_map_right_iff.mpr (h.attempts.imp fun a b hab => ?_)
    obtain ⟨_, _, rfl⟩ := hab
    rfl
  waits := h.waits.imp fun a b hab => ⟨b.fields, hab.fields, by rw [hab.rest]⟩
  deferredPublications := by
    refine List.forall₂_map_right_iff.mpr (h.deferredPublications.imp fun a b hab => ?_)
    refine ⟨b.payload, hab.payload, ?_⟩
    rw [if_neg (by simpa using hab.unclaimed), hab.rest]
  effects := h.effects.imp fun a b hab =>
    ⟨b.params, b.result, hab.params, hab.result, by rw [hab.rest]⟩
  noClaims := h.noClaims
  noLocks := h.noLocks
  noEffectClaims := h.noEffectClaims

/-- Rebuilt tables agree with every replay the live tables agree with. -/
theorem Recovered.agree [LawfulFloatText] {rebuilt : Projections} (h : Recovered live rebuilt)
    (hagree : Agree live replayed) : Agree rebuilt replayed where
  queueItems := h.queueItems.symm.trans hagree.queueItems fun a b c hab hbc => by
    subst hab
    unfold QueueItemRow.recovered
    split
    · rename_i hclaimed
      have hreplayed : c.status = .claimed := by
        rcases hbc.status with heq | ⟨-, hc⟩
        · rw [← heq, hclaimed]
        · exact hc
      have htarget : b.targetAgent ≠ "" := hbc.targetAgent_eq ▸ hbc.bound hreplayed
      rw [QueueItemRow.recover, if_neg htarget]
      exact ⟨by rw [hbc.rest], .inr ⟨rfl, hreplayed⟩, hbc.bound⟩
    · exact hbc
  attempts := h.attempts.symm.trans hagree.attempts fun a b c hab hbc => by
    subst hab
    obtain ⟨_, _, rfl⟩ := hbc
    exact ⟨_, _, rfl⟩
  waits := h.waits.symm.trans hagree.waits fun a b c hab hbc => by
    obtain ⟨fields, hfields, rfl⟩ := hab
    obtain rfl : fields = c.fields := Except.ok.inj (hfields.symm.trans hbc.fields)
    exact ⟨canonicalPayload_idem hfields, by rw [hbc.rest]⟩
  deferredPublications := h.deferredPublications.symm.trans hagree.deferredPublications
    fun a b c hab hbc => by
      obtain ⟨payload, hpayload, rfl⟩ := hab
      obtain rfl : payload = c.payload := Except.ok.inj (hpayload.symm.trans hbc.payload)
      exact ⟨canonicalPayload_idem hpayload, by rw [hbc.rest], hbc.unclaimed⟩
  effects := h.effects.symm.trans hagree.effects fun a b c hab hbc => by
    obtain ⟨params, result, hparams, hresult, rfl⟩ := hab
    obtain rfl : params = c.params := Except.ok.inj (hparams.symm.trans hbc.params)
    refine ⟨canonicalPayload_idem hparams, ?_, by rw [hbc.rest]⟩
    have hcresult := hbc.result
    generalize b.result = r, c.result = r' at hresult hcresult
    cases hresult with
    | none => exact hcresult
    | some hab =>
      cases hcresult with
      | some hbc =>
        rw [hab] at hbc
        cases hbc
        exact .some (canonicalPayload_idem hab)
  noClaims := hagree.noClaims
  noLocks := hagree.noLocks
  noEffectClaims := hagree.noEffectClaims

/-! ### Runs -/

/-- What holds of a store in every authentic run. -/
structure History (s : Store) : Prop where
  sound : Sound s.journal
  ordered : Ordered s.journal
  unreserved : s.projections.Unreserved
  faithful : Faithful s

theorem agree_empty : Agree .empty .empty :=
  ⟨.nil, .nil, .nil, .nil, .nil, rfl, rfl, rfl⟩

theorem history_empty : History .empty where
  sound := sound_nil
  ordered := by simp [Ordered, Store.empty]
  unreserved := unreserved_empty
  faithful later p hreplay := by
    cases hreplay
    exact agree_empty

/-- An event an authentic operation records is no claim on an unbound item. -/
theorem Op.Records.bound {op : Op} (hop : op.Authentic) (h : op.Records event) :
    BoundClaim event := by
  cases op with
  | appendTrusted =>
    obtain rfl := h
    refine boundClaim_of_kind fun hkind => ?_
    have hlifecycle : isLifecycleType event.eventType = false := hop
    simp [isLifecycleType, hkind] at hlifecycle
  | ingest =>
    refine boundClaim_of_kind fun hkind => ?_
    rcases eventKind_of_unreserved h.2 with hkind' | hkind' <;> simp [hkind'] at hkind
  | submitMessage =>
    rcases h with h | rfl
    · exact h.bound
    · exact boundClaim_of_kind (by simp only [sessionMessageRequestedEvent]; decide)
  | route => exact Internal.bound h
  | _ => exact (Routine.toInternal h).bound

/-- What a rebuild gives is the live tables, recovered. -/
theorem History.recovered (hs : History s) {p : Projections}
    (hreplay : replay s.journal s.journal = .ok p) : Recovered s.projections p.recover :=
  (hs.faithful [] p (by rwa [List.append_nil])).recovered

variable [LawfulFloatText]

theorem Changes.history (hP : ∀ event, P event → BoundClaim event) (h : Changes P s s')
    (hs : History s) : History s' := by
  refine h.induct (fun s s' event hevent hs hrecorded => ?_) (fun s s' hs hcoordinated => ?_) hs
  · exact ⟨hrecorded.sound hs.sound, hrecorded.ordered hs.ordered,
      Changes.unreserved (.single (.record hevent hrecorded)) hs.unreserved,
      hrecorded.faithful (hP event hevent) hs.faithful⟩
  · exact ⟨hcoordinated.journal ▸ hs.sound, hcoordinated.journal ▸ hs.ordered,
      Changes.unreserved (P := P) (.single (.coordinate hcoordinated)) hs.unreserved,
      hcoordinated.faithful hs.faithful⟩

theorem History.rebuilt (hs : History s) {p : Projections}
    (hreplay : replay s.journal s.journal = .ok p) :
    History { s with projections := p.recover } := by
  have hrecovered := hs.recovered hreplay
  refine ⟨hs.sound, hs.ordered, ?_, fun later p' hreplay' =>
    hrecovered.agree (hs.faithful later p' hreplay')⟩
  refine (hrecovered.deferredPublications.forall_mem_iff fun a b hab => ?_).mp hs.unreserved
  obtain ⟨_, -, rfl⟩ := hab
  rfl

/-- Every authentic operation keeps the history of a store. -/
theorem History.apply (hs : History s) {op : Op} (hop : op.Authentic) : History (apply s op) := by
  refine apply_induction hs (fun _ => hs.rebuilt) fun hrebuild => ?_
  exact (Op.changes hs.unreserved hop hrebuild).history (fun _ => Op.Records.bound hop) hs

/-- A store has its history after every authentic run. -/
theorem History.applyAll (hs : History s) {ops : List Op} (hops : ∀ op ∈ ops, op.Authentic) :
    History (applyAll s ops) := by
  induction ops generalizing s with
  | nil => exact hs
  | cons op ops ih =>
    exact ih (hs.apply (hops op (.head _))) fun op hop => hops op (.tail _ hop)

end Zeta
