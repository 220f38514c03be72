import ZetaRuntime.Dispatch.Journal

/-!
# Reading the journal, and the journal in memory

The journal can be read by id, by filter, by causal parent and along the chain of causes. There are
two journals: the one in the database, which decodes every row it returns, and a reference journal
in memory, which keeps the entries as they were appended and finds them through two maps. This
module has both, and the calls a client can make to either.

A walk along causes ends at an event without a cause, at a cause that is not retained, or at an
event it has seen. The loop is given a number of steps here, and says so when it runs out; a walk
over a journal needs one step more than there are entries (`chainFrom_of_lt`).
-/

namespace Zeta

open Outcome

/-- The conditions of a query. -/
structure EventFilter where
  eventType : Option String
  eventTypePrefix : Option String
  sessionId : Option String
  runId : Option String
  turnId : Option String
  causedBy : Option String
  afterCursor : Option ℕ
  limit : Option ℕ
  newestFirst : Bool
  deriving DecidableEq, Repr

/-- The filter without conditions. -/
def EventFilter.default : EventFilter := ⟨none, none, none, none, none, none, none, none, false⟩

/-- Whether an event comes after a cursor. -/
def cursorAfter (after : ℕ) : Option ℕ → Bool
  | some cursor => after < cursor
  | none => false

/-- Whether an event meets every condition that is set. -/
def eventMatches (event : Event) (filter : EventFilter) : Bool :=
  (filter.eventType.all fun expected => event.eventType = expected) &&
  (filter.eventTypePrefix.all fun start => startsWith event.eventType start) &&
  (filter.sessionId.all fun expected => event.sessionId = some expected) &&
  (filter.runId.all fun expected => event.runId = some expected) &&
  (filter.turnId.all fun expected => event.turnId = some expected) &&
  (filter.causedBy.all fun expected => event.causedBy = some expected) &&
  (filter.afterCursor.all fun after => cursorAfter after event.cursor)

/-- The query for the direct effects of an event. -/
def childrenFilter (eventId : String) (limit : Option ℕ) : EventFilter :=
  { EventFilter.default with causedBy := some eventId, limit }

/-- Follow causes from an event, newest first. Nothing is returned if the steps run out. -/
def chainFrom {ε : Type} (get : String → Except ε (Option Event)) :
    ℕ → List String → Option Event → Except ε (Option (List Event))
  | 0, _, _ => .ok none
  | _ + 1, _, none => .ok (some [])
  | steps + 1, seen, some event =>
    if event.id ∈ seen then .ok (some [])
    else match event.causedBy with
      | none => .ok (some [event])
      | some parent => do
        let next ← get parent
        let rest ← chainFrom get steps (event.id :: seen) next
        return rest.map (event :: ·)

/-! ### The database -/

/-- One durable event by its id. -/
def getEvent (s : Store) (eventId : String) : Except DispatchError (Option Event) := do
  let entry ← entryByEventId s.journal eventId
  return entry.map (·.event)

/-- The entries of the journal by cursor, in one of the two orders. -/
def loadOrdered (journal : List JournalEntry) (newestFirst : Bool) :
    Except DispatchError (List JournalEntry) :=
  loadEntries (if newestFirst then journal.reverse else journal)

/-- Collect matching events until the limit is reached. -/
def collectMatching (filter : EventFilter) : List JournalEntry → List Event → List Event
  | [], events => events
  | entry :: entries, events =>
    if eventMatches entry.event filter then
      if filter.limit = some (events.length + 1) then events ++ [entry.event]
      else collectMatching filter entries (events ++ [entry.event])
    else collectMatching filter entries events

/-- The events that match a filter. -/
def listEvents (s : Store) (filter : EventFilter) : Except DispatchError (List Event) :=
  if filter.limit = some 0 then .ok []
  else do
    let entries ← loadOrdered s.journal filter.newestFirst
    return collectMatching filter entries []

/-- The direct effects of an event. -/
def children (s : Store) (eventId : String) (limit : Option ℕ) :
    Except DispatchError (List Event) :=
  listEvents s (childrenFilter eventId limit)

/-- The chain of causes of an event, oldest first. -/
def causalChain (s : Store) (eventId : String) : Except DispatchError (Option (List Event)) := do
  let current ← getEvent s eventId
  let chain ← chainFrom (getEvent s) (s.journal.length + 1) [] current
  return chain.map List.reverse

/-! ### The reference journal -/

/-- A journal in memory. -/
structure MemoryJournal where
  entries : List JournalEntry
  byId : String → Option ℕ
  byIdempotencyKey : String → Option ℕ
  nextCursor : ℕ
  head : Option Hash

namespace MemoryJournal

/-- The empty journal. -/
def new : MemoryJournal := ⟨[], fun _ => none, fun _ => none, 1, none⟩

/-- The entry at an index that a map gave. -/
def entryAt (j : MemoryJournal) (index : Option ℕ) : Option JournalEntry :=
  index.bind fun i => j.entries[i]?

/-- The largest unsigned 64-bit integer. -/
def u64Max : ℕ := 2 ^ 64 - 1

section

variable [Platform]

/-- Insert an event after the last entry. -/
def insert (j : MemoryJournal) (event : Event) :
    Except AppendError (AppendOutcome × MemoryJournal) := do
  ensure (j.nextCursor < u64Max) .cursorExhausted
  let entry ← JournalEntry.new event j.nextCursor j.head
  let index := j.entries.length
  return (⟨entry.event, true⟩, {
    entries := j.entries ++ [entry]
    byId := Function.update j.byId entry.event.id (some index)
    byIdempotencyKey := match entry.event.idempotencyKey with
      | some key => Function.update j.byIdempotencyKey key (some index)
      | none => j.byIdempotencyKey
    nextCursor := j.nextCursor + 1
    head := some entry.entryAddress })

/-- The entry with the key of an event, if the event carries one. -/
def entryForKey (j : MemoryJournal) (key : Option String) : Option JournalEntry :=
  key.bind fun key => j.entryAt (j.byIdempotencyKey key)

/-- Append an event, or resolve its id-first duplicate. -/
def append (j : MemoryJournal) (event : Event) :
    Except AppendError (AppendOutcome × MemoryJournal) := do
  validateIdentityFields event
  match j.entryAt (j.byId event.id) with
  | some duplicate => do
    let payload ← (canonicalPayload event.payload).mapError .payloadEncoding
    ensure (payloadAddress payload = duplicate.payloadAddress) .duplicateIdPayloadMismatch
    return (⟨duplicate.event, false⟩, j)
  | none =>
    match j.entryForKey event.idempotencyKey with
    | some duplicate => .ok (⟨duplicate.event, false⟩, j)
    | none => j.insert event

end

/-- One event by its id. -/
def get (j : MemoryJournal) (eventId : String) : Option Event :=
  (j.entryAt (j.byId eventId)).map (·.event)

/-- The events that match a filter. -/
def listEvents (j : MemoryJournal) (filter : EventFilter) : List Event :=
  let entries := if filter.newestFirst then j.entries.reverse else j.entries
  let events := (entries.map (·.event)).filter fun event => eventMatches event filter
  match filter.limit with
  | some limit => events.take limit
  | none => events

/-- The direct effects of an event. -/
def children (j : MemoryJournal) (eventId : String) (limit : Option ℕ) : List Event :=
  j.listEvents (childrenFilter eventId limit)

/-- The chain of causes of an event, oldest first. -/
def causalChain (j : MemoryJournal) (eventId : String) :
    Except DispatchError (Option (List Event)) := do
  let chain ← chainFrom (fun id => .ok (j.get id)) (j.entries.length + 1) [] (j.get eventId)
  return chain.map List.reverse

end MemoryJournal

/-! ### Calls -/

/-- What a client asks of a journal. -/
inductive JournalCall where
  | append (event : Event)
  | get (eventId : String)
  | listEvents (filter : EventFilter)
  | children (eventId : String) (limit : Option ℕ)
  | causalChain (eventId : String)
  | head

/-- What a client is told. -/
inductive JournalReply where
  | appended (outcome : AppendOutcome)
  | event (event : Option Event)
  | events (events : List Event)
  /-- A chain of causes, or that the walk did not end. -/
  | chain (events : Option (List Event))
  | head (head : Option Hash)
  | failed (error : DispatchError)
  deriving DecidableEq, Repr

/-- The reply to a query that can fail. -/
def JournalReply.ofQuery {α : Type} (reply : α → JournalReply) : Except DispatchError α →
    JournalReply
  | .ok a => reply a
  | .error error => .failed error

section

variable [Platform]

/-- A call to the database. -/
def sqliteCall (s : Store) : JournalCall → JournalReply × Store
  | .append event =>
    match ingestEvent s event with
    | .ok (outcome, s') => (.appended outcome, s')
    | .error error => (.failed error, s)
  | .get eventId => (.ofQuery .event (getEvent s eventId), s)
  | .listEvents filter => (.ofQuery .events (listEvents s filter), s)
  | .children eventId limit => (.ofQuery .events (children s eventId limit), s)
  | .causalChain eventId => (.ofQuery .chain (causalChain s eventId), s)
  | .head => (.head (head s.journal), s)

/-- A call to the reference journal. -/
def memoryCall (j : MemoryJournal) : JournalCall → JournalReply × MemoryJournal
  | .append event =>
    match j.append event with
    | .ok (outcome, j') => (.appended outcome, j')
    | .error error => (.failed (.append error), j)
  | .get eventId => (.event (j.get eventId), j)
  | .listEvents filter => (.events (j.listEvents filter), j)
  | .children eventId limit => (.events (j.children eventId limit), j)
  | .causalChain eventId => (.ofQuery .chain (j.causalChain eventId), j)
  | .head => (.head j.head, j)

/-- The replies to a sequence of calls. -/
def replies {σ : Type} (call : σ → JournalCall → JournalReply × σ) : σ → List JournalCall →
    List JournalReply
  | _, [] => []
  | s, c :: cs => (call s c).1 :: replies call (call s c).2 cs

end

end Zeta
