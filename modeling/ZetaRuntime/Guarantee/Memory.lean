import Mathlib.Data.List.Perm.Subperm
import ZetaRuntime.Dispatch.Queries
import ZetaRuntime.Replay.History
import ZetaRuntime.Guarantee.Encoding

/-!
# The database journal and the reference journal

A client that appends ordinary events and reads them back is told the same by the database and by
the reference journal, as long as three things hold of what it appends: no id, type or source begins
with the character zero, payloads are nested less than 128 levels deep, and there are less than `2 ^
63` events. The reference journal has none of these limits.

The two are related entry by entry (`Simulates`). The database keeps the canonical form of a payload
and the reference journal the form it was given, so replies are compared up to the spelling of
payloads.

## Main definitions

* `Simulates` — a reference journal and a database in the same state
* `JournalCall.Fits` — a call whose event both can hold

## Main results

* `Simulates.call` — one call
* `replies_same` — every sequence of calls
-/

namespace Zeta

open Outcome

variable {event' : Event} {entry : JournalEntry} {entries : List JournalEntry} {name : String}
  {index : String → Option ℕ}

/-! ### Queries over lists -/

/-- The loop that stops at the limit collects the first matching events. -/
theorem collectMatching_eq (filter : EventFilter) (entries : List JournalEntry)
    (events : List Event) (hlimit : ∀ limit ∈ filter.limit, events.length < limit) :
    collectMatching filter entries events = events ++
      match filter.limit with
      | some limit => (((entries.map (·.event)).filter fun event => eventMatches event filter).take
          (limit - events.length))
      | none => (entries.map (·.event)).filter fun event => eventMatches event filter := by
  induction entries generalizing events with
  | nil => cases filter.limit <;> simp [collectMatching]
  | cons entry entries ih =>
    rw [collectMatching, List.map_cons, List.filter_cons]
    split
    · cases hfilter : filter.limit with
      | none =>
        rw [if_neg (by simp), ih _ (by simp [hfilter])]
        simp [hfilter]
      | some limit =>
        have hlt : events.length < limit := hlimit limit hfilter
        by_cases hlast : limit = events.length + 1
        · subst hlast
          simp
        · have hlt' : events.length + 1 < limit := by omega
          have hroom : limit - events.length = (limit - (events.length + 1)) + 1 := by omega
          rw [if_neg (by simpa using hlast), ih _ (by simpa [hfilter] using hlt')]
          simp [hfilter, hroom]
    · exact ih events hlimit

section Chain

variable {ε : Type}

/-- A walk along causes ends, if it has more steps left than there are events it has not seen. -/
theorem chainFrom_of_lt {get : String → Option Event} {ids : List String}
    (hget : ∀ id, ∀ event ∈ get id, event.id ∈ ids) :
    ∀ (steps : ℕ) (seen : List String) (current : Option Event), seen.Nodup → seen ⊆ ids →
      (∀ event ∈ current, event.id ∈ ids) → ids.length < steps + seen.length →
      ∃ events, chainFrom (fun id => (.ok (get id) : Except ε _)) steps seen current =
        .ok (some events) := by
  intro steps
  induction steps with
  | zero =>
    intro seen current hnodup hsubset _ hlt
    have hle := (List.subperm_of_subset hnodup hsubset).length_le
    omega
  | succ steps ih =>
    intro seen current hnodup hsubset hcurrent hlt
    cases current with
    | none => exact ⟨[], rfl⟩
    | some event =>
      rw [chainFrom]
      by_cases hseen : event.id ∈ seen
      · exact ⟨[], if_pos hseen⟩
      · rw [if_neg hseen]
        cases event.causedBy with
        | none => exact ⟨[event], rfl⟩
        | some parent =>
          obtain ⟨events, hevents⟩ := ih (event.id :: seen) (get parent)
            (List.nodup_cons.mpr ⟨hseen, hnodup⟩)
            (List.cons_subset.mpr ⟨hcurrent event rfl, hsubset⟩) (hget parent)
            (by simp only [List.length_cons]; omega)
          exact ⟨event :: events, by simp only [ok_bind, hevents]; rfl⟩

end Chain

section

variable [Platform]

/-! ### Equality up to the spelling of payloads -/

/-- Two events that differ at most in how their payloads are spelled. -/
structure Event.Respelled (event event' : Event) : Prop where
  payload : canonicalPayload event.payload = canonicalPayload event'.payload
  fields : event' = { event with payload := event'.payload }

theorem Event.Respelled.refl (event : Event) : event.Respelled event := ⟨rfl, rfl⟩

theorem Event.Respelled.id_eq {event : Event} (h : event.Respelled event') :
    event'.id = event.id := by
  rw [h.fields]

theorem Event.Respelled.causedBy_eq {event : Event} (h : event.Respelled event') :
    event'.causedBy = event.causedBy := by
  rw [h.fields]

/-- A filter does not look at payloads. -/
theorem Event.Respelled.eventMatches_eq {event : Event} (h : event.Respelled event')
    (filter : EventFilter) : eventMatches event' filter = eventMatches event filter := by
  rw [h.fields]
  rfl

/-- The same reply, up to the spelling of payloads. A walk along causes has ended on both sides. -/
inductive JournalReply.Same : JournalReply → JournalReply → Prop
  | appended {event event' : Event} (inserted : Bool) (h : event.Respelled event') :
      Same (.appended ⟨event, inserted⟩) (.appended ⟨event', inserted⟩)
  | event {event event' : Option Event} (h : Option.Rel Event.Respelled event event') :
      Same (.event event) (.event event')
  | events {events events' : List Event} (h : List.Forall₂ Event.Respelled events events') :
      Same (.events events) (.events events')
  | chain {events events' : List Event} (h : List.Forall₂ Event.Respelled events events') :
      Same (.chain (some events)) (.chain (some events'))
  | head (head : Option Hash) : Same (.head head) (.head head)
  | failed (error : DispatchError) : Same (.failed error) (.failed error)

/-! ### The relation between the two journals -/

/-- A reference journal and a database in the same state. -/
structure Simulates (j : MemoryJournal) (s : Store) : Prop where
  journal : s.journal = j.entries.map JournalEntry.stored
  byId : ∀ id, j.entryAt (j.byId id) = j.entries.find? fun entry => entry.event.id = id
  byId_lt : ∀ id, ∀ i ∈ j.byId id, i < j.entries.length
  byKey : ∀ key, j.entryAt (j.byIdempotencyKey key)
    = j.entries.find? fun entry => entry.event.idempotencyKey = some key
  byKey_lt : ∀ key, ∀ i ∈ j.byIdempotencyKey key, i < j.entries.length
  cursor : j.nextCursor = j.entries.length + 1
  nextCursor : Zeta.nextCursor s.journal = j.nextCursor
  head : j.head = Zeta.head s.journal
  payload : ∀ entry ∈ j.entries, canonicalPayload entry.event.payload = .ok entry.payloadBytes ∧
    readable entry.payloadBytes = true
  items : ∀ row ∈ s.projections.queueItems, ∃ entry ∈ s.journal, entry.event.id = row.eventId

theorem simulates_new : Simulates .new .empty where
  journal := rfl
  byId _ := rfl
  byId_lt _ _ h := nomatch h
  byKey _ := rfl
  byKey_lt _ _ h := nomatch h
  cursor := rfl
  nextCursor := rfl
  head := rfl
  payload _ h := nomatch h
  items _ h := nomatch h

variable {j : MemoryJournal} {s : Store}

/-- What is read back is what was appended, up to the spelling of the payload. -/
theorem Simulates.respelled [LawfulFloatText] (h : Simulates j s) (hentry : entry ∈ j.entries) :
    entry.event.Respelled entry.stored.event := by
  obtain ⟨hpayload, -⟩ := h.payload entry hentry
  exact ⟨hpayload.trans (canonicalPayload_idem hpayload).symm, rfl⟩

theorem Simulates.readable (h : Simulates j s) :
    ∀ entry ∈ s.journal, Zeta.readable entry.payloadBytes = true := by
  intro stored hstored
  rw [h.journal] at hstored
  obtain ⟨entry, hentry, rfl⟩ := List.mem_map.mp hstored
  exact (h.payload entry hentry).2

omit [Platform] in
/-- A lookup by anything but the payload finds the entry at the same place. -/
theorem find?_stored {q : JournalEntry → Bool}
    (hq : ∀ entry : JournalEntry, q entry.stored = q entry) (entries : List JournalEntry) :
    (entries.map JournalEntry.stored).find? q = (entries.find? q).map JournalEntry.stored := by
  rw [List.find?_map]
  congr 1
  exact congrArg (fun q => entries.find? q) (funext hq)

theorem Simulates.entryByEventId (h : Simulates j s) (id : String) :
    Zeta.entryByEventId s.journal id = .ok ((j.entryAt (j.byId id)).map JournalEntry.stored) := by
  rw [Zeta.entryByEventId, decodeFound_ok_iff, h.byId, ← find?_stored (fun _ => rfl), ← h.journal]
  exact ⟨rfl, fun entry hentry => h.readable entry (List.mem_of_find?_eq_some hentry)⟩

theorem Simulates.entryForKey (h : Simulates j s) (key : Option String) :
    Zeta.entryForKey s.journal key = .ok ((j.entryForKey key).map JournalEntry.stored) := by
  cases key with
  | none => rfl
  | some key =>
    simp only [Zeta.entryForKey, entryByIdempotencyKey, MemoryJournal.entryForKey, Option.bind_some]
    rw [decodeFound_ok_iff, h.byKey, ← find?_stored (fun _ => rfl), ← h.journal]
    exact ⟨rfl, fun entry hentry => h.readable entry (List.mem_of_find?_eq_some hentry)⟩

/-! ### Appending -/

/-- A text that both journals accept or reject alike. -/
def plainText (text : String) : Bool := text = "" || sqlText text

/-- A call whose event both journals can hold: it is not reserved, no identity field begins with the
character zero, and its payload can be read back. -/
def JournalCall.Fits : JournalCall → Prop
  | .append event => startsWith event.eventType "runtime." = false ∧
      (plainText event.id = true ∧ plainText event.eventType = true ∧
        plainText event.source = true) ∧
      Zeta.readable event.payload = true
  | _ => True

/-- Whether a call appends. -/
def JournalCall.isAppend : JournalCall → Bool
  | .append _ => true
  | _ => false

/-- An ordinary event is always projected. -/
theorem Simulates.exists_indexEvent (h : Simulates j s) (event : Event)
    (journal : List JournalEntry) {cursor : ℕ}
    (hreserved : startsWith event.eventType "runtime." = false) (htext : sqlText event.id = true)
    (hcursor : event.cursor = some cursor) (hpos : 0 < cursor) (hmax : (cursor : Int) ≤ i64Max)
    (hfresh : ∀ entry ∈ s.journal, entry.event.id ≠ event.id) :
    ∃ p, indexEvent journal event s.projections = .ok p ∧
      ∀ row ∈ p.queueItems, row ∈ s.projections.queueItems ∨ row.eventId = event.id := by
  rcases eventKind_of_unreserved hreserved with hkind | hkind
  · simp only [indexEvent, hkind, indexPendingQueueItem_ok_iff]
    have hnone : ∀ other ∈ s.projections.queueItems,
        ¬(other.eventId = event.id ∧ other.targetAgent = "") := by
      rintro other hother ⟨heq, -⟩
      obtain ⟨entry, hentry, hid⟩ := h.items other hother
      exact hfresh entry hentry (hid.trans heq)
    by_cases hfree : s.projections.queueItems.find? (pendingQueueItemId event.id) = none
    · refine ⟨_, ⟨cursor, hcursor, hmax, htext, hpos, .inr ⟨hfree, hnone, rfl⟩⟩, ?_⟩
      intro row hrow
      rcases Table.mem_upsert.mp hrow with rfl | ⟨hrow, -⟩
      · exact .inr rfl
      · exact .inl hrow
    · exact ⟨_, ⟨cursor, hcursor, hmax, htext, hpos, .inl ⟨hfree, rfl⟩⟩, fun row hrow => .inl hrow⟩
  · exact ⟨s.projections, by simp only [indexEvent, hkind], fun row hrow => .inl hrow⟩

theorem Simulates.mem_of_entryAt (h : Simulates j s) {id : String}
    (hentry : j.entryAt (j.byId id) = some entry) : entry ∈ j.entries :=
  List.mem_of_find?_eq_some ((h.byId id).symm.trans hentry)

theorem Simulates.mem_of_entryForKey (h : Simulates j s) {key : Option String}
    (hentry : j.entryForKey key = some entry) : entry ∈ j.entries := by
  obtain ⟨key, rfl, hentry⟩ := Option.bind_eq_some_iff.mp hentry
  exact List.mem_of_find?_eq_some ((h.byKey key).symm.trans hentry)

/-- What an append to the database does once the identity fields are valid. -/
theorem Simulates.ingestEvent_eq (h : Simulates j s) {event : Event}
    (hreserved : startsWith event.eventType "runtime." = false)
    (hvalid : validateIdentityFields event = .ok ()) :
    ingestEvent s event = (do
      let (outcome, journal) ← appendUnlessIdentified s.journal event
        ((j.entryAt (j.byId event.id)).map JournalEntry.stored)
      let projections ← indexIfInserted outcome journal s.projections
      return (outcome, { journal, projections })) := by
  have hidentity : validateEventIdentity event = .ok () := by
    rw [validateEventIdentity, hvalid]
    rfl
  rw [ingestEvent, if_neg (by simp [hreserved]), appendTrustedEvent, hidentity, ok_bind,
    appendInTransaction, h.entryByEventId, ok_bind]

/-- An event whose id is retained resolves alike, or fails alike. -/
theorem Simulates.append_identified [LawfulFloatText] (h : Simulates j s) {event : Event}
    (hreserved : startsWith event.eventType "runtime." = false)
    (hvalid : validateIdentityFields event = .ok ())
    (hentry : j.entryAt (j.byId event.id) = some entry) :
    (memoryCall j (.append event)).1.Same (sqliteCall s (.append event)).1 ∧
      Simulates (memoryCall j (.append event)).2 (sqliteCall s (.append event)).2 := by
  have haddress : entry.stored.payloadAddress = entry.payloadAddress := rfl
  have hingest := h.ingestEvent_eq hreserved hvalid
  simp only [hentry, Option.map_some, appendUnlessIdentified, resolveById, haddress] at hingest
  have happend : j.append event = (do
      let payload ← (canonicalPayload event.payload).mapError .payloadEncoding
      ensure (payloadAddress payload = entry.payloadAddress) .duplicateIdPayloadMismatch
      return (⟨entry.event, false⟩, j)) := by
    simp only [MemoryJournal.append, hvalid, ok_bind, hentry]
  simp only [memoryCall, sqliteCall, hingest, happend]
  cases canonicalPayload event.payload with
  | error e => exact ⟨.failed _, h⟩
  | ok payload =>
    by_cases hsame : payloadAddress payload = entry.payloadAddress
    · simp only [Except.mapError, ok_bind, ensure_of hsame]
      exact ⟨.appended false (h.respelled (h.mem_of_entryAt hentry)), h⟩
    · have hfailed : ∀ {ε : Type} (e : ε), ensure (payloadAddress payload = entry.payloadAddress) e
          = .error e := fun e => ensure_error_iff.mpr ⟨hsame, rfl⟩
      simp only [Except.mapError, ok_bind, hfailed, error_bind]
      exact ⟨.failed _, h⟩

/-- An event whose key is retained resolves alike. -/
theorem Simulates.append_keyed [LawfulFloatText] (h : Simulates j s) {event : Event}
    (hreserved : startsWith event.eventType "runtime." = false)
    (hvalid : validateIdentityFields event = .ok ()) (hfresh : j.entryAt (j.byId event.id) = none)
    (hentry : j.entryForKey event.idempotencyKey = some entry) :
    (memoryCall j (.append event)).1.Same (sqliteCall s (.append event)).1 ∧
      Simulates (memoryCall j (.append event)).2 (sqliteCall s (.append event)).2 := by
  have hingest := h.ingestEvent_eq hreserved hvalid
  simp only [hfresh, Option.map_none, appendUnlessIdentified, h.entryForKey, hentry,
    Option.map_some, appendUnlessKeyed, ok_bind] at hingest
  have happend : j.append event = .ok (⟨entry.event, false⟩, j) := by
    simp only [MemoryJournal.append, hvalid, ok_bind, hfresh, hentry]
  simp only [memoryCall, sqliteCall, hingest, happend]
  exact ⟨.appended false (h.respelled (h.mem_of_entryForKey hentry)), h⟩

section

omit [Platform]

/-- Indices into a list stay what they were when the list grows. -/
theorem getElem?_concat_of_lt {index : Option ℕ} (hlt : ∀ i ∈ index, i < entries.length) :
    (index.bind fun i => (entries ++ [entry])[i]?) = index.bind fun i => entries[i]? := by
  cases index with
  | none => rfl
  | some i => exact List.getElem?_append_left (hlt i rfl)

/-- A map that finds the first entry with a name still does once a new name was added with its
entry. -/
theorem find?_concat_update (nameOf : JournalEntry → Option String) (entry : JournalEntry)
    (hname : nameOf entry = some name)
    (hindex : ∀ text, ((index text).bind fun i => entries[i]?) =
      entries.find? fun other => nameOf other = some text)
    (hlt : ∀ text, ∀ i ∈ index text, i < entries.length)
    (hfresh : entries.find? (fun other => nameOf other = some name) = none) (text : String) :
    ((Function.update index name (some entries.length) text).bind fun i => (entries ++ [entry])[i]?)
      = (entries ++ [entry]).find? fun other => nameOf other = some text := by
  rw [List.find?_append]
  by_cases htext : text = name
  · subst htext
    simp [hfresh, hname]
  · have hne : some name ≠ some text := fun heq => htext (Option.some.inj heq).symm
    rw [Function.update_of_ne htext, getElem?_concat_of_lt (hlt text), hindex]
    simp [hname, hne]

theorem update_lt {length : ℕ} (hlt : ∀ text, ∀ i ∈ index text, i < length) (text : String) :
    ∀ i ∈ Function.update index name (some length) text, i < length + 1 := by
  intro i hi
  by_cases htext : text = name
  · subst htext
    rw [Function.update_self] at hi
    obtain rfl : length = i := Option.some.inj hi
    exact Nat.lt_succ_self _
  · rw [Function.update_of_ne htext] at hi
    exact Nat.lt_succ_of_lt (hlt text i hi)

end

/-- The reference journal after an insert. -/
def MemoryJournal.inserted (j : MemoryJournal) (entry : JournalEntry) : MemoryJournal where
  entries := j.entries ++ [entry]
  byId := Function.update j.byId entry.event.id (some j.entries.length)
  byIdempotencyKey := match entry.event.idempotencyKey with
    | some key => Function.update j.byIdempotencyKey key (some j.entries.length)
    | none => j.byIdempotencyKey
  nextCursor := j.nextCursor + 1
  head := some entry.entryAddress

/-- Both journals are in the same state after both inserted an entry. -/
theorem Simulates.insert (h : Simulates j s) {event : Event} {p : Projections}
    (hnew : JournalEntry.new event j.nextCursor j.head = .ok entry)
    (hread : Zeta.readable event.payload = true) (hid : j.entryAt (j.byId event.id) = none)
    (hkey : j.entryForKey event.idempotencyKey = none)
    (hitems : ∀ row ∈ p.queueItems, row ∈ s.projections.queueItems ∨ row.eventId = event.id) :
    Simulates (j.inserted entry) ⟨s.journal ++ [entry.stored], p⟩ := by
  obtain ⟨-, -, bytes, hbytes, address, -, hentry⟩ := JournalEntry.new_ok_iff.mp hnew
  have hevent : entry.event = { event with cursor := some j.nextCursor } := congrArg
    JournalEntry.event hentry
  have hentryId : entry.event.id = event.id := by rw [hevent]
  have hentryKey : entry.event.idempotencyKey = event.idempotencyKey := by rw [hevent]
  have hlength : (j.inserted entry).entries.length = j.entries.length + 1 := by
    simp [MemoryJournal.inserted]
  have hids : ∀ id, (fun entry : JournalEntry => decide (some entry.event.id = some id))
      = fun entry => decide (entry.event.id = id) := fun id => by simp
  constructor
  · rw [h.journal, MemoryJournal.inserted, List.map_append, List.map_singleton]
  · intro id
    have hfind := find?_concat_update (fun entry => some entry.event.id) entry rfl
      (fun text => (h.byId text).trans (by rw [hids])) h.byId_lt
      (by rw [hids, hentryId]; exact (h.byId event.id).symm.trans hid) id
    rwa [hids] at hfind
  · intro id i hi
    rw [hlength]
    exact update_lt h.byId_lt id i hi
  · intro key
    cases hsome : entry.event.idempotencyKey with
    | none =>
      simp only [MemoryJournal.inserted, MemoryJournal.entryAt, hsome]
      rw [getElem?_concat_of_lt (h.byKey_lt key), List.find?_append, ← MemoryJournal.entryAt,
        h.byKey]
      simp [hsome]
    | some name =>
      have hfresh : j.entries.find? (fun other => other.event.idempotencyKey = some name) =
          none := by
        rw [← h.byKey]
        rwa [← hentryKey, hsome] at hkey
      have hfind := find?_concat_update (fun entry => entry.event.idempotencyKey) entry hsome
        h.byKey
        h.byKey_lt hfresh key
      simpa only [MemoryJournal.inserted, MemoryJournal.entryAt, hsome] using hfind
  · intro key i hi
    rw [hlength]
    cases hsome : entry.event.idempotencyKey with
    | none =>
      simp only [MemoryJournal.inserted, hsome] at hi
      exact Nat.lt_succ_of_lt (h.byKey_lt key i hi)
    | some name =>
      simp only [MemoryJournal.inserted, hsome] at hi
      exact update_lt h.byKey_lt key i hi
  · rw [hlength, MemoryJournal.inserted, h.cursor]
  · have hcursor : entry.stored.cursor = j.nextCursor := by
      rw [hentry]
      rfl
    simp [Zeta.nextCursor, hcursor, MemoryJournal.inserted]
  · simp [Zeta.head, MemoryJournal.inserted, JournalEntry.stored]
  · intro other hother
    rcases List.mem_append.mp hother with hother | hother
    · exact h.payload other hother
    · rw [List.mem_singleton.mp hother, hentry]
      exact ⟨hbytes, by rw [readable_canonical hbytes, hread]⟩
  · intro row hrow
    rcases hitems row hrow with hrow | hrow
    · obtain ⟨other, hother, hid⟩ := h.items row hrow
      exact ⟨other, List.mem_append_left _ hother, hid⟩
    · refine ⟨entry.stored, by simp, ?_⟩
      rw [hrow]
      exact hentryId

omit [Platform] in
theorem sqlText_of_plainText {text : String} (hne : text ≠ "") (h : plainText text = true) :
    sqlText text = true := by
  simpa [plainText, hne] using h

/-- A new event is inserted into both journals, or rejected by both. -/
theorem Simulates.append_fresh (h : Simulates j s) {event : Event}
    (hfits : (JournalCall.append event).Fits) (hroom : (j.nextCursor : Int) ≤ i64Max)
    (hvalid : validateIdentityFields event = .ok ()) (hid : j.entryAt (j.byId event.id) = none)
    (hkey : j.entryForKey event.idempotencyKey = none) :
    (memoryCall j (.append event)).1.Same (sqliteCall s (.append event)).1 ∧
      Simulates (memoryCall j (.append event)).2 (sqliteCall s (.append event)).2 := by
  obtain ⟨hreserved, ⟨hplainId, hplainType, hplainSource⟩, hread⟩ := hfits
  obtain ⟨hneId, hneType, hneSource⟩ := validateIdentityFields_ok_iff.mp hvalid
  have htextId := sqlText_of_plainText hneId hplainId
  have htexts : (sqlText event.id && sqlText event.eventType && sqlText event.source) = true := by
    rw [htextId, sqlText_of_plainText hneType hplainType,
      sqlText_of_plainText hneSource hplainSource]
    rfl
  have hroom64 : j.nextCursor < MemoryJournal.u64Max := by
    simp only [i64Max, MemoryJournal.u64Max] at hroom ⊢
    omega
  have hingest := h.ingestEvent_eq hreserved hvalid
  simp only [hid, Option.map_none, appendUnlessIdentified, h.entryForKey, hkey, ok_bind,
    appendUnlessKeyed, insertEntry, h.nextCursor, ← h.head, ensure_of hroom] at hingest
  have happend : j.append event = j.insert event := by
    simp only [MemoryJournal.append, hvalid, ok_bind, hid, hkey]
  simp only [memoryCall, sqliteCall, hingest, happend, MemoryJournal.insert, ensure_of hroom64,
    ok_bind]
  cases hnew : JournalEntry.new event j.nextCursor j.head with
  | error e => exact ⟨.failed _, h⟩
  | ok entry =>
    obtain ⟨-, -, bytes, hbytes, address, -, hentry⟩ := JournalEntry.new_ok_iff.mp hnew
    have hevent : entry.event = { event with cursor := some j.nextCursor } :=
      congrArg JournalEntry.event hentry
    have hfresh : ∀ other ∈ s.journal, other.event.id ≠ entry.event.id := by
      rw [h.journal, hevent]
      intro stored hstored
      obtain ⟨other, hother, rfl⟩ := List.mem_map.mp hstored
      have hnone := List.find?_eq_none.mp ((h.byId event.id).symm.trans hid) other hother
      have hne : other.event.id ≠ event.id := by simpa using hnone
      exact hne
    obtain ⟨p, hindex, hitems⟩ := h.exists_indexEvent entry.event
      (s.journal ++ [entry.stored]) (by rw [hevent]; exact hreserved)
      (by rw [hevent]; exact htextId)
      (show entry.event.cursor = some j.nextCursor by rw [hevent])
      (by rw [h.cursor]; exact Nat.succ_pos _)
      hroom hfresh
    have hprojected : indexIfInserted ⟨entry.event, true⟩ (s.journal ++ [entry.stored])
      s.projections
        = .ok p := hindex
    simp only [Except.mapError, ok_bind, ensure_of htexts, pure, Except.pure, hprojected]
    refine ⟨.appended true (.refl _), h.insert hnew hread hid hkey fun row hrow => ?_⟩
    rw [← show entry.event.id = event.id by rw [hevent]]
    exact hitems row hrow

/-- An append has the same effect on both journals. -/
theorem Simulates.append [LawfulFloatText] (h : Simulates j s) {event : Event}
    (hfits : (JournalCall.append event).Fits) (hroom : (j.nextCursor : Int) ≤ i64Max) :
    (memoryCall j (.append event)).1.Same (sqliteCall s (.append event)).1 ∧
      Simulates (memoryCall j (.append event)).2 (sqliteCall s (.append event)).2 := by
  cases hvalid : validateIdentityFields event with
  | error e =>
    have happend : j.append event = .error e := by
      rw [MemoryJournal.append, hvalid]
      rfl
    have hingest : ingestEvent s event = .error (.append e) := by
      rw [ingestEvent, if_neg (by simp [hfits.1]), appendTrustedEvent, validateEventIdentity,
        hvalid]
      rfl
    simp only [memoryCall, sqliteCall, happend, hingest]
    exact ⟨.failed _, h⟩
  | ok =>
    cases hid : j.entryAt (j.byId event.id) with
    | some entry => exact h.append_identified hfits.1 hvalid hid
    | none =>
      cases hkey : j.entryForKey event.idempotencyKey with
      | some entry => exact h.append_keyed hfits.1 hvalid hid hkey
      | none => exact h.append_fresh hfits hroom hvalid hid hkey

/-! ### Reading -/

variable [LawfulFloatText]

/-- The events of both journals are the same, in order. -/
theorem Simulates.events (h : Simulates j s) :
    List.Forall₂ Event.Respelled (j.entries.map (·.event)) (s.journal.map (·.event)) := by
  rw [h.journal, List.map_map, List.forall₂_map_left_iff, List.forall₂_map_right_iff,
    List.forall₂_same]
  exact fun entry hentry => h.respelled hentry

theorem Simulates.getEvent (h : Simulates j s) (id : String) :
    ∃ event, Zeta.getEvent s id = .ok event ∧ Option.Rel Event.Respelled (j.get id) event := by
  refine ⟨_, by rw [Zeta.getEvent, h.entryByEventId, ok_bind]; rfl, ?_⟩
  rw [MemoryJournal.get]
  cases hentry : j.entryAt (j.byId id) with
  | none => exact .none
  | some entry => exact .some (h.respelled (h.mem_of_entryAt hentry))

omit [LawfulFloatText] in
theorem Simulates.loadOrdered (h : Simulates j s) (newestFirst : Bool) :
    Zeta.loadOrdered s.journal newestFirst
      = .ok (if newestFirst then s.journal.reverse else s.journal) := by
  rw [Zeta.loadOrdered, loadEntries_ok_iff]
  refine ⟨rfl, fun entry hentry => h.readable entry ?_⟩
  cases newestFirst with
  | false => exact hentry
  | true => exact List.mem_reverse.mp hentry

/-- A query finds the same events in both journals. -/
theorem Simulates.listEvents (h : Simulates j s) (filter : EventFilter) :
    ∃ events, Zeta.listEvents s filter = .ok events ∧
      List.Forall₂ Event.Respelled (j.listEvents filter) events := by
  by_cases hzero : filter.limit = some 0
  · refine ⟨[], by rw [Zeta.listEvents, if_pos hzero], ?_⟩
    simp only [MemoryJournal.listEvents, hzero, List.take_zero]
    exact .nil
  · have hlimit : ∀ limit ∈ filter.limit, ([] : List Event).length < limit := by
      intro limit hsome
      rcases Nat.eq_zero_or_pos limit with rfl | hpos
      · exact absurd hsome hzero
      · exact hpos
    have hordered : List.Forall₂ Event.Respelled
        ((if filter.newestFirst then j.entries.reverse else j.entries).map (·.event))
        ((if filter.newestFirst then s.journal.reverse else s.journal).map (·.event)) := by
      cases filter.newestFirst with
      | false => exact h.events
      | true =>
        rw [if_pos rfl, if_pos rfl, List.map_reverse, List.map_reverse]
        exact List.forall₂_reverse_iff.mpr h.events
    have hpassed : ∀ event event', event.Respelled event' →
        (eventMatches event filter = true ↔ eventMatches event' filter = true) := by
      intro event event' hsame
      rw [hsame.eventMatches_eq]
    have hmatching := List.rel_filter (fun event event' => hpassed event event') hordered
    refine ⟨_, by rw [Zeta.listEvents, if_neg hzero, h.loadOrdered, ok_bind]; rfl, ?_⟩
    rw [collectMatching_eq filter _ [] hlimit, List.nil_append, MemoryJournal.listEvents]
    cases filter.limit with
    | none => exact hmatching
    | some limit => exact List.forall₂_take limit hmatching

/-- Walks along causes that start at the same event find the same events. -/
theorem Simulates.chainFrom (h : Simulates j s) (steps : ℕ) :
    ∀ (seen : List String) (current current' : Option Event) (events : List Event),
      Option.Rel Event.Respelled current current' →
      Zeta.chainFrom (fun id => (.ok (j.get id) : Except DispatchError _)) steps seen current
        = .ok (some events) →
      ∃ events', Zeta.chainFrom (Zeta.getEvent s) steps seen current' = .ok (some events') ∧
        List.Forall₂ Event.Respelled events events' := by
  induction steps with
  | zero =>
    intro seen current current' events _ hchain
    cases hchain
  | succ steps ih =>
    intro seen current current' events hcurrent hchain
    cases hcurrent with
    | none =>
      cases hchain
      exact ⟨[], rfl, .nil⟩
    | @some event event' hsame =>
      simp only [Zeta.chainFrom] at hchain
      simp only [Zeta.chainFrom, hsame.id_eq, hsame.causedBy_eq]
      by_cases hseen : event.id ∈ seen
      · rw [if_pos hseen] at hchain ⊢
        cases hchain
        exact ⟨[], rfl, .nil⟩
      · rw [if_neg hseen] at hchain ⊢
        cases hcause : event.causedBy with
        | none =>
          rw [hcause] at hchain
          cases hchain
          exact ⟨[event'], rfl, .cons hsame .nil⟩
        | some parent =>
          simp only [hcause, ok_bind, ok_iff] at hchain
          obtain ⟨rest, hrest, hsome⟩ := hchain
          obtain ⟨restEvents, rfl, rfl⟩ := Option.map_eq_some_iff.mp hsome
          obtain ⟨next, hnext, hrel⟩ := h.getEvent parent
          obtain ⟨rest', hrest', hall⟩ := ih _ _ _ _ hrel hrest
          refine ⟨event' :: rest', ?_, .cons hsame hall⟩
          simp only [hnext, ok_bind, hrest']
          rfl

omit [LawfulFloatText] in
theorem Simulates.id_mem_of_get (h : Simulates j s) (id : String) :
    ∀ event ∈ j.get id, event.id ∈ j.entries.map (·.event.id) := by
  intro event hevent
  obtain ⟨entry, hentry, rfl⟩ := Option.map_eq_some_iff.mp hevent
  exact List.mem_map.mpr ⟨entry, h.mem_of_entryAt hentry, rfl⟩

/-- Walks along causes end in both journals, and find the same events. -/
theorem Simulates.causalChain (h : Simulates j s) (id : String) :
    ∃ events events', j.causalChain id = .ok (some events) ∧
      Zeta.causalChain s id = .ok (some events') ∧
      List.Forall₂ Event.Respelled events events' := by
  obtain ⟨events, hchain⟩ := chainFrom_of_lt (ε := DispatchError) h.id_mem_of_get
    (j.entries.length + 1) []
    (j.get id) List.nodup_nil (List.nil_subset _) (h.id_mem_of_get id) (by simp)
  obtain ⟨current, hcurrent, hrel⟩ := h.getEvent id
  obtain ⟨events', hchain', hall⟩ := h.chainFrom _ _ _ _ _ hrel hchain
  have hlength : s.journal.length = j.entries.length := by rw [h.journal, List.length_map]
  refine ⟨events.reverse, events'.reverse, ?_, ?_, List.forall₂_reverse_iff.mpr hall⟩
  · rw [MemoryJournal.causalChain, hchain]
    rfl
  · rw [Zeta.causalChain, hcurrent, ok_bind, hlength, hchain']
    rfl

/-! ### Sequences of calls -/

/-- Every call has the same reply from both journals, and leaves them in the same state. -/
theorem Simulates.call (h : Simulates j s) {call : JournalCall} (hfits : call.Fits)
    (hroom : call.isAppend = true → (j.nextCursor : Int) ≤ i64Max) :
    (memoryCall j call).1.Same (sqliteCall s call).1 ∧
      Simulates (memoryCall j call).2 (sqliteCall s call).2 := by
  cases call with
  | append event => exact h.append hfits (hroom rfl)
  | get id =>
    obtain ⟨event, hevent, hrel⟩ := h.getEvent id
    simp only [memoryCall, sqliteCall, hevent]
    exact ⟨.event hrel, h⟩
  | listEvents filter =>
    obtain ⟨events, hevents, hall⟩ := h.listEvents filter
    simp only [memoryCall, sqliteCall, hevents]
    exact ⟨.events hall, h⟩
  | children id limit =>
    obtain ⟨events, hevents, hall⟩ := h.listEvents (childrenFilter id limit)
    simp only [memoryCall, sqliteCall, children, MemoryJournal.children, hevents]
    exact ⟨.events hall, h⟩
  | causalChain id =>
    obtain ⟨events, events', hchain, hchain', hall⟩ := h.causalChain id
    simp only [memoryCall, sqliteCall, hchain, hchain']
    exact ⟨.chain hall, h⟩
  | head =>
    simp only [memoryCall, sqliteCall, h.head]
    exact ⟨.head _, h⟩

omit [LawfulFloatText] in
theorem nextCursor_append_le {event : Event} {outcome : AppendOutcome} {j' : MemoryJournal}
    (h : j.append event = .ok (outcome, j')) : j'.nextCursor ≤ j.nextCursor + 1 := by
  simp only [MemoryJournal.append, bind_ok_iff] at h
  obtain ⟨-, -, h⟩ := h
  split at h
  · simp only [ok_iff, Prod.mk.injEq] at h
    obtain ⟨-, -, -, -, -, rfl⟩ := h
    exact Nat.le_succ _
  · split at h
    · cases h
      exact Nat.le_succ _
    · simp only [MemoryJournal.insert, ok_iff, Prod.mk.injEq] at h
      obtain ⟨-, -, entry, -, -, rfl⟩ := h
      exact le_rfl

omit [LawfulFloatText] in
/-- Calls use up cursors only when they append. -/
theorem nextCursor_memoryCall_le (call : JournalCall) :
    (memoryCall j call).2.nextCursor ≤ j.nextCursor + if call.isAppend then 1 else 0 := by
  cases call with
  | append event =>
    simp only [memoryCall]
    split
    · rename_i outcome j' happend
      exact nextCursor_append_le happend
    · exact Nat.le_succ _
  | get | listEvents | children | causalChain | head => exact le_rfl

/-- From journals in the same state, calls have the same replies. -/
theorem Simulates.replies (h : Simulates j s) {calls : List JournalCall}
    (hfits : ∀ call ∈ calls, call.Fits)
    (hroom : j.nextCursor + calls.countP JournalCall.isAppend ≤ 2 ^ 63) :
    List.Forall₂ JournalReply.Same (Zeta.replies memoryCall j calls)
      (Zeta.replies sqliteCall s calls) := by
  induction calls generalizing j s with
  | nil => exact .nil
  | cons call calls ih =>
    rw [List.countP_cons] at hroom
    have hnow : call.isAppend = true → (j.nextCursor : Int) ≤ i64Max := by
      intro happend
      simp only [happend, if_true, i64Max] at hroom ⊢
      omega
    obtain ⟨hsame, hnext⟩ := h.call (hfits call (.head _)) hnow
    have hle := nextCursor_memoryCall_le (j := j) call
    refine .cons hsame
      (ih hnext (fun later hlater => hfits later (.tail _ hlater)) ?_)
    exact le_trans (Nat.add_le_add_right hle _) (by omega)

/-- Both journals give the same replies to every sequence of calls with ordinary events, if no id,
type or source begins with the character zero, payloads can be read back, and less than `2 ^ 63`
calls append. -/
theorem replies_same (calls : List JournalCall) (hfits : ∀ call ∈ calls, call.Fits)
    (hroom : calls.countP JournalCall.isAppend < 2 ^ 63) :
    List.Forall₂ JournalReply.Same (replies memoryCall .new calls)
      (replies sqliteCall .empty calls) := by
  refine simulates_new.replies hfits ?_
  simp only [MemoryJournal.new]
  omega

end

namespace Sample

/-- An event whose id begins with the character zero. -/
def zeroEvent : Event := event "\x00" "note" []

/-- An event with a payload that is too deep to be read back. -/
def deepEvent : Event := event "e" "note" [("x", nested 127)]

/-- The reference journal takes an id that begins with the character zero, and the database does
not; and the database does not give back a deep payload that it took. -/
theorem journals_differ :
    (@replies _ (@memoryCall platform) .new [.append zeroEvent]
        = [.appended ⟨{ zeroEvent with cursor := some 1 }, true⟩] ∧
      @replies _ (@sqliteCall platform) .empty [.append zeroEvent]
        = [.failed (.database "insert journal entry")]) ∧
    (@replies _ (@memoryCall platform) .new [.append deepEvent, .get "e"]
        = [.appended ⟨{ deepEvent with cursor := some 1 }, true⟩,
          .event (some { deepEvent with cursor := some 1 })] ∧
      @replies _ (@sqliteCall platform) .empty [.append deepEvent, .get "e"]
        = [.appended ⟨{ deepEvent with cursor := some 1 }, true⟩,
          .failed (.corruptJournal (some 1) "payload_bytes")]) := by
  refine ⟨⟨?_, ?_⟩, ?_, ?_⟩ <;> decide +kernel

/-- A client appends an event, an effect of it, and the event again, and reads. -/
def reading : List JournalCall := [
  .append (event "a" "note" [("z", .null), ("y", .null)]),
  .append { event "b" "note" [] with causedBy := some "a", idempotencyKey := some "k" },
  .append (event "a" "note" [("y", .null), ("z", .null)]),
  .append { event "c" "note" [] with idempotencyKey := some "k" },
  .children "a" none,
  .causalChain "b",
  .listEvents
    { EventFilter.default with eventTypePrefix := some "no", newestFirst := true, limit := some 1 },
  .head]

/-- Both journals tell this client the same. -/
theorem reading_same :
    List.Forall₂ (@JournalReply.Same platform) (@replies _ (@memoryCall platform) .new reading)
      (@replies _ (@sqliteCall platform) .empty reading) := by
  refine @replies_same platform platform_lawful reading ?_ (by decide +kernel)
  simp only [reading, List.forall_mem_cons, JournalCall.Fits, List.not_mem_nil, false_imp_iff,
    implies_true, and_true]
  decide +kernel

end Sample

end Zeta
