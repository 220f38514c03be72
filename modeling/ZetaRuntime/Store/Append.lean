import ZetaRuntime.Store.Tables

/-!
# Appending to the journal

An append resolves duplicates before it inserts: first by event id, then by idempotency key. An id
duplicate must carry the same payload; a key duplicate is not compared at all, so it is up to each
caller to decide whether the retained event is the one it meant. Only an event that was inserted is
projected, and it is projected with the payload its caller passed in, while the journal keeps the
canonical one.

A journaled payload is read back by a JSON parser that gives up at 128 levels of nesting. Nothing
checks this before an insert, so an entry can be accepted that can never be read again
(`readable`).
-/

namespace Zeta

open Outcome

variable {event : Event} {journal journal' : List JournalEntry}

/-- The nesting depth at which the JSON parser stops. -/
def recursionLimit : ℕ := 128

/-- Whether the parser can read a stored object back. -/
def readable (m : Map) : Bool := (Value.object m).depth < recursionLimit

/-- The position of a journaled entry. -/
def JournalEntry.cursor (entry : JournalEntry) : ℕ := entry.event.cursor.getD 0

/-- Decode a stored entry. -/
def intoEntry (entry : JournalEntry) : Except DispatchError JournalEntry := do
  ensure (readable entry.payloadBytes) (.corruptJournal entry.event.cursor "payload_bytes")
  return entry

/-- Decode the entry a lookup found, if it found one. -/
def decodeFound : Option JournalEntry → Except DispatchError (Option JournalEntry)
  | none => .ok none
  | some entry => some <$> intoEntry entry

/-- The entry with an event id. -/
def entryByEventId (journal : List JournalEntry) (id : String) :
    Except DispatchError (Option JournalEntry) :=
  decodeFound (journal.find? fun entry => entry.event.id = id)

/-- The entry with an idempotency key. -/
def entryByIdempotencyKey (journal : List JournalEntry) (key : String) :
    Except DispatchError (Option JournalEntry) :=
  decodeFound (journal.find? fun entry => entry.event.idempotencyKey = some key)

/-- Every entry, oldest first. -/
def loadEntries : List JournalEntry → Except DispatchError (List JournalEntry)
  | [] => .ok []
  | entry :: entries => do
    let first ← intoEntry entry
    let rest ← loadEntries entries
    return first :: rest

/-- The cursor of a journaled event, by a join that reads no payload. -/
def cursorOf (journal : List JournalEntry) (eventId : String) : Option ℕ :=
  (journal.find? fun entry => entry.event.id = eventId).map JournalEntry.cursor

/-- Whether an event is journaled, which is what a foreign key on an event id checks. -/
def journaled (journal : List JournalEntry) (eventId : String) : Bool :=
  (cursorOf journal eventId).isSome

/-- The largest signed 64-bit integer. -/
def i64Max : Int := 2 ^ 63 - 1

/-- Whether an append inserted an event or resolved a duplicate. -/
structure AppendOutcome where
  event : Event
  inserted : Bool
  deriving DecidableEq, Repr

/-- The identity fields every appended event must have. -/
def validateEventIdentity (event : Event) : Except DispatchError Unit :=
  (validateIdentityFields event).mapError .append

section Append

variable [Platform]

/-- An id duplicate must match the retained payload address. -/
def resolveById (entry : JournalEntry) (event : Event) : Except DispatchError AppendOutcome := do
  let payload ← (canonicalPayload event.payload).mapError fun e => .append (.payloadEncoding e)
  ensure (payloadAddress payload = entry.payloadAddress) (.append .duplicateIdPayloadMismatch)
  return ⟨entry.event, false⟩

/-- The cursor after the last entry. -/
def nextCursor (journal : List JournalEntry) : ℕ :=
  (journal.getLast?.map JournalEntry.cursor).getD 0 + 1

/-- The address of the last entry. -/
def head (journal : List JournalEntry) : Option Hash := journal.getLast?.map (·.entryAddress)

/-- Insert an event after the last entry. -/
def insertEntry (journal : List JournalEntry) (event : Event) :
    Except DispatchError (AppendOutcome × List JournalEntry) := do
  ensure ((nextCursor journal : Int) ≤ i64Max) (.append .cursorExhausted)
  let entry ← (JournalEntry.new event (nextCursor journal) (head journal)).mapError .append
  ensure (sqlText event.id && sqlText event.eventType && sqlText event.source)
    (.database "insert journal entry")
  return (⟨entry.event, true⟩, journal ++ [entry.stored])

/-- The retained entry an idempotency key names, if the event carries one. -/
def entryForKey (journal : List JournalEntry) :
    Option String → Except DispatchError (Option JournalEntry)
  | some key => entryByIdempotencyKey journal key
  | none => .ok none

/-- Resolve by key, or insert. -/
def appendUnlessKeyed (journal : List JournalEntry) (event : Event) :
    Option JournalEntry → Except DispatchError (AppendOutcome × List JournalEntry)
  | some entry => .ok (⟨entry.event, false⟩, journal)
  | none => insertEntry journal event

/-- Resolve by id, then by key, or insert. -/
def appendUnlessIdentified (journal : List JournalEntry) (event : Event) :
    Option JournalEntry → Except DispatchError (AppendOutcome × List JournalEntry)
  | some entry => do
    let outcome ← resolveById entry event
    return (outcome, journal)
  | none => do
    let keyed ← entryForKey journal event.idempotencyKey
    appendUnlessKeyed journal event keyed

/-- Append an event or resolve its id-first duplicate. -/
def appendInTransaction (journal : List JournalEntry) (event : Event) :
    Except DispatchError (AppendOutcome × List JournalEntry) := do
  let identified ← entryByEventId journal event.id
  appendUnlessIdentified journal event identified

/-- A divergent id duplicate of a lifecycle candidate is an identity collision. -/
def asCollision (eventId : String) : DispatchError → DispatchError
  | .append .duplicateIdPayloadMismatch => .runtimeEventIdentityCollision eventId
  | error => error

/-- Append a runtime lifecycle candidate. -/
def appendLifecycleCandidate (journal : List JournalEntry) (event : Event) :
    Except DispatchError (AppendOutcome × List JournalEntry) :=
  (appendInTransaction journal event).mapError (asCollision event.id)

/-- The journal after a fresh insert, with the event that goes on to be projected. -/
structure Inserted (journal : List JournalEntry) (event projected : Event)
    (journal' : List JournalEntry) : Prop where
  fresh_id : ∀ entry ∈ journal, entry.event.id ≠ event.id
  fresh_key : ∀ key ∈ event.idempotencyKey, ∀ entry ∈ journal,
    entry.event.idempotencyKey ≠ some key
  texts : sqlText event.id ∧ sqlText event.eventType ∧ sqlText event.source
  entry : ∃ entry, JournalEntry.new event (nextCursor journal) (head journal) = .ok entry ∧
    projected = entry.event ∧ journal' = journal ++ [entry.stored]

/-- The event that is projected is the one that was offered, with its cursor. -/
theorem Inserted.projected_eq {projected : Event} (h : Inserted journal event projected journal') :
    projected = { event with cursor := some (nextCursor journal) } := by
  obtain ⟨-, -, -, entry, hnew, rfl, -⟩ := h
  obtain ⟨-, -, bytes, hbytes, address, -, rfl⟩ := JournalEntry.new_ok_iff.mp hnew
  rfl

/-- A duplicate: the append returned an entry that was there and could be read. -/
structure Retained (journal : List JournalEntry) (event retained : Event) : Prop where
  entry : ∃ entry ∈ journal, retained = entry.event ∧ readable entry.payloadBytes = true ∧
    (entry.event.id = event.id ∨ event.idempotencyKey ≠ none ∧
      entry.event.idempotencyKey = event.idempotencyKey)

omit [Platform] in
theorem decodeFound_ok_iff {found result : Option JournalEntry} :
    decodeFound found = .ok result ↔
      result = found ∧ ∀ entry ∈ found, readable entry.payloadBytes = true := by
  cases found with
  | none => cases result <;> simp [decodeFound]
  | some entry =>
    simp only [decodeFound, intoEntry, map_ok_iff, ok_iff, Option.mem_def, Option.some.injEq]
    constructor
    · rintro ⟨_, ⟨-, hread, rfl⟩, rfl⟩
      exact ⟨rfl, by rintro _ rfl; exact hread⟩
    · rintro ⟨rfl, hread⟩
      exact ⟨entry, ⟨(), hread entry rfl, rfl⟩, rfl⟩

/-- An append that returned either resolved to a retained entry or inserted the event. -/
theorem appendInTransaction_ok {outcome : AppendOutcome}
    (h : appendInTransaction journal event = .ok (outcome, journal')) :
    (outcome.inserted = false ∧ journal' = journal ∧ Retained journal event outcome.event) ∨
      (outcome.inserted = true ∧ Inserted journal event outcome.event journal') := by
  simp only [appendInTransaction, bind_ok_iff, entryByEventId, decodeFound_ok_iff] at h
  obtain ⟨identified, ⟨rfl, hread⟩, h⟩ := h
  cases hid : journal.find? fun entry => entry.event.id = event.id with
  | some entry =>
    rw [hid] at h hread
    simp only [appendUnlessIdentified, resolveById, ok_iff] at h
    obtain ⟨_, ⟨_, -, _, -, rfl⟩, h⟩ := h
    cases h
    refine .inl ⟨rfl, rfl, ⟨entry, List.mem_of_find?_eq_some hid, rfl, hread entry rfl, .inl ?_⟩⟩
    simpa using List.find?_some hid
  | none =>
    rw [hid] at h
    simp only [appendUnlessIdentified, bind_ok_iff] at h
    obtain ⟨keyed, hkeyed, h⟩ := h
    have hfresh : ∀ entry ∈ journal, entry.event.id ≠ event.id := by
      simpa using List.find?_eq_none.mp hid
    cases keyed with
    | some entry =>
      cases h
      cases hkey : event.idempotencyKey with
      | none => simp [entryForKey, hkey] at hkeyed
      | some key =>
        simp only [entryForKey, hkey, entryByIdempotencyKey, decodeFound_ok_iff] at hkeyed
        obtain ⟨hfound, hread⟩ := hkeyed
        refine .inl ⟨rfl, rfl, ⟨entry, List.mem_of_find?_eq_some hfound.symm, rfl,
          hread entry hfound.symm, .inr ⟨by simp [hkey], ?_⟩⟩⟩
        rw [hkey]
        simpa using List.find?_some hfound.symm
    | none =>
      simp only [appendUnlessKeyed, insertEntry, ok_iff, mapError_ok_iff, Prod.mk.injEq] at h
      obtain ⟨-, -, entry, hnew, -, htexts, rfl, rfl⟩ := h
      refine .inr ⟨rfl, ⟨hfresh, ?_, by simpa [and_assoc] using htexts, entry, hnew, rfl, rfl⟩⟩
      intro key hkey
      have hkey : event.idempotencyKey = some key := hkey
      simp only [entryForKey, hkey, entryByIdempotencyKey, decodeFound_ok_iff] at hkeyed
      simpa using List.find?_eq_none.mp hkeyed.1.symm

/-! ### When an append inserts -/

/-- What an event must have to be journaled at all, wherever it comes in the journal. -/
structure Event.Appendable (event : Event) : Prop where
  fields : event.id ≠ "" ∧ event.eventType ≠ "" ∧ event.source ≠ ""
  payload : ∃ bytes, canonicalPayload event.payload = .ok bytes
  timestamp : -2 ^ 63 ≤ event.timestampMs ∧ event.timestampMs < 2 ^ 64
  texts : sqlText event.id ∧ sqlText event.eventType ∧ sqlText event.source

/-- Every event with a time in range has an address, whatever entry it follows. -/
theorem exists_entryAddress (event : Event) (payloadAddress : Hash) (previous : Option Hash)
    (hfields : event.id ≠ "" ∧ event.eventType ≠ "" ∧ event.source ≠ "") :
    (∃ address, entryAddress event payloadAddress previous = .ok address) ↔
      -2 ^ 63 ≤ event.timestampMs ∧ event.timestampMs < 2 ^ 64 := by
  have hvalid : validateIdentityFields event = .ok () := validateIdentityFields_ok_iff.mpr hfields
  have htext : ∀ text : Option String,
      (optionalText text).canonical = .ok (optionalText text) := by
    intro text
    cases text <;> rfl
  have hhash : (optionalHash previous).canonical = .ok (optionalHash previous) := by
    cases previous <;> rfl
  simp only [entryAddress, canonicalChainBytes, hvalid, ok_bind, Value.canonical,
    Value.canonicalList, htext, hhash, pythonNumber]
  by_cases htime : -2 ^ 63 ≤ event.timestampMs ∧ event.timestampMs < 2 ^ 64
  · rw [if_pos htime]
    exact iff_of_true ⟨_, rfl⟩ htime
  · rw [if_neg htime]
    refine iff_of_false (fun h => ?_) htime
    obtain ⟨_, h⟩ := h
    cases h

/-- Whether an event becomes an entry does not depend on the entries before it. -/
theorem exists_new_iff {cursor : ℕ} (previous : Option Hash) (hcursor : cursor ≠ 0) :
    (∃ entry, JournalEntry.new event cursor previous = .ok entry) ↔
      (event.id ≠ "" ∧ event.eventType ≠ "" ∧ event.source ≠ "") ∧
      (∃ bytes, canonicalPayload event.payload = .ok bytes) ∧
      -2 ^ 63 ≤ event.timestampMs ∧ event.timestampMs < 2 ^ 64 := by
  simp only [JournalEntry.new_ok_iff]
  constructor
  · rintro ⟨_, -, hfields, bytes, hbytes, address, haddress, -⟩
    refine ⟨hfields, ⟨bytes, hbytes⟩, ?_⟩
    exact (exists_entryAddress { event with cursor := some cursor } _ previous hfields).mp
      ⟨address, haddress⟩
  · rintro ⟨hfields, ⟨bytes, hbytes⟩, htime⟩
    obtain ⟨address, haddress⟩ := (exists_entryAddress { event with cursor := some cursor }
      (payloadAddress bytes) previous hfields).mpr htime
    exact ⟨_, hcursor, hfields, bytes, hbytes, address, haddress, rfl⟩

theorem appendUnlessKeyed_none (journal : List JournalEntry) (event : Event) :
    appendUnlessKeyed journal event none = insertEntry journal event := by
  rw [appendUnlessKeyed]

/-- An event whose id and key are new is inserted or rejected, but not looked up. -/
theorem appendInTransaction_of_fresh
    (hid : ∀ entry ∈ journal, entry.event.id ≠ event.id)
    (hkey : ∀ key ∈ event.idempotencyKey, ∀ entry ∈ journal,
      entry.event.idempotencyKey ≠ some key) :
    appendInTransaction journal event = insertEntry journal event := by
  have hidentified : entryByEventId journal event.id = .ok none := by
    have hfind : (journal.find? fun entry => entry.event.id = event.id) = none := by
      simpa using hid
    rw [entryByEventId, hfind, decodeFound]
  have hkeyed : entryForKey journal event.idempotencyKey = .ok none := by
    cases hsome : event.idempotencyKey with
    | none => rfl
    | some key =>
      have hfind : (journal.find? fun entry => entry.event.idempotencyKey = some key) = none := by
        simpa using hkey key hsome
      rw [entryForKey, entryByIdempotencyKey, hfind, decodeFound]
  rw [appendInTransaction, hidentified, ok_bind, appendUnlessIdentified, hkeyed, ok_bind,
    appendUnlessKeyed_none]

/-- An append inserts an event if and only if the event can be journaled, no entry has its id or its
key, and there is a cursor left. -/
theorem appendInTransaction_inserts_iff :
    (∃ r, appendInTransaction journal event = .ok r ∧ r.1.inserted = true) ↔
      event.Appendable ∧ (∀ entry ∈ journal, entry.event.id ≠ event.id) ∧
      (∀ key ∈ event.idempotencyKey, ∀ entry ∈ journal, entry.event.idempotencyKey ≠ some key) ∧
      (nextCursor journal : Int) ≤ i64Max := by
  have hcursor : nextCursor journal ≠ 0 := Nat.succ_ne_zero _
  constructor
  · rintro ⟨⟨outcome, journal'⟩, h, hins⟩
    rcases appendInTransaction_ok h with ⟨hno, -⟩ | ⟨-, hinserted⟩
    · rw [hno] at hins
      cases hins
    · rw [appendInTransaction_of_fresh hinserted.fresh_id hinserted.fresh_key] at h
      simp only [insertEntry, ok_iff, mapError_ok_iff] at h
      obtain ⟨-, hroom, entry, hnew, -⟩ := h
      obtain ⟨hfields, hpayload, htime⟩ := (exists_new_iff (head journal) hcursor).mp ⟨entry, hnew⟩
      exact ⟨⟨hfields, hpayload, htime, hinserted.texts⟩, hinserted.fresh_id, hinserted.fresh_key,
        hroom⟩
  · rintro ⟨⟨hfields, hpayload, htime, htexts⟩, hid, hkey, hroom⟩
    obtain ⟨entry, hnew⟩ := (exists_new_iff (head journal) hcursor).mpr
      ⟨hfields, hpayload, htime⟩
    refine ⟨(⟨entry.event, true⟩, journal ++ [entry.stored]), ?_, rfl⟩
    rw [appendInTransaction_of_fresh hid hkey]
    simp only [insertEntry, ok_iff, mapError_ok_iff]
    exact ⟨(), hroom, entry, hnew, (), by simpa [and_assoc] using htexts, rfl⟩

theorem appendLifecycleCandidate_ok_iff {r : AppendOutcome × List JournalEntry} :
    appendLifecycleCandidate journal event = .ok r ↔ appendInTransaction journal event = .ok r := by
  simp [appendLifecycleCandidate]

end Append

/-- Two events that say the same, whatever cursors they carry. -/
def sameLogicalEvent (candidate retained : Event) : Bool :=
  candidate.id = retained.id && candidate.eventType = retained.eventType
    && candidate.source = retained.source && Map.same candidate.payload retained.payload
    && candidate.idempotencyKey = retained.idempotencyKey
    && candidate.causedBy = retained.causedBy && candidate.sessionId = retained.sessionId
    && candidate.runId = retained.runId && candidate.turnId = retained.turnId
    && candidate.timestampMs = retained.timestampMs

/-- Two lifecycle events that say the same, whatever their ids and times. -/
def sameLifecycleIntention (candidate retained : Event) : Bool :=
  candidate.eventType = retained.eventType && candidate.source = retained.source
    && Map.same candidate.payload retained.payload
    && candidate.idempotencyKey = retained.idempotencyKey
    && candidate.causedBy = retained.causedBy && candidate.sessionId = retained.sessionId
    && candidate.runId = retained.runId && candidate.turnId = retained.turnId

/-- Reject a list of generated identities that repeats an id. -/
def validateDistinctRuntimeIdentities :
    List RuntimeEventIdentity → List String → Except DispatchError Unit
  | [], _ => .ok ()
  | identity :: identities, seen => do
    ensure (identity.id ∉ seen) (.duplicateRuntimeEventIdentity identity.id)
    validateDistinctRuntimeIdentities identities (identity.id :: seen)

theorem validateDistinctRuntimeIdentities_of_nodup {identities : List RuntimeEventIdentity}
    {seen : List String} (h : (identities.map (·.id) ++ seen).Nodup) :
    validateDistinctRuntimeIdentities identities seen = .ok () := by
  induction identities generalizing seen with
  | nil => rfl
  | cons identity identities ih =>
    have hnodup := List.nodup_cons.mp h
    simp only [validateDistinctRuntimeIdentities, ok_iff]
    exact ⟨(), fun hseen => hnodup.1 (List.mem_append_right _ hseen), ih (List.nodup_middle.mpr h)⟩

end Zeta
