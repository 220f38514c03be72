import ZetaRuntime.Json

/-!
# The journal: events, addresses and verification

An event is journaled as an entry: the event, its canonical payload bytes, the address of those
bytes, the address of the preceding entry and its own address. The addresses are hashes, and
hashing is a parameter of the development. Nothing below assumes that hashes do not collide: what
verification needs is that recomputing an address gives the stored one, which holds for any
function.

`verify` walks a retained journal and recomputes everything. It is the first thing a projection
rebuild does, so a store whose journal does not verify cannot be rebuilt at all.
`Sound` says what the writer maintains: the walk succeeds and remembers exactly the entries.
-/

namespace Zeta

open Outcome

variable {cursor : ℕ}

/-- A content address, kept as its text. -/
structure Hash where
  text : String
  deriving DecidableEq, Repr

/-- What gets hashed: the bytes of a canonical JSON tree, or a text. -/
inductive Bytes where
  | json (value : Value)
  | text (s : String)
  deriving DecidableEq, Repr

/-- Keeps addresses of different kinds of values apart. -/
inductive Domain where
  | object
  | derivation
  | chain
  deriving DecidableEq, Repr

/-- An event before its durable identity and time are assigned. -/
structure DraftEvent where
  eventType : String
  source : String
  payload : Map
  idempotencyKey : Option String
  causedBy : Option String
  sessionId : Option String
  runId : Option String
  turnId : Option String
  deriving DecidableEq, Repr

/-- One caller-visible event; the journal assigns the cursor when it inserts it. -/
structure Event where
  id : String
  eventType : String
  source : String
  payload : Map
  idempotencyKey : Option String
  causedBy : Option String
  sessionId : Option String
  runId : Option String
  turnId : Option String
  timestampMs : Int
  cursor : Option ℕ
  deriving DecidableEq, Repr

/-- Unicode white space, which `trim` removes. -/
def isWhitespace (c : Char) : Bool :=
  let n := c.toNat
  (9 ≤ n && n ≤ 13) || n = 32 || n = 0x85 || n = 0xA0 || n = 0x1680 ||
    (0x2000 ≤ n && n ≤ 0x200A) || n = 0x2028 || n = 0x2029 || n = 0x202F || n = 0x205F || n = 0x3000

/-- Drop leading and trailing white space. -/
def trim (s : String) : String :=
  String.ofList ((s.toList.dropWhile isWhitespace).reverse.dropWhile isWhitespace).reverse

/-- Create an event with caller-supplied identity and time. A blank idempotency key is no key. -/
def Event.fromDraft (id : String) (timestampMs : Int) (draft : DraftEvent) : Event where
  id
  eventType := draft.eventType
  source := draft.source
  payload := draft.payload
  idempotencyKey := draft.idempotencyKey.bind fun key =>
    if trim key = "" then none else some (trim key)
  causedBy := draft.causedBy
  sessionId := draft.sessionId
  runId := draft.runId
  turnId := draft.turnId
  timestampMs
  cursor := none

/-- Whether a text starts with another. -/
def startsWith (text start : String) : Bool := start.toList.isPrefixOf text.toList

theorem startsWith_append (start rest : String) : startsWith (start ++ rest) start = true := by
  rw [startsWith, String.toList_append, List.isPrefixOf_iff_prefix]
  exact List.prefix_append _ _

/-- Why an event cannot be appended. -/
inductive AppendError where
  | emptyId
  | emptyEventType
  | emptySource
  | cursorZero
  | cursorExhausted
  | payloadEncoding (error : CanonicalJsonError)
  | duplicateIdPayloadMismatch
  deriving DecidableEq, Repr

/-- How a retained journal diverges from what its addresses promise. -/
inductive VerificationErrorKind where
  | cursorOrder (previous actual : Option ℕ)
  | duplicateId
  | duplicateIdempotencyKey (key : String)
  | payloadEncoding
  | payloadAddressMismatch (expected actual : Hash)
  | previousAddressMismatch (expected actual : Option Hash)
  | entryAddressMismatch (expected : Option Hash) (actual : Hash)
  | expectedHeadMismatch (expected actual : Option Hash)
  deriving DecidableEq, Repr

/-- The first divergence found, and where. -/
structure VerificationError where
  entriesChecked : ℕ
  eventId : Option String
  cursor : Option ℕ
  kind : VerificationErrorKind
  deriving DecidableEq, Repr

/-- What a successful verification established. -/
structure VerificationReport where
  entriesChecked : ℕ
  head : Option Hash
  deriving DecidableEq, Repr

/-- One durable event with its identity proof. The payload bytes are represented by the canonical
tree they encode. -/
structure JournalEntry where
  event : Event
  payloadBytes : Map
  payloadAddress : Hash
  previousAddress : Option Hash
  entryAddress : Hash
  deriving DecidableEq, Repr

/-- Unanchored verification, or an exact trusted head. -/
inductive HeadExpectation where
  | unanchored
  | exact (head : Option Hash)
  deriving DecidableEq, Repr

/-- Why a session template could not be rendered. -/
inductive SessionError where
  | malformedTemplate (template : String)
  | missingField (field : String)
  | invalidField (field : String)
  | invalidFormat (specification : String)
  deriving DecidableEq, Repr

/-- A UTC date and time. -/
structure CivilTime where
  year : Int
  month : ℕ
  day : ℕ
  hour : ℕ
  minute : ℕ
  second : ℕ
  nanosecond : ℕ
  deriving DecidableEq, Repr

/-- The code the model calls and does not contain: hashing, civil time, and the rendering of session
templates by a Python-style formatter. -/
class Platform extends FloatText where
  /-- The domainless address of bytes. -/
  hashBytes : Bytes → Hash
  /-- The address of bytes in one domain. -/
  derive : Domain → Bytes → Hash
  /-- The instant an RFC 3339 text denotes, in nanoseconds since the Unix epoch. -/
  parseRfc3339 : String → Option Int
  /-- The UTC date and time of an instant in nanoseconds since the Unix epoch, if it has one. -/
  civilTime : Int → Option CivilTime
  /-- The text of a session template over the fields of an event. -/
  renderEventTemplate : String → Event → Except SessionError String

/-- An immutable value in the substrate. -/
structure Object where
  kind : String
  schema : String
  data : Map
  links : List String

/-- The JSON value of an object's identity-bearing fields. -/
def Object.toValue (o : Object) : Value := .object [
  ("kind", .string o.kind),
  ("schema", .string o.schema),
  ("data", .object o.data),
  ("links", .array (o.links.map .string))]

section Chain

variable [Platform]

variable {event : Event} {entry : JournalEntry} {entries : List JournalEntry}

/-- The content address of an object. -/
def Object.contentAddress (o : Object) : Except CanonicalJsonError Hash := do
  let bytes ← o.toValue.canonical
  return Platform.derive .object (.json bytes)

/-- The content address of exact payload bytes. -/
def payloadAddress (payloadBytes : Map) : Hash := Platform.hashBytes (.json (.object payloadBytes))

/-- The identity fields every journaled event must have. -/
def validateIdentityFields (event : Event) : Except AppendError Unit := do
  ensure (event.id ≠ "") .emptyId
  ensure (event.eventType ≠ "") .emptyEventType
  ensure (event.source ≠ "") .emptySource

/-- A text or null. -/
def optionalText : Option String → Value
  | some value => .string value
  | none => .null

/-- An address or null. -/
def optionalHash : Option Hash → Value
  | some value => .string value.text
  | none => .null

/-- The version-0 chain input, in its exact positional order. -/
def canonicalChainBytes (event : Event) (payloadAddress : Hash) (previousAddress : Option Hash) :
    Except AppendError Value := do
  validateIdentityFields event
  let value := Value.array [
    .number (.int 0),
    .string event.id,
    .string event.eventType,
    .string event.source,
    .string payloadAddress.text,
    optionalText event.idempotencyKey,
    optionalText event.causedBy,
    optionalText event.sessionId,
    optionalText event.runId,
    optionalText event.turnId,
    .number (.int event.timestampMs),
    optionalHash previousAddress]
  value.canonical.mapError .payloadEncoding

/-- The chain-domain address of one canonical journal entry. -/
def entryAddress (event : Event) (payloadAddress : Hash) (previousAddress : Option Hash) :
    Except AppendError Hash := do
  let bytes ← canonicalChainBytes event payloadAddress previousAddress
  return Platform.derive .chain (.json bytes)

/-- Create one complete entry and assign its positive cursor. -/
def JournalEntry.new (event : Event) (cursor : ℕ) (previousAddress : Option Hash) :
    Except AppendError JournalEntry := do
  ensure (cursor ≠ 0) .cursorZero
  validateIdentityFields event
  let payloadBytes ← (canonicalPayload event.payload).mapError .payloadEncoding
  let payloadAddress := Zeta.payloadAddress payloadBytes
  let event : Event := { event with cursor := some cursor }
  let entryAddress ← Zeta.entryAddress event payloadAddress previousAddress
  return { event, payloadBytes, payloadAddress, previousAddress, entryAddress }

/-! ### Verification -/

/-- What the walk over a journal remembers. -/
structure VerifyState where
  previousAddress : Option Hash
  previousCursor : Option ℕ
  seenIds : List String
  seenIdempotencyKeys : List String
  entriesChecked : ℕ
  lastEventId : Option String
  lastCursor : Option ℕ
  deriving DecidableEq, Repr

/-- The start of the walk. -/
def VerifyState.start : VerifyState := ⟨none, none, [], [], 0, none, none⟩

/-- Whether a cursor is positive and larger than the preceding one. -/
def cursorIsValid (previous : Option ℕ) : Option ℕ → Bool
  | some cursor => 0 < cursor && match previous with
    | some previous => previous < cursor
    | none => true
  | none => false

/-- Record an idempotency key that has not been seen. -/
def seeIdempotencyKey (seen : List String) (error : String → VerificationError) :
    Option String → Except VerificationError (List String)
  | some key => do
    ensure (key ∉ seen) (error key)
    return key :: seen
  | none => .ok seen

/-- Check one entry against everything before it. -/
def verifyEntry (s : VerifyState) (entry : JournalEntry) :
    Except VerificationError VerifyState := do
  let event := entry.event
  let verificationError kind : VerificationError :=
    ⟨s.entriesChecked, some event.id, event.cursor, kind⟩
  ensure (cursorIsValid s.previousCursor event.cursor)
    (verificationError (.cursorOrder s.previousCursor event.cursor))
  ensure (event.id ∉ s.seenIds) (verificationError .duplicateId)
  let seenIdempotencyKeys ← seeIdempotencyKey s.seenIdempotencyKeys
    (fun key => verificationError (.duplicateIdempotencyKey key)) event.idempotencyKey
  let payload ← (canonicalPayload event.payload).mapError fun _ =>
    verificationError .payloadEncoding
  ensure (entry.payloadBytes = payload) (verificationError .payloadEncoding)
  let expectedPayloadAddress := payloadAddress payload
  ensure (entry.payloadAddress = expectedPayloadAddress)
    (verificationError (.payloadAddressMismatch expectedPayloadAddress entry.payloadAddress))
  ensure (entry.previousAddress = s.previousAddress)
    (verificationError (.previousAddressMismatch s.previousAddress entry.previousAddress))
  let expectedEntryAddress :=
    (entryAddress event expectedPayloadAddress s.previousAddress).toOption
  ensure (expectedEntryAddress = some entry.entryAddress)
    (verificationError (.entryAddressMismatch expectedEntryAddress entry.entryAddress))
  return {
    previousAddress := expectedEntryAddress
    previousCursor := event.cursor
    seenIds := event.id :: s.seenIds
    seenIdempotencyKeys
    entriesChecked := s.entriesChecked + 1
    lastEventId := some event.id
    lastCursor := event.cursor }

/-- Verify an ordered retained journal and its optional external anchor. -/
def verify (entries : List JournalEntry) (expectation : HeadExpectation) :
    Except VerificationError VerificationReport := do
  let s ← foldOk verifyEntry .start entries
  match expectation with
  | .unanchored => pure ()
  | .exact expected =>
    ensure (s.previousAddress = expected)
      ⟨s.entriesChecked, s.lastEventId, s.lastCursor,
        .expectedHeadMismatch expected s.previousAddress⟩
  return ⟨s.entriesChecked, s.previousAddress⟩

/-! ### What the writer maintains -/

omit [Platform] in
@[simp] theorem validateIdentityFields_ok_iff {u : Unit} :
    validateIdentityFields event = .ok u ↔
      event.id ≠ "" ∧ event.eventType ≠ "" ∧ event.source ≠ "" := by
  simp [validateIdentityFields]

/-- When an event can be appended, and the entry it becomes. -/
theorem JournalEntry.new_ok_iff {previous : Option Hash} :
    JournalEntry.new event cursor previous = .ok entry ↔
      cursor ≠ 0 ∧ (event.id ≠ "" ∧ event.eventType ≠ "" ∧ event.source ≠ "") ∧
      ∃ bytes, canonicalPayload event.payload = .ok bytes ∧
      ∃ address, Zeta.entryAddress { event with cursor := some cursor }
          (Zeta.payloadAddress bytes) previous = .ok address ∧
        entry = ⟨{ event with cursor := some cursor }, bytes, Zeta.payloadAddress bytes,
          previous, address⟩ := by
  simp only [JournalEntry.new, ok_iff, validateIdentityFields_ok_iff, mapError_ok_iff]
  constructor
  · rintro ⟨-, hcursor, -, hfields, bytes, hbytes, address, haddress, rfl⟩
    exact ⟨hcursor, hfields, bytes, hbytes, address, haddress, rfl⟩
  · rintro ⟨hcursor, hfields, bytes, hbytes, address, haddress, rfl⟩
    exact ⟨(), hcursor, (), hfields, bytes, hbytes, address, haddress, rfl⟩

omit [Platform] in
/-- The entry as it is read back: the payload is what its bytes encode. -/
def JournalEntry.stored (entry : JournalEntry) : JournalEntry :=
  { entry with event := { entry.event with payload := entry.payloadBytes } }

/-- What the walk over a sound journal has seen at its end. -/
def VerifyState.after (entries : List JournalEntry) : VerifyState where
  previousAddress := entries.getLast?.map (·.entryAddress)
  previousCursor := entries.getLast?.bind (·.event.cursor)
  seenIds := (entries.map (·.event.id)).reverse
  seenIdempotencyKeys := (entries.filterMap (·.event.idempotencyKey)).reverse
  entriesChecked := entries.length
  lastEventId := entries.getLast?.map (·.event.id)
  lastCursor := entries.getLast?.bind (·.event.cursor)

/-- A journal every entry of which recomputes to what is stored. -/
def Sound (entries : List JournalEntry) : Prop :=
  foldOk verifyEntry .start entries = .ok (.after entries)

theorem sound_nil : Sound [] := rfl

/-- A sound journal verifies. -/
theorem verify_of_sound (h : Sound entries) :
    verify entries .unanchored
      = .ok ⟨entries.length, entries.getLast?.map (·.entryAddress)⟩ := by
  simp only [verify, show foldOk verifyEntry .start entries = _ from h, ok_bind]
  rfl

omit [Platform] in
theorem seeIdempotencyKey_of {seen : List String} {error : String → VerificationError}
    {key : Option String} (h : ∀ k ∈ key, k ∉ seen) :
    seeIdempotencyKey seen error key = .ok (key.toList ++ seen) := by
  cases key with
  | none => rfl
  | some k => simp only [seeIdempotencyKey, ensure_of (h k rfl), ok_bind]; rfl

/-- An entry that fits the walk so far passes, and the walk remembers it. -/
theorem verifyEntry_of {s : VerifyState} (entry : JournalEntry)
    (hcursor : cursorIsValid s.previousCursor entry.event.cursor = true)
    (hid : entry.event.id ∉ s.seenIds)
    (hkey : ∀ key ∈ entry.event.idempotencyKey, key ∉ s.seenIdempotencyKeys)
    (hbytes : canonicalPayload entry.event.payload = .ok entry.payloadBytes)
    (hpayload : entry.payloadAddress = payloadAddress entry.payloadBytes)
    (hprevious : entry.previousAddress = s.previousAddress)
    (haddress : entryAddress entry.event entry.payloadAddress s.previousAddress
      = .ok entry.entryAddress) :
    verifyEntry s entry = .ok {
      previousAddress := some entry.entryAddress
      previousCursor := entry.event.cursor
      seenIds := entry.event.id :: s.seenIds
      seenIdempotencyKeys := entry.event.idempotencyKey.toList ++ s.seenIdempotencyKeys
      entriesChecked := s.entriesChecked + 1
      lastEventId := some entry.event.id
      lastCursor := entry.event.cursor } := by
  rw [hpayload] at haddress
  unfold verifyEntry
  simp only [ensure_of hcursor, ok_bind, ensure_of hid, seeIdempotencyKey_of hkey, hbytes,
    Except.mapError, ensure_of hpayload, ensure_of hprevious, haddress, Except.toOption]
  rfl

/-- Appending an entry with a fresh identity and the next cursor keeps a journal sound. The payload
is compared with what was read back, so this is where encoding has to be idempotent. -/
theorem Sound.append [LawfulFloatText] (h : Sound entries)
    (hnew : JournalEntry.new event cursor (entries.getLast?.map (·.entryAddress)) = .ok entry)
    (hcursor : ∀ last ∈ entries.getLast?, ∀ previous ∈ last.event.cursor, previous < cursor)
    (hid : event.id ∉ entries.map (·.event.id))
    (hkey : ∀ key ∈ event.idempotencyKey, key ∉ entries.filterMap (·.event.idempotencyKey)) :
    Sound (entries ++ [entry.stored]) := by
  obtain ⟨hpos, -, bytes, hbytes, address, haddress, rfl⟩ := JournalEntry.new_ok_iff.mp hnew
  have hvalid : cursorIsValid (VerifyState.after entries).previousCursor (some cursor) = true := by
    simp only [cursorIsValid, VerifyState.after, Bool.and_eq_true, decide_eq_true_eq]
    refine ⟨Nat.pos_of_ne_zero hpos, ?_⟩
    cases hlast : entries.getLast? with
    | none => rfl
    | some last =>
      cases hprev : last.event.cursor with
      | none => simp [hprev]
      | some previous => simpa [hprev] using hcursor last hlast previous hprev
  have hstep := verifyEntry_of (s := .after entries)
    (JournalEntry.stored ⟨{ event with cursor := some cursor }, bytes,
      payloadAddress bytes, entries.getLast?.map (·.entryAddress), address⟩)
    hvalid (by simpa [VerifyState.after, JournalEntry.stored] using hid)
    (by simpa [VerifyState.after, JournalEntry.stored] using hkey)
    (canonicalPayload_idem hbytes) rfl rfl haddress
  unfold Sound
  rw [foldOk_append, show foldOk verifyEntry .start entries = _ from h, ok_bind, foldOk_cons, hstep]
  cases hk : event.idempotencyKey <;>
    simp [VerifyState.after, JournalEntry.stored]

/-- No two entries of a sound journal have the same id or the same idempotency key. -/
theorem Sound.nodup (h : Sound entries) :
    (entries.map (·.event.id)).Nodup ∧ (entries.filterMap (·.event.idempotencyKey)).Nodup := by
  -- The walk refuses what it has seen, so what it has seen stays free of repeats.
  have hseen := foldOk_invariant
    (P := fun s : VerifyState => s.seenIds.Nodup ∧ s.seenIdempotencyKeys.Nodup)
    (fun s _ entry _ hs hstep => ?_) ⟨List.nodup_nil, List.nodup_nil⟩ h
  · simpa only [VerifyState.after, List.nodup_reverse] using hseen
  · simp only [verifyEntry, ok_iff] at hstep
    obtain ⟨_, -, _, hid, keys, hkeys, _, -, _, -, _, -, _, -, _, -, rfl⟩ := hstep
    refine ⟨List.nodup_cons.mpr ⟨hid, hs.1⟩, ?_⟩
    cases hkey : entry.event.idempotencyKey with
    | none =>
      simp only [hkey, seeIdempotencyKey, Except.ok.injEq] at hkeys
      exact hkeys ▸ hs.2
    | some key =>
      simp only [hkey, seeIdempotencyKey, ok_iff] at hkeys
      obtain ⟨_, hfresh, rfl⟩ := hkeys
      exact List.nodup_cons.mpr ⟨hfresh, hs.2⟩

/-- A sound journal has one entry for a key. -/
theorem Sound.eq_of_key (h : Sound entries) {first second : JournalEntry} (hfirst : first ∈ entries)
    (hsecond : second ∈ entries) {key : String} (hkey : first.event.idempotencyKey = some key)
    (hkey' : second.event.idempotencyKey = some key) : first = second := by
  have hnodup := h.nodup.2
  clear h
  induction entries with
  | nil => cases hfirst
  | cons entry entries ih =>
    have hrest : (entries.filterMap (·.event.idempotencyKey)).Nodup :=
      hnodup.sublist ((List.sublist_cons_self entry entries).filterMap _)
    -- The key of the head is not the key of a later entry.
    have hhead : ∀ other ∈ entries, entry.event.idempotencyKey = some key →
        other.event.idempotencyKey ≠ some key := by
      intro other hother hentry hkeyed
      simp only [List.filterMap_cons, hentry, List.nodup_cons] at hnodup
      exact hnodup.1 (List.mem_filterMap.mpr ⟨other, hother, hkeyed⟩)
    rcases List.mem_cons.mp hfirst with rfl | hlater
    · rcases List.mem_cons.mp hsecond with rfl | hlater
      · rfl
      · exact absurd hkey' (hhead second hlater hkey)
    · rcases List.mem_cons.mp hsecond with rfl | hlater'
      · exact absurd hkey (hhead first hlater hkey')
      · exact ih hlater hlater' hrest

end Chain

end Zeta
