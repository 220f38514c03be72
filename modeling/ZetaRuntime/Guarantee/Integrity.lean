import Mathlib.Data.List.Induction
import ZetaRuntime.Guarantee.Deliveries
import ZetaRuntime.Guarantee.Encoding

/-!
# The integrity of the journal

Every run leaves a journal that recomputes: each entry has the next cursor, a new id and a new key,
the canonical bytes of its payload, and the addresses of these bytes and of the entry before it.
What the verifier reads is the journal as it is decoded from the database, and decoding fails for a
payload that is nested too deep, so verification of a stored journal passes if and only if every
payload can be read.

The chain commits to its entries. If hashing has no collisions, two journals with one head have the
same entries, as far as the chain describes them: a payload is described by its canonical bytes,
which do not tell `1.0` from `1.00`.
-/

namespace Zeta

open Outcome

variable {error : DispatchError} {payload : Hash} {entry : JournalEntry}
  {entries : List JournalEntry} {previous previous' : Option Hash} {s : Store} {s' : VerifyState}

/-! ### What a head commits to -/

section Chain

variable [Platform]

/-- The value whose canonical bytes are hashed into the address of an entry. -/
def chainInput (event : Event) (payloadAddress : Hash) (previousAddress : Option Hash) :
    Value := .array [
  .number (.int 0),
  .string event.id,
  .string event.eventType,
  .string event.source,
  .string payloadAddress.text,
  optionalText event.idempotencyKey,
  optionalText event.causedBy,
  optionalText event.sessionId,
  optionalText event.runId,
  optionalText event.turnId,
  .number (.int event.timestampMs),
  optionalHash previousAddress]

omit [Platform] in
theorem optionalText_inj {a b : Option String} (h : optionalText a = optionalText b) : a = b := by
  cases a <;> cases b <;> simp_all [optionalText]

omit [Platform] in
theorem optionalHash_inj {a b : Option Hash} (h : optionalHash a = optionalHash b) : a = b := by
  cases a with
  | none => cases b with
    | none => rfl
    | some b => cases h
  | some a => cases b with
    | none => cases h
    | some b =>
      obtain ⟨a⟩ := a
      obtain ⟨b⟩ := b
      cases h
      rfl

/-- The bytes of an entry are those of its twelve fields. -/
theorem canonicalChainBytes_ok {event : Event} {bytes : Value}
    (h : canonicalChainBytes event payload previous = .ok bytes) :
    bytes = chainInput event payload previous := by
  have htext : ∀ text : Option String, (optionalText text).canonical = .ok (optionalText text) := by
    intro text
    cases text <;> rfl
  have hhash : (optionalHash previous).canonical = .ok (optionalHash previous) := by
    cases previous <;> rfl
  simp only [canonicalChainBytes, bind_ok_iff, mapError_ok_iff] at h
  obtain ⟨-, -, h⟩ := h
  by_cases htime : -2 ^ 63 ≤ event.timestampMs ∧ event.timestampMs < 2 ^ 64
  · simp only [Value.canonical, Value.canonicalList, htext, hhash, pythonNumber, if_pos htime] at h
    exact (Except.ok.inj h).symm
  · simp only [Value.canonical, Value.canonicalList, htext, hhash, pythonNumber, if_neg htime] at h
    cases h

omit [Platform] in
/-- The fields of an entry can be told apart: none of them is lost in the value that is hashed. -/
theorem chainInput_inj {event event' : Event} {payload' : Hash}
    (h : chainInput event payload previous = chainInput event' payload' previous') :
    (event.id = event'.id ∧ event.eventType = event'.eventType ∧ event.source = event'.source ∧
      event.idempotencyKey = event'.idempotencyKey ∧ event.causedBy = event'.causedBy ∧
      event.sessionId = event'.sessionId ∧ event.runId = event'.runId ∧
        event.turnId = event'.turnId ∧
      event.timestampMs = event'.timestampMs) ∧
      payload = payload' ∧ previous = previous' := by
  obtain ⟨payload⟩ := payload
  obtain ⟨payload'⟩ := payload'
  simp only [chainInput, Value.array.injEq, List.cons.injEq, Value.string.injEq, Value.number.injEq,
    Number.int.injEq, true_and, and_true] at h
  obtain ⟨hid, htype, hsource, hpayload, hkey, hcaused, hsession, hrun, hturn, htime,
    hprevious⟩ := h
  exact ⟨⟨hid, htype, hsource, optionalText_inj hkey, optionalText_inj hcaused,
    optionalText_inj hsession,
    optionalText_inj hrun, optionalText_inj hturn, htime⟩, congrArg Hash.mk hpayload,
    optionalHash_inj hprevious⟩

omit [Platform] in
theorem all_chainInput {q : Value → Bool} (harray : ∀ vs, q (.array vs) = true)
    (hnull : q .null = true) (hstring : ∀ text, q (.string text) = true)
    (hint : ∀ n, q (.number (.int n)) = true) (event : Event) (payload : Hash)
    (previous : Option Hash) : (chainInput event payload previous).all q = true := by
  have htext : ∀ text : Option String, (optionalText text).all q = true := by
    intro text
    cases text with
    | none => exact hnull
    | some text => exact hstring text
  have hhash : (optionalHash previous).all q = true := by
    cases previous with
    | none => exact hnull
    | some address => exact hstring address.text
  simp only [chainInput, Value.all, Value.allList, harray, hstring, hint, htext, hhash,
    Bool.and_self]

/-- The checks that tie an entry to the walk so far. -/
theorem verifyEntry_ok {s : VerifyState} (h : verifyEntry s entry = .ok s') :
    ∃ payload address, canonicalPayload entry.event.payload = .ok payload ∧
      entryAddress entry.event (payloadAddress payload) s.previousAddress = .ok address ∧
      s'.previousAddress = some address := by
  simp only [verifyEntry, ok_iff, mapError_ok_iff] at h
  obtain ⟨-, -, -, -, -, -, payload, hpayload, -, -, -, -, -, -, -, haddress, rfl⟩ := h
  refine ⟨payload, entry.entryAddress, hpayload, ?_, haddress⟩
  cases hentry : entryAddress entry.event (payloadAddress payload) s.previousAddress with
  | error e => simp [hentry, Except.toOption] at haddress
  | ok address =>
    simp only [hentry, Except.toOption, Option.some.injEq] at haddress
    rw [haddress]

/-- A walk over some entries and one more. -/
theorem walk_concat (h : foldOk verifyEntry .start (entries ++ [entry]) = .ok s') :
    ∃ s payload address, foldOk verifyEntry .start entries = .ok s ∧
      canonicalPayload entry.event.payload = .ok payload ∧
      entryAddress entry.event (payloadAddress payload) s.previousAddress = .ok address ∧
      s'.previousAddress = some address := by
  simp only [foldOk_append, foldOk_cons, foldOk_nil, bind_ok_iff, Except.ok.injEq,
    exists_eq_right] at h
  obtain ⟨s, hs, hentry⟩ := h
  obtain ⟨payload, address, hpayload, haddress, hhead⟩ := verifyEntry_ok hentry
  exact ⟨s, payload, address, hs, hpayload, haddress, hhead⟩

variable [StringText]

/-- Different bytes have different addresses, plain ones and those in the domain of the chain. -/
structure NoCollisions : Prop where
  hash : ∀ a b : Value, Platform.hashBytes (.json a) = Platform.hashBytes (.json b) →
    render a = render b
  chain : ∀ a b : Value,
    Platform.derive .chain (.json a) = Platform.derive .chain (.json b) → render a = render b

/-- Two entries that say the same, whatever they are stored next to. -/
structure JournalEntry.Alike (entry entry' : JournalEntry) : Prop where
  fields : entry.event.id = entry'.event.id ∧ entry.event.eventType = entry'.event.eventType ∧
    entry.event.source = entry'.event.source ∧
    entry.event.idempotencyKey = entry'.event.idempotencyKey ∧
    entry.event.causedBy = entry'.event.causedBy ∧ entry.event.sessionId = entry'.event.sessionId ∧
    entry.event.runId = entry'.event.runId ∧ entry.event.turnId = entry'.event.turnId ∧
    entry.event.timestampMs = entry'.event.timestampMs
  payload : ∃ bytes, canonicalJson (.object entry.event.payload) = .ok bytes ∧
    canonicalJson (.object entry'.event.payload) = .ok bytes

variable [LawfulStringText]

/-- One address is that of entries that say the same after one head. -/
theorem alike_of_entryAddress (hcollisions : NoCollisions) {entry' : JournalEntry}
    {payload payload' : Map} {address : Hash}
    (hpayload : canonicalPayload entry.event.payload = .ok payload)
    (hpayload' : canonicalPayload entry'.event.payload = .ok payload')
    (haddress : entryAddress entry.event (payloadAddress payload) previous = .ok address)
    (haddress' : entryAddress entry'.event (payloadAddress payload') previous' = .ok address) :
    entry.Alike entry' ∧ previous = previous' := by
  simp only [entryAddress, ok_iff] at haddress haddress'
  obtain ⟨bytes, hbytes, haddress⟩ := haddress
  obtain ⟨bytes', hbytes', haddress'⟩ := haddress'
  have hrender := hcollisions.chain bytes bytes' (haddress.trans haddress'.symm)
  rw [canonicalChainBytes_ok hbytes, canonicalChainBytes_ok hbytes'] at hrender
  have hinput := eq_of_render_eq
    (all_chainInput (fun _ => rfl) rfl (fun _ => rfl) (fun _ => rfl) _ _ _)
    (all_chainInput (fun _ => rfl) rfl (fun _ => rfl) (fun _ => rfl) _ _ _)
    (all_chainInput (fun _ => rfl) rfl (fun _ => rfl) (fun _ => rfl) _ _ _)
    (all_chainInput (fun _ => rfl) rfl (fun _ => rfl) (fun _ => rfl) _ _ _) hrender
  obtain ⟨hfields, hhash, hprevious⟩ := chainInput_inj hinput
  have hjson : ∀ {m m' : Map}, canonicalPayload m = .ok m' →
      canonicalJson (.object m) = .ok (render (.object m')) := by
    intro m m' h
    rw [canonicalJson_eq, canonical_object, h]
    rfl
  have htext := hcollisions.hash (.object payload) (.object payload') hhash
  exact ⟨⟨hfields, render (.object payload), hjson hpayload, htext ▸ hjson hpayload'⟩, hprevious⟩

/-- Walks that end with one address went over entries that say the same. -/
theorem alike_of_walk (hcollisions : NoCollisions) :
    ∀ {entries' : List JournalEntry} {s s' : VerifyState},
      foldOk verifyEntry .start entries = .ok s → foldOk verifyEntry .start entries' = .ok s' →
      s.previousAddress = s'.previousAddress →
        List.Forall₂ JournalEntry.Alike entries entries' := by
  -- from the last entry backwards, since only the head is known to agree
  induction entries using List.reverseRecOn with
  | nil =>
    intro entries' s s' hs hs' hhead
    cases hs
    rcases List.eq_nil_or_concat' entries' with rfl | ⟨rest, entry, rfl⟩
    · exact .nil
    · obtain ⟨t, payload, address, -, -, -, hlast⟩ := walk_concat hs'
      cases hhead.trans hlast
  | append_singleton entries entry ih =>
    intro entries' s s' hs hs' hhead
    obtain ⟨t, payload, address, ht, hpayload, haddress, hlast⟩ := walk_concat hs
    rcases List.eq_nil_or_concat' entries' with rfl | ⟨rest, entry', rfl⟩
    · cases hs'
      cases hlast.symm.trans hhead
    · obtain ⟨t', payload', address', ht', hpayload', haddress', hlast'⟩ := walk_concat hs'
      have heq : address' = address :=
        Option.some.inj (hlast'.symm.trans (hhead.symm.trans hlast))
      rw [heq] at haddress'
      obtain ⟨halike, hprevious⟩ :=
        alike_of_entryAddress hcollisions hpayload hpayload' haddress haddress'
      exact List.rel_append (ih ht ht' hprevious) (.cons halike .nil)

/-- Journals that verify against one head have as many entries, and entry by entry the same
identity, type, source, key, cause, session, run, turn and time, and payloads with the same
canonical bytes. -/
theorem alike_of_verify (hcollisions : NoCollisions) {entries entries' : List JournalEntry}
    {expected : Option Hash} {report report' : VerificationReport}
    (h : verify entries (.exact expected) = .ok report)
    (h' : verify entries' (.exact expected) = .ok report') :
    List.Forall₂ JournalEntry.Alike entries entries' := by
  simp only [verify, ok_iff] at h h'
  obtain ⟨s, hs, -, hhead, -⟩ := h
  obtain ⟨s', hs', -, hhead', -⟩ := h'
  exact alike_of_walk hcollisions hs hs' (hhead.trans hhead'.symm)

end Chain

namespace Sample

/-- A platform on which an address is the text of what was hashed, and two tokens denote one number.
-/
@[reducible] def spelling : Platform := {
  platform with
  parseF64 := fun token => if token = "1.0" ∨ token = "1.00" then some 1 else none
  displayF64 := fun _ => "1.0"
  hashBytes := fun
    | .json value => ⟨String.ofList (render value)⟩
    | .text text => ⟨text⟩
  derive := fun
    | _, .json value => ⟨String.ofList (render value)⟩
    | _, .text text => ⟨text⟩ }

theorem noCollisions_spelling : @NoCollisions spelling stringText := by
  have hinj : ∀ a b : Value,
      (⟨String.ofList (render a)⟩ : Hash) = ⟨String.ofList (render b)⟩ → render a = render b :=
    fun a b h => String.ofList_injective (Hash.mk.inj h)
  exact @NoCollisions.mk spelling stringText hinj hinj

/-- The journal with two events. The payload of the first one is one number. -/
def chained (n : Number) : List JournalEntry :=
  let entries : Except AppendError (List JournalEntry) := do
    let first ← @JournalEntry.new spelling (event "e" "note" [("x", .number n)]) 1 none
    let second ← @JournalEntry.new spelling (event "f" "note" []) 2 (some first.entryAddress)
    return [first, second]
  entries.toOption.getD []

/-- The head of the journal of `1.0`. -/
def chainedHead : Option Hash := (chained (.float "1.0")).getLast?.map (·.entryAddress)

theorem chained_verifies :
    ∃ report, @verify spelling (chained (.float "1.0")) (.exact chainedHead) = .ok report :=
  exists_ok (by decide +kernel)

theorem respelled_verifies :
    ∃ report, @verify spelling (chained (.float "1.00")) (.exact chainedHead) = .ok report :=
  exists_ok (by decide +kernel)

/-- The journals of `1.0` and of `1.00` verify against one head, and their payloads are different.
-/
theorem spelling_not_detected :
    @NoCollisions spelling stringText ∧
      (∃ report, @verify spelling (chained (.float "1.0")) (.exact chainedHead) = .ok report) ∧
      (∃ report, @verify spelling (chained (.float "1.00")) (.exact chainedHead) = .ok report) ∧
      ¬ List.Forall₂ (fun entry entry' => entry.event.payload.same entry'.event.payload = true)
        (chained (.float "1.0")) (chained (.float "1.00")) :=
  ⟨noCollisions_spelling, chained_verifies, respelled_verifies, by decide +kernel⟩

/-- The two journals agree in all that the chain describes, and both have two entries. -/
theorem chained_alike :
    (chained (.float "1.0")).length = 2 ∧
      List.Forall₂ (@JournalEntry.Alike spelling stringText) (chained (.float "1.0"))
        (chained (.float "1.00")) := by
  obtain ⟨report, h⟩ := chained_verifies
  obtain ⟨report', h'⟩ := respelled_verifies
  exact ⟨by decide +kernel,
    @alike_of_verify spelling stringText stringText_lawful noCollisions_spelling _ _ _ _ _ h h'⟩

end Sample

/-! ### Verification of what is stored -/

section Stored

/-- The error of a transaction, if it failed. -/
def errorOf {α : Type} : Except DispatchError α → Option DispatchError
  | .ok _ => none
  | .error error => some error

theorem commit_of_errorOf {α : Type} {r : Except DispatchError (α × Store)}
    (h : errorOf r = some error) : commit s r = s := by
  cases r with
  | ok r => cases h
  | error e => rfl

variable [Platform]

/-- Reconstruct and verify every retained entry. -/
def verifyJournal (s : Store) (expectation : HeadExpectation) :
    Except DispatchError VerificationReport := do
  let entries ← loadEntries s.journal
  (verify entries expectation).mapError .verification

/-- The error an operation returns, if it fails. -/
def failure (s : Store) : Op → Option DispatchError
  | .appendTrusted event => errorOf (appendTrustedEvent s event)
  | .ingest event => errorOf (ingestEvent s event)
  | .route eventId routes identities => errorOf (routeIngressEvent s eventId routes identities)
  | .claim workerName token leaseMs nowMs =>
    errorOf (claimNextQueueItem s workerName token leaseMs nowMs)
  | .renew claim leaseMs nowMs => errorOf (renewClaim s claim leaseMs nowMs)
  | .release .. => none
  | .reconcile _ => none
  | .start claim nowMs queueIdentity attemptIdentity startedAt claimedRunId =>
    errorOf (startClaimedAttempt s claim nowMs queueIdentity attemptIdentity startedAt claimedRunId)
  | .fail claim nowMs first second failure =>
    errorOf (failClaimedAttempt s claim nowMs first second failure)
  | .complete claim nowMs identities completion =>
    errorOf (completeClaimedAttempt s claim nowMs identities completion)
  | .cancelRun runId expectedSessionId reason requestedIdentity cancelledIdentity =>
    errorOf (cancelRun s runId expectedSessionId reason requestedIdentity cancelledIdentity)
  | .cancelQueueItem queueItemId expectedSessionId reason requestedIdentity cancelledIdentity =>
    errorOf (cancelQueueItem s queueItemId expectedSessionId reason requestedIdentity
      cancelledIdentity)
  | .finalizeCancellation attemptIdentity queueIdentity finishedAt =>
    errorOf (finalizeNextRequestedCancellation s attemptIdentity queueIdentity finishedAt)
  | .resumeWaits eventId identities => errorOf (resumeWaitsForEvent s eventId identities)
  | .timeoutWait nowMs first second => errorOf (timeoutNextDueWait s nowMs first second)
  | .publishDeferred nowMs identities =>
    errorOf (publishNextDueDeferredPublication s nowMs identities)
  | .advanceDue nowMs limit supply exhausted =>
    errorOf (advanceDue nowMs exhausted limit s supply).1
  | .cancelResource handle reason sourceAgentId sourceSessionId identity =>
    errorOf (cancelResource s handle reason sourceAgentId sourceSessionId identity)
  | .submitMessage request waitIdentity requestedIdentity availableIdentity =>
    errorOf (submitSessionMessage s request waitIdentity requestedIdentity availableIdentity)
  | .claimEgress workerName token leaseMs nowMs =>
    errorOf (claimNextEgressDelivery s workerName token leaseMs nowMs)
  | .renewEgress claim leaseMs nowMs => errorOf (renewEgressDeliveryClaim s claim leaseMs nowMs)
  | .reconcileEgress _ => none
  | .startEgress claim nowMs identity => errorOf (startClaimedEgressDelivery s claim nowMs identity)
  | .completeEgress claim nowMs identity result =>
    errorOf (completeClaimedEgressDelivery s claim nowMs identity result)
  | .failEgress claim nowMs identity result retryAt =>
    errorOf (failClaimedEgressDelivery s claim nowMs identity result retryAt)
  | .markEgressAmbiguous claim nowMs identity result =>
    errorOf (markClaimedEgressDeliveryAmbiguous s claim nowMs identity result)
  | .rebuild => errorOf (rebuildProjections s)

/-- The operation that is a sequence of transactions. -/
def Op.isAdvance : Op → Bool
  | .advanceDue .. => true
  | _ => false

omit [Platform] in
theorem commit_map_of_errorOf {r : Except DispatchError Store} (h : errorOf r = some error) :
    commit s (r.map ((), ·)) = s := by
  cases r with
  | ok r => cases h
  | error e => rfl

/-- An operation that is one transaction leaves everything as it was when it fails. -/
theorem apply_of_failure {op : Op} (h : failure s op = some error) (hop : op.isAdvance = false) :
    apply s op = s := by
  cases op with
  | release | reconcile | reconcileEgress => cases h
  | advanceDue => cases hop
  | completeEgress | failEgress | markEgressAmbiguous => exact commit_map_of_errorOf h
  | _ => exact commit_of_errorOf h

variable [LawfulFloatText] {s s' : Store}

theorem Changes.sound {P : Event → Prop} (h : Changes P s s') (hs : Sound s.journal) :
    Sound s'.journal := by
  refine h.induct (I := fun s => Sound s.journal) (fun _ _ _ _ ht hrecorded => hrecorded.sound ht)
    ?_ hs
  intro t t' ht hcoordinated
  rwa [hcoordinated.journal]

theorem sound_apply (hs : s.Kept) (hsound : Sound s.journal) (op : Op) :
    Sound (apply s op).journal := by
  refine apply_induction (Q := fun t => Sound t.journal) hsound (fun _ _ => hsound) ?_
  exact fun hrebuild => (Op.changes_any hs.unreserved hrebuild).sound hsound

/-- The journal after a run is sound. -/
theorem sound_applyAll (ops : List Op) : Sound (applyAll .empty ops).journal := by
  have hboth : (applyAll .empty ops).Kept ∧ Sound (applyAll .empty ops).journal :=
    List.foldlRecOn (motive := fun s => s.Kept ∧ Sound s.journal) ops apply ⟨kept_empty, sound_nil⟩
      fun s hs op _ => ⟨hs.1.apply op, sound_apply hs.1 hs.2 op⟩
  exact hboth.2

omit [LawfulFloatText] in
/-- A sound journal verifies against its own head. -/
theorem verify_exact_of_sound (h : Sound entries) :
    verify entries (.exact (head entries)) = .ok ⟨entries.length, head entries⟩ := by
  have hhead : (VerifyState.after entries).previousAddress = head entries := rfl
  simp only [verify, show foldOk verifyEntry .start entries = _ from h, ok_bind, ensure_of hhead]
  rfl

omit [LawfulFloatText] in
/-- A store with a sound journal verifies if and only if its payloads can be read. -/
theorem verifyJournal_iff (hs : Sound s.journal) {expectation : HeadExpectation}
    (hexpectation : expectation = .unanchored ∨ expectation = .exact (head s.journal)) :
    verifyJournal s expectation = .ok ⟨s.journal.length, head s.journal⟩ ↔
      ∀ entry ∈ s.journal, readable entry.payloadBytes = true := by
  have hverify : verify s.journal expectation = .ok ⟨s.journal.length, head s.journal⟩ := by
    rcases hexpectation with rfl | rfl
    · exact verify_of_sound hs
    · exact verify_exact_of_sound hs
  simp only [verifyJournal, bind_ok_iff, mapError_ok_iff, loadEntries_ok_iff]
  constructor
  · rintro ⟨_, ⟨rfl, hread⟩, -⟩
    exact hread
  · intro hread
    exact ⟨s.journal, ⟨rfl, hread⟩, hverify⟩

/-- After every run the entries recompute, and what is stored verifies, with the count and the head
of the journal, if and only if every payload can be read back. An operation that fails leaves the
journal as it was, except that an advance keeps what its earlier steps appended. -/
theorem journal_intact (ops : List Op) :
    verify (applyAll .empty ops).journal .unanchored
        = .ok ⟨(applyAll .empty ops).journal.length, head (applyAll .empty ops).journal⟩ ∧
      (∀ expectation, expectation = .unanchored ∨
          expectation = .exact (head (applyAll .empty ops).journal) →
        (verifyJournal (applyAll .empty ops) expectation
            = .ok ⟨(applyAll .empty ops).journal.length, head (applyAll .empty ops).journal⟩ ↔
          ∀ entry ∈ (applyAll .empty ops).journal, readable entry.payloadBytes = true)) ∧
      ∀ op error, failure (applyAll .empty ops) op = some error →
        (op.isAdvance = false →
          (apply (applyAll .empty ops) op).journal = (applyAll .empty ops).journal) ∧
        ∃ entries, (apply (applyAll .empty ops) op).journal = (applyAll .empty ops).journal ++
          entries := by
  have hsound := sound_applyAll ops
  refine ⟨verify_of_sound hsound, fun expectation hexpectation =>
    verifyJournal_iff hsound hexpectation, ?_⟩
  intro op error hfailure
  have hsame : op.isAdvance = false →
      (apply (applyAll .empty ops) op).journal = (applyAll .empty ops).journal :=
    fun hop => congrArg Store.journal (apply_of_failure hfailure hop)
  refine ⟨hsame, ?_⟩
  cases hop : op.isAdvance with
  | false => exact ⟨[], by rw [hsame hop, List.append_nil]⟩
  | true =>
    have hrebuild : op ≠ .rebuild := by
      rintro rfl
      cases hop
    obtain ⟨entries, hjournal, -⟩ :=
      (Op.changes_any (kept_applyAll ops).unreserved hrebuild).added_spec
    exact ⟨entries, hjournal⟩

end Stored

namespace Sample

/-- An agent schedules two events for the first second. -/
def scheduling : List Op := running ++ [
  .complete (claim "qi_e" "t") 0 [identity "f4", identity "f5", identity "f6", identity "f7"]
    (succeeding [
      .publish "p" "note" [] (some "1970-01-01T00:00:01Z") 0,
      .publish "q" "note" [] (some "1970-01-01T00:00:01Z") 1])]

/-- Two events are due, and there are identities for the first of them. -/
def halted : Op := .advanceDue 2000 2 [identity "g1", identity "g2"] (.database "next identity")

/-- An event with a payload that is too deep. -/
def deep : List Op := [.ingest (event "e" "note" [("x", nested 127)])]

/-- An advance that fails keeps the event it published, and an event with a deep payload is stored
and cannot be verified. -/
theorem halted_and_deep :
    ((@failure platform (run scheduling) halted).isSome = true ∧
      (@apply platform (run scheduling) halted).journal.length = (run scheduling).journal.length +
        2) ∧
    ((run deep).journal.length = 1 ∧
      errorOf (@verifyJournal platform (run deep) .unanchored)
        = some (.corruptJournal (some 1) "payload_bytes")) := by
  refine ⟨⟨by decide +kernel, by decide +kernel⟩, by decide +kernel, by decide +kernel⟩

/-- What the agent did verifies. -/
theorem scheduling_intact :
    @verifyJournal platform (run scheduling) .unanchored
      = .ok ⟨(run scheduling).journal.length, head (run scheduling).journal⟩ := by
  have hintact := @journal_intact platform platform_lawful scheduling
  exact (hintact.2.1 .unanchored (.inl rfl)).mpr
    (show ∀ entry ∈ (run scheduling).journal, _ by decide +kernel)

end Sample

end Zeta
