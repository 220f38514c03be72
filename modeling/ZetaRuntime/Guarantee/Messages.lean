import ZetaRuntime.Guarantee.Integrity
import ZetaRuntime.Guarantee.Routing

/-!
# Messages that are sent again

A client that did not hear about its message sends it again, with the same key and under new
identities. The journal decides what that means. The message and the offer of its item were stored
together, both under keys that no other entry has, and a journal only grows: so both are found
again, however far the item, the session and its waits have moved on since, and nothing is written.
-/

namespace Zeta

open Outcome

variable {offer : JournalEntry}
  {availableIdentity requestedIdentity waitIdentity : RuntimeEventIdentity}
  {request : SessionMessageRequest}

variable {candidate : Event} {entry message : JournalEntry} {journal : List JournalEntry}

section

variable [Platform] {s s' : Store}

/-! ### Entries a candidate resolves to -/

omit [Platform] in
/-- An entry that can be read and has the intention of a candidate. -/
structure JournalEntry.Repeats (entry : JournalEntry) (candidate : Event) : Prop where
  readable : readable entry.payloadBytes = true
  same : sameLifecycleIntention candidate entry.event = true

omit [Platform] in
theorem JournalEntry.Repeats.key (h : entry.Repeats candidate) :
    entry.event.idempotencyKey = candidate.idempotencyKey := by
  have hsame := h.same
  simp only [sameLifecycleIntention, Bool.and_eq_true, decide_eq_true_eq] at hsame
  exact hsame.1.1.1.1.2.symm

/-- An entry that holds a plain event has its intention. -/
theorem JournalEntry.Holds.same_of_plain {event : Event} (h : entry.Holds event)
    (hplain : ∀ p ∈ event.payload, p.2.Plain) :
    sameLifecycleIntention event entry.event = true := by
  obtain ⟨-, cursor, bytes, hbytes, hevent⟩ := h
  obtain rfl : Map.sortKeys _ = bytes := Except.ok.inj
    ((canonicalPayload_of_plain hplain).symm.trans hbytes)
  have hsorted : ∀ p ∈ Map.sortKeys event.payload, p.2.Plain :=
    fun p hp => hplain p ((Map.sortKeys_perm _).mem_iff.mp hp)
  have htwice : Map.sortKeys (Map.sortKeys event.payload) = Map.sortKeys event.payload :=
    Map.sortKeys_of_sorted (Map.pairwise_sortKeys _)
  rw [hevent]
  simp [sameLifecycleIntention, Map.same_iff_of_plain hplain hsorted, htwice]

omit [Platform] in
theorem plain_sessionMessageRequestedEvent [FloatText] (identity : RuntimeEventIdentity)
    (request : SessionMessageRequest) :
    ∀ p ∈ (sessionMessageRequestedEvent identity request).payload, p.2.Plain := by
  intro p hp
  simp only [sessionMessageRequestedEvent, List.mem_cons, List.not_mem_nil, or_false] at hp
  rcases hp with rfl | rfl | rfl | rfl <;> exact Value.plain_string _

/-- An entry that holds a message can be read and has its intention. -/
theorem JournalEntry.Holds.repeats_message {identity : RuntimeEventIdentity}
    (h : entry.Holds (sessionMessageRequestedEvent identity request)) :
    entry.Repeats (sessionMessageRequestedEvent identity request) := by
  have hplain := plain_sessionMessageRequestedEvent identity request
  refine ⟨?_, h.same_of_plain hplain⟩
  obtain ⟨hpayload, cursor, bytes, hbytes, hevent⟩ := h
  obtain rfl : Map.sortKeys _ = bytes := Except.ok.inj
    ((canonicalPayload_of_plain hplain).symm.trans hbytes)
  have hdepth : Value.depthFields
    (Map.sortKeys (sessionMessageRequestedEvent identity request).payload)
      ≤ 0 := by
    refine depthFields_le fun p hp => ?_
    have hp := (Map.sortKeys_perm _).mem_iff.mp hp
    simp only [sessionMessageRequestedEvent, List.mem_cons, List.not_mem_nil, or_false] at hp
    rcases hp with rfl | rfl | rfl | rfl <;> exact le_refl 0
  rw [← hpayload, hevent]
  exact decide_eq_true (Nat.lt_of_le_of_lt (Nat.succ_le_succ hdepth) (by decide))

/-! ### What a message leaves in the journal -/

/-- Appending leaves an entry that repeats the candidate, if one that holds it does. -/
theorem exists_repeats_of_append {event : Event} {outcome : AppendOutcome}
    (hholds : ∀ entry : JournalEntry, entry.Holds event → entry.Repeats event)
    (h : appendRuntimeEvent s event = .ok (outcome, s')) :
    (∀ entry ∈ s.journal, entry ∈ s'.journal) ∧
      ∃ entry ∈ s'.journal, entry.Repeats event ∧ entry.event.id = outcome.event.id := by
  rcases appendCandidate_ok h with ⟨-, rfl, ⟨entry, hentry, hevent, hread, -⟩, hsame⟩
    | ⟨hins, hrecorded⟩
  · exact ⟨fun _ h => h, entry, hentry, ⟨hread, hevent ▸ hsame⟩, by rw [hevent]⟩
  · obtain ⟨entry, hjournal, hentry⟩ := hrecorded.holds
    refine ⟨fun _ h => by simp [hjournal, h], entry, by simp [hjournal], hholds entry hentry, ?_⟩
    obtain ⟨-, cursor, hback⟩ := hentry
    rw [hback.id_eq, appendCandidate_event h hins]

omit [Platform] in
/-- The offer of the item of a message depends on the id and the run of the message. -/
theorem sessionMessageAvailableEvent_congr {requested requested' : Event}
    (hid : requested'.id = requested.id) (hrun : requested'.runId = requested.runId)
    (hturn : requested'.turnId = requested.turnId) (identity : RuntimeEventIdentity)
    (request : SessionMessageRequest) :
    sessionMessageAvailableEvent identity requested' request
      = sessionMessageAvailableEvent identity requested request := by
  simp [sessionMessageAvailableEvent, queueLifecycleEvent, hid, hrun, hturn]

/-- What is stored of a message: the message and the offer of its item. -/
structure Stored (journal : List JournalEntry) (request : SessionMessageRequest)
    (message offer : JournalEntry) : Prop where
  message_mem : message ∈ journal
  offer_mem : offer ∈ journal
  message_repeats : ∀ identity, message.Repeats (sessionMessageRequestedEvent identity request)
  offer_repeats : ∀ identity,
    offer.Repeats (sessionMessageAvailableEvent identity message.event request)

omit [Platform] in
theorem Stored.mono {journal' : List JournalEntry} (h : Stored journal request message offer)
    (hjournal : journal <+: journal') : Stored journal' request message offer :=
  ⟨hjournal.subset h.message_mem, hjournal.subset h.offer_mem, h.message_repeats, h.offer_repeats⟩

/-- A message that was accepted is stored, with the offer of its item. -/
theorem stored_of_submitSessionMessage {submitted : SubmittedSessionMessage}
    (h : submitSessionMessage s request waitIdentity requestedIdentity availableIdentity =
      .ok (submitted, s')) :
    validateSessionMessageRequest request = .ok () ∧ ∃ message offer cancelled events,
      Stored s'.journal request message offer ∧
        events.map (·.id) = cancelled ++ [message.event.id, offer.event.id] ∧
        submitted = {
          eventId := message.event.id
          queueItemId := queueItemId message.event.id request.agentId
          agentId := request.agentId
          sessionId := request.sessionId
          runId := request.runId
          changed := submitted.changed
          events := events } := by
  simp only [submitSessionMessage, ok_iff, pair_iff] at h
  obtain ⟨_, hvalid, _, -, _, -, retained, hretained, requested, cancelled, t, hrecord, available,
    u, happend, hsubmitted, rfl⟩ := h
  refine ⟨hvalid, ?_⟩
  have hholds : ∀ entry : JournalEntry,
      entry.Holds (sessionMessageAvailableEvent availableIdentity requested request) →
        entry.Repeats (sessionMessageAvailableEvent availableIdentity requested request) :=
    fun entry hentry => ⟨hentry.readable, (hentry.repeats_iff _).mpr rfl⟩
  obtain ⟨hsub, offer, hoffer, hrepeats, hid⟩ := exists_repeats_of_append hholds happend
  -- The message is retained, or was appended and reads back as it was offered.
  obtain ⟨message, hmessage, hmessaged, hsame, hrun, hturn⟩ : ∃ message ∈ t.journal,
      message.Repeats (sessionMessageRequestedEvent requestedIdentity request) ∧
        message.event.id = requested.id ∧ message.event.runId = requested.runId ∧
        message.event.turnId = requested.turnId := by
    cases retained with
    | some retained =>
      cases hrecord
      obtain ⟨⟨entry, hentry, hevent, hread⟩, hsame⟩ := retainedSessionMessage_some hretained
      exact ⟨entry, hentry, ⟨hread, hevent ▸ hsame⟩, by rw [hevent], by rw [hevent], by rw [hevent]⟩
    | none =>
      simp only [recordSessionMessage, ok_iff, pair_iff] at hrecord
      obtain ⟨wait, -, _, v, -, _, x, happended, ⟨rfl, -⟩, rfl⟩ := hrecord
      obtain ⟨rfl, hrecorded⟩ := appendSessionMessage_ok happended
      obtain ⟨entry, hjournal, hentry⟩ := hrecorded.holds
      obtain ⟨-, cursor, bytes, -, hevent⟩ := id hentry
      exact ⟨entry, by simp [hjournal], hentry.repeats_message, by rw [hevent], by rw [hevent],
        by rw [hevent]⟩
  rw [← sessionMessageAvailableEvent_congr hsame hrun hturn] at hrepeats
  refine ⟨message, offer, cancelled.map (·.id), cancelled ++ [requested, available.event],
    ⟨hsub message hmessage, hoffer, fun _ => ⟨hmessaged.readable, hmessaged.same⟩,
      fun _ => ⟨hrepeats.readable, hrepeats.same⟩⟩, by simp [hsame, hid], ?_⟩
  rw [← hsubmitted, hsame]

/-! ### Sending a message again -/

/-- A candidate that an entry repeats is not appended. -/
theorem appendRuntimeEvent_of_repeats [LawfulFloatText] (hs : Sound s.journal)
    (hentry : entry ∈ s.journal) {event : Event} (hrepeats : entry.Repeats event) {key : String}
    (hkey : event.idempotencyKey = some key)
    (hfields : event.id ≠ "" ∧ event.eventType ≠ "" ∧ event.source ≠ "")
    (hfresh : ∀ other ∈ s.journal, other.event.id ≠ event.id) :
    appendRuntimeEvent s event = .ok (⟨entry.event, false⟩, s) := by
  have hid : entryByEventId s.journal event.id = .ok none := by
    rw [entryByEventId,
      List.find?_eq_none.mpr fun other hother => by simpa using hfresh other hother]
    rfl
  have hfound : entryForKey s.journal event.idempotencyKey = .ok (some entry) := by
    rw [hkey, entryForKey]
    exact entryByIdempotencyKey_of_mem hs hentry (hrepeats.key.trans hkey) hrepeats.readable
  have happend : appendInTransaction s.journal event = .ok (⟨entry.event, false⟩, s.journal) := by
    rw [appendInTransaction, hid, ok_bind, appendUnlessIdentified, hfound, ok_bind,
      appendUnlessKeyed]
  simp only [appendRuntimeEvent, appendCandidate, bind_ok_iff, Prod.exists, ensure_ok_iff,
    appendLifecycleCandidate_ok_iff, pure_ok_iff]
  exact ⟨(), validateEventIdentity_ok_iff.mpr hfields, _, _, happend, (), .inr hrepeats.same, _,
    rfl, rfl⟩

/-- A message that is stored is found by its key. -/
theorem retainedSessionMessage_of_repeats (hs : Sound journal) (hentry : entry ∈ journal)
    (hrepeats : entry.Repeats candidate) {key : String} (hkey : candidate.idempotencyKey = some key)
    (hfresh : ∀ other ∈ journal, other.event.id ≠ candidate.id) :
    retainedSessionMessage journal candidate = .ok (some entry.event) := by
  have hid : entryByEventId journal candidate.id = .ok none := by
    rw [entryByEventId,
      List.find?_eq_none.mpr fun other hother => by simpa using hfresh other hother]
    rfl
  have hfound : entryByOptionalKey journal candidate.idempotencyKey = .ok (some entry) := by
    rw [hkey, entryByOptionalKey]
    exact entryByIdempotencyKey_of_mem hs hentry (hrepeats.key.trans hkey) hrepeats.readable
  rw [retainedSessionMessage, hid, ok_bind, hfound, ok_bind]
  simp [hrepeats.same, ensure, pure, Except.pure, bind, Except.bind]

variable [LawfulFloatText]

omit [LawfulFloatText] in
/-- Whatever is done, the journal only grows. -/
theorem isPrefix_journal_apply (hs : s.Kept) (op : Op) : s.journal <+: (apply s op).journal := by
  refine apply_induction (Q := fun t => s.journal <+: t.journal) List.prefix_rfl
    (fun _ _ => List.prefix_rfl) fun hrebuild => ?_
  obtain ⟨entries, hjournal, -⟩ := (Op.changes_any hs.unreserved hrebuild).added_spec
  exact ⟨entries, hjournal.symm⟩

omit [LawfulFloatText] in
theorem isPrefix_journal_applyAll (hs : s.Kept) (ops : List Op) :
    s.journal <+: (applyAll s ops).journal := by
  induction ops generalizing s with
  | nil => exact List.prefix_refl _
  | cons op ops ih => exact (isPrefix_journal_apply hs op).trans (ih (hs.apply op))

/-- What a stored message returns when it is sent again. -/
theorem submitSessionMessage_of_stored (hs : Sound s.journal)
    (hstored : Stored s.journal request message offer) {key : String}
    (hkey : request.idempotencyKey = some key)
    (hvalid : validateSessionMessageRequest request = .ok ())
    (hdistinct : [waitIdentity.id, requestedIdentity.id, availableIdentity.id].Nodup)
    (hfresh : ∀ entry ∈ s.journal, entry.event.id ≠ requestedIdentity.id ∧ entry.event.id ≠
      availableIdentity.id) :
    submitSessionMessage s request waitIdentity requestedIdentity availableIdentity = .ok ({
      eventId := message.event.id
      queueItemId := queueItemId message.event.id request.agentId
      agentId := request.agentId
      sessionId := request.sessionId
      runId := request.runId
      changed := false
      events := [message.event, offer.event] }, s) := by
  have hretained := retainedSessionMessage_of_repeats hs hstored.message_mem
    (hstored.message_repeats requestedIdentity) hkey fun entry hentry => (hfresh entry hentry).1
  have hoffered := appendRuntimeEvent_of_repeats hs hstored.offer_mem
    (hstored.offer_repeats availableIdentity) (key_sessionMessageAvailableEvent ..)
    ⟨availableIdentity.id_ne_empty, by simp [sessionMessageAvailableEvent, queueLifecycleEvent],
      by simp [sessionMessageAvailableEvent, queueLifecycleEvent]⟩
    fun entry hentry => (hfresh entry hentry).2
  have hidentities : validateDistinctRuntimeIdentities
      [waitIdentity, requestedIdentity, availableIdentity] [] = .ok () :=
    validateDistinctRuntimeIdentities_of_nodup (by rwa [List.append_nil])
  have hcandidate : validateEventIdentity (sessionMessageRequestedEvent requestedIdentity request)
      = .ok () :=
    validateEventIdentity_ok_iff.mpr
      ⟨requestedIdentity.id_ne_empty, by simp [sessionMessageRequestedEvent],
      by simp [sessionMessageRequestedEvent]⟩
  simp only [submitSessionMessage, ok_iff, Prod.exists]
  exact ⟨(), hvalid, (), hidentities, (), hcandidate, _, hretained, _, _, _, rfl, _, _, hoffered,
    rfl⟩

/-- A message that was accepted with a key can be sent again, with the same fields and under new
identities, whatever was done before and in between: the message and the item that were stored are
returned, and nothing is changed. -/
theorem submitSessionMessage_again (earlier later : List Op) {request : SessionMessageRequest}
    {key : String} (hkey : request.idempotencyKey = some key)
    {waitIdentity requestedIdentity availableIdentity : RuntimeEventIdentity}
    {submitted : SubmittedSessionMessage}
    (h : submitSessionMessage (applyAll .empty earlier) request waitIdentity requestedIdentity
      availableIdentity = .ok (submitted, s))
    {waitIdentity' requestedIdentity' availableIdentity' : RuntimeEventIdentity}
    (hdistinct : [waitIdentity'.id, requestedIdentity'.id, availableIdentity'.id].Nodup)
    (hfresh : ∀ entry ∈ (applyAll s later).journal,
      entry.event.id ∉ [waitIdentity'.id, requestedIdentity'.id, availableIdentity'.id]) :
    ∃ events,
      submitSessionMessage (applyAll s later) request waitIdentity' requestedIdentity'
        availableIdentity' = .ok ({ submitted with changed := false, events }, applyAll s later) ∧
      events.map (·.id) <:+ submitted.events.map (·.id) ∧ events.length = 2 ∧
      ∀ event ∈ events, ∃ entry ∈ (applyAll s later).journal, entry.event = event := by
  have hs : s = applyAll .empty
      (earlier ++ [.submitMessage request waitIdentity requestedIdentity availableIdentity]) := by
    rw [applyAll_append]
    show s = commit (applyAll .empty earlier)
      (submitSessionMessage (applyAll .empty earlier) request
      waitIdentity requestedIdentity availableIdentity)
    rw [h, commit]
  have hkept : s.Kept := hs ▸ kept_applyAll _
  have hsound : Sound (applyAll s later).journal := by
    rw [hs, ← applyAll_append]
    exact sound_applyAll _
  obtain ⟨hvalid, message, offer, cancelled, events, hstored, hevents, hsubmitted⟩ :=
    stored_of_submitSessionMessage h
  have hlater := hstored.mono (isPrefix_journal_applyAll hkept later)
  refine ⟨[message.event, offer.event], ?_, ?_, rfl, ?_⟩
  · rw [submitSessionMessage_of_stored hsound hlater hkey hvalid hdistinct fun entry hentry => ?_,
      hsubmitted]
    have hnew := hfresh entry hentry
    simp only [List.mem_cons, not_or] at hnew
    exact ⟨hnew.2.1, hnew.2.2.1⟩
  · rw [hsubmitted, hevents]
    exact List.suffix_append _ _
  · simp only [List.mem_cons, List.not_mem_nil, or_false]
    rintro event (rfl | rfl)
    · exact ⟨message, hlater.message_mem, rfl⟩
    · exact ⟨offer, hlater.offer_mem, rfl⟩

end

namespace Sample

/-- A user greets an agent. -/
def greeting : SessionMessageRequest where
  message := "hello"
  agentId := "a"
  sessionId := "S"
  projectRevision := "p"
  runId := "R"
  idempotencyKey := some "k"
  sessionId_ne_empty := by decide
  runId_ne_empty := by decide

/-- The agent takes the message and waits for an answer, and the database is rebuilt. -/
def attending : List Op := [
  .claim "worker" "t" 1000 0,
  .start (claim "qi_m_a" "t") 0 (identity "f1") (identity "f2") "1970-01-01T00:00:00Z" none,
  .complete (claim "qi_m_a" "t") 0 [identity "f3", identity "f4", identity "f5"]
    (succeeding [.wait "w" "answer" [] none 0]),
  .rebuild]

/-- The greeting, stored in a new database. -/
def greeted : Except DispatchError (SubmittedSessionMessage × Store) :=
  @submitSessionMessage platform .empty greeting (identity "c") (identity "m") (identity "o")

/-- The database after the agent has answered the greeting. -/
def attended : Store := @applyAll platform (commit .empty greeted) attending

end Sample

open Sample in
/-- A greeting is sent again while the agent waits: the wait stays. -/
theorem greeting_again :
    attended.projections.waits.rows.map (fun wait => (wait.sessionId, wait.status))
        = [("S", .active)] ∧
      ∃ (submitted : SubmittedSessionMessage) (events : List Event),
        @submitSessionMessage platform attended greeting (identity "c2") (identity "m2")
          (identity "o2")
          = .ok ({ submitted with changed := false, events }, attended) := by
  refine ⟨by decide +kernel, ?_⟩
  rcases commit_cases .empty greeted with heq | ⟨submitted, hok⟩
  · exact absurd (congrArg (fun s : Store => s.journal.length) heq) (by decide +kernel)
  · obtain ⟨events, hagain, -⟩ := @submitSessionMessage_again platform _ platform_lawful []
      attending greeting
      "k" rfl _ _ _ submitted hok (identity "c2") (identity "m2") (identity "o2") (by decide)
      (show ∀ entry ∈ attended.journal, entry.event.id ∉ ["c2", "m2", "o2"] by decide +kernel)
    exact ⟨submitted, events, hagain⟩

end Zeta
