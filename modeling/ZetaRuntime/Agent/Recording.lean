import Mathlib.Data.List.TakeWhile
import ZetaRuntime.Agent.Runner
import ZetaRuntime.Dispatch.Operations

/-!
# Recording the tool calls of several runs

The host journals the drafts of its runs as trusted events. A tool call is journaled under the id
that its model gave it, and under an idempotency key that is made from this id; its result under a
new id. Ids and keys are looked up in the whole journal, so a run is disturbed by another one if
their calls have the same id: its call is absorbed by the call of the other run if the payloads are
the same, and rejected, which fails the run, if they are not.
-/

namespace Zeta

open Outcome

section

variable [Platform]

/-- Record a draft of a run in the journal; the id of the event it is retained as. -/
def recordAgentDraft (s : Store) (eventId : String) (timestampMs : Int) (draft : DraftEvent) :
    Except DispatchError (String × Store) := do
  let (outcome, s) ← appendTrustedEvent s (Event.fromDraft eventId timestampMs draft)
  return (outcome.event.id, s)

/-- The draft became an entry of the journal. -/
def NewlyRecorded (s : Store) (eventId : String) (timestampMs : Int) (draft : DraftEvent) : Prop :=
  ∃ s' entry, recordAgentDraft s eventId timestampMs draft = .ok (eventId, s') ∧
    s'.journal = s.journal ++ [entry] ∧ entry.event.id = eventId

/-- An event that no table reads is recorded if and only if it can be journaled and its id and key
are new. -/
theorem newlyRecorded_iff {s : Store} {eventId : String} {timestampMs : Int} {draft : DraftEvent}
    (hkind : eventKind draft.eventType = .unprojected) :
    NewlyRecorded s eventId timestampMs draft ↔
      (Event.fromDraft eventId timestampMs draft).Appendable ∧
      (∀ entry ∈ s.journal, entry.event.id ≠ eventId) ∧
      (∀ key ∈ (Event.fromDraft eventId timestampMs draft).idempotencyKey, ∀ entry ∈ s.journal,
        entry.event.idempotencyKey ≠ some key) ∧
      (nextCursor s.journal : Int) ≤ i64Max := by
  refine Iff.trans ?_
    (appendInTransaction_inserts_iff :
      _ ↔ (Event.fromDraft eventId timestampMs draft).Appendable ∧ _)
  constructor
  · rintro ⟨s', entry, h, hjournal, -⟩
    simp only [recordAgentDraft, appendTrustedEvent, ok_iff, pair_iff] at h
    obtain ⟨_, _, ⟨_, -, outcome, journal, happend, p, -, rfl, rfl⟩, -, rfl⟩ := h
    refine ⟨_, happend, ?_⟩
    rcases appendInTransaction_ok happend with ⟨-, rfl, -⟩ | ⟨hinserted, -⟩
    · simp at hjournal
    · exact hinserted
  · rintro ⟨⟨outcome, journal⟩, happend, hinserted⟩
    rcases appendInTransaction_ok happend with ⟨hno, -⟩ | ⟨-, hins⟩
    · rw [hno] at hinserted
      cases hinserted
    obtain ⟨entry, hnew, houtcome, rfl⟩ := hins.entry
    obtain ⟨_, hfields, bytes, _, address, _, hentry⟩ := JournalEntry.new_ok_iff.mp hnew
    refine ⟨⟨s.journal ++ [entry.stored], s.projections⟩, entry.stored, ?_, rfl,
      by rw [hentry]; rfl⟩
    have htype : eventKind outcome.event.eventType = .unprojected := by
      rw [houtcome, hentry]
      exact hkind
    have hindex : indexIfInserted outcome (s.journal ++ [entry.stored]) s.projections
        = .ok s.projections := by
      rw [indexIfInserted, if_pos hinserted, indexEvent, htype]
    have hvalid : validateEventIdentity (Event.fromDraft eventId timestampMs draft) = .ok () :=
      validateEventIdentity_ok_iff.mpr hfields
    simp only [recordAgentDraft, appendTrustedEvent, hvalid, happend, hindex, ok_bind, ok_iff,
      pair_iff]
    refine ⟨_, _, ⟨rfl, rfl⟩, ?_, rfl⟩
    rw [houtcome, hentry]
    rfl

end

/-! ### Tool calls -/

/-- The types of the events that record a tool call and its result. -/
def toolEventTypes : List String :=
  ["zeta.tool_call.started", "zeta.tool_call.completed", "zeta.tool_call.failed"]

theorem eventKind_of_mem_toolEventTypes {eventType : String} (h : eventType ∈ toolEventTypes) :
    eventKind eventType = .unprojected := by
  simp only [toolEventTypes, List.mem_cons, List.not_mem_nil, or_false] at h
  rcases h with rfl | rfl | rfl <;> decide

/-- A text with a character that is no white space is not blank. -/
theorem trim_ne_empty {text : String} {c : Char} (hmem : c ∈ text.toList)
    (hc : isWhitespace c = false) : trim text ≠ "" := by
  intro h
  have hnil : ((text.toList.dropWhile isWhitespace).reverse.dropWhile isWhitespace).reverse =
      [] := by
    simpa [trim] using congrArg String.toList h
  rw [List.reverse_eq_nil_iff, List.dropWhile_eq_nil_iff] at hnil
  -- What is left after the leading white space begins with something else.
  have hall : text.toList.dropWhile isWhitespace = [] := by
    by_contra hne
    have hlen : 0 < (text.toList.dropWhile isWhitespace).length := List.length_pos_iff.mpr hne
    exact List.dropWhile_get_zero_not isWhitespace text.toList hlen
      (hnil _ (List.mem_reverse.mpr (List.get_mem _ _)))
  rw [List.dropWhile_eq_nil_iff] at hall
  rw [hall c hmem] at hc
  cases hc

/-- The idempotency key of a tool event, without the white space around it. -/
def toolKey (eventType eventId : String) : String := trim (eventType ++ ":" ++ eventId)

theorem idempotencyKey_toolDraft (invocation : AgentInvocation) (eventType : String) (payload : Map)
    (eventId : String) (causedBy : Option String) (timestampMs : Int) :
    (Event.fromDraft eventId timestampMs
      (toolDraft invocation eventType payload eventId causedBy)).idempotencyKey
        = some (toolKey eventType eventId) := by
  have hne : trim (eventType ++ ":" ++ eventId) ≠ "" :=
    trim_ne_empty (c := ':') (by simp) (by decide)
  simp only [Event.fromDraft, toolDraft, draftWithInvocationContext, Option.bind_some, if_neg hne,
    toolKey]

section

variable [Platform]

/-- A tool event that is recorded when the events of another run are not there is recorded when they
are, if and only if none of them has its id or its key, and the journal is not full. -/
theorem newlyRecorded_iff_undisturbed (s : Store) (other : JournalEntry → Bool)
    (invocation : AgentInvocation) {eventType : String} (htype : eventType ∈ toolEventTypes)
    (payload : Map) (eventId : String) (causedBy : Option String) (timestampMs : Int)
    (halone : NewlyRecorded { s with journal := s.journal.filter fun entry => !other entry } eventId
      timestampMs (toolDraft invocation eventType payload eventId causedBy)) :
    NewlyRecorded s eventId timestampMs (toolDraft invocation eventType payload eventId causedBy) ↔
      (∀ entry ∈ s.journal, other entry = true →
        entry.event.id ≠ eventId ∧ entry.event.idempotencyKey ≠ some (toolKey eventType eventId)) ∧
      (nextCursor s.journal : Int) ≤ i64Max := by
  have hkind : eventKind (toolDraft invocation eventType payload eventId causedBy).eventType
      = .unprojected := eventKind_of_mem_toolEventTypes htype
  rw [newlyRecorded_iff hkind, idempotencyKey_toolDraft] at halone ⊢
  obtain ⟨happendable, hid, hkey, -⟩ := halone
  have hmine : ∀ entry ∈ s.journal, other entry = false →
      entry ∈ s.journal.filter fun entry => !other entry := by
    intro entry hmem hother
    simp [hmem, hother]
  constructor
  · rintro ⟨-, hids, hkeys, hroom⟩
    exact ⟨fun entry hmem _ => ⟨hids entry hmem, hkeys _ rfl entry hmem⟩, hroom⟩
  · rintro ⟨hother, hroom⟩
    refine ⟨happendable, fun entry hmem => ?_, ?_, hroom⟩
    · cases htheirs : other entry with
      | true => exact (hother entry hmem htheirs).1
      | false => exact hid entry (hmine entry hmem htheirs)
    · rintro _ ⟨⟩ entry hmem
      cases htheirs : other entry with
      | true => exact (hother entry hmem htheirs).2
      | false => exact hkey _ rfl entry (hmine entry hmem htheirs)

end

namespace Sample

/-- A run of an agent in a session. -/
def inSession (sessionId runId : String) : AgentInvocation where
  allowedCapabilities := []
  maxModelCalls := 1
  baseDirectory := none
  effectScope := none
  sourceQueueItemId := none
  sourceAgentId := none
  sourceSessionId := none
  causedBy := none
  eventSource := "agent:helper"
  sessionId := some sessionId
  runId := some runId
  turnId := none
  deadlineMs := none
  publishableEvents := []

/-- What is recorded about a tool call without arguments. -/
def startedPayload (id name : String) :
    Map := callPayload ⟨id, name, "\x7b\x7d", [], none, true⟩ none

/-- A tool call without an id that is the first of its message, as it is recorded. -/
def startedCall (invocation : AgentInvocation) (name : String) : DraftEvent :=
  toolDraft invocation "zeta.tool_call.started" (startedPayload "call-0" name) "call-0" none

/-- The store after the first run has recorded its call. -/
def afterFirst : Store :=
  commit .empty
    (@recordAgentDraft platform .empty "call-0" 0 (startedCall (inSession "s1" "r1") "lookup"))

/-- The second call of a message in the second run has another id, and is recorded. -/
theorem second_call_recorded :
    @NewlyRecorded platform afterFirst "call-1" 1
      (toolDraft (inSession "s2" "r2") "zeta.tool_call.started" (startedPayload "call-1" "search")
        "call-1"
        none) := by
  let _ : Platform := platform
  refine (newlyRecorded_iff_undisturbed afterFirst (fun _ => true) (inSession "s2" "r2")
    (by decide) (startedPayload "call-1" "search") "call-1" none 1 ?_).mpr
    ⟨by decide +kernel, by decide +kernel⟩
  refine (newlyRecorded_iff (by decide)).mpr
    ⟨⟨by decide, exists_ok (by decide +kernel), by decide, by decide⟩, ?_, ?_, ?_⟩
  · simp
  · simp
  · decide +kernel

/-- Two runs of different sessions whose models give no ids: the call of the second run fails if it
differs from that of the first, and is absorbed if it does not, although either is recorded when
the first run is not there. -/
theorem second_call_disturbed :
    (@recordAgentDraft platform afterFirst "call-0" 1
      (startedCall (inSession "s2" "r2") "search")).toBool
        = false ∧
      (@recordAgentDraft platform afterFirst "call-0" 1
        (startedCall (inSession "s2" "r2") "lookup")).map
        (fun r => r.2.journal.length) = .ok 1 ∧
      (@recordAgentDraft platform .empty "call-0" 1
        (startedCall (inSession "s2" "r2") "search")).map
        (fun r => r.2.journal.length) = .ok 1 := by
  decide +kernel

end Sample

end Zeta
