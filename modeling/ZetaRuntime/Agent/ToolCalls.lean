import ZetaRuntime.Agent.Runner

/-!
# What is recorded of tool calls

The runner records each tool call of a reply as started, does what it asks for, and records a
terminal result. Before it starts a call it looks for a terminal result of a call with the same id
among all events of the run, and skips the call if it finds one. Ids are chosen by the model, or by
the position of the call in its reply if the model gives none.

The module computes what processing the calls of a reply adds to the history of a run: the calls
whose ids are `fresh`, once each and in order, as started and as answered.

## Main definitions

* `fresh` — ids that are new, each once
* `Extends`, `BatchEnd` — what a part of a run records

## Main results

* `wp_processToolCall_extends`, `wp_runToolCalls_extends` — one call, and all calls of a reply
-/

namespace Zeta

open Outcome Program

variable {seen : List String} {α : Type}

variable {ids : List String} {id : String}

/-! ### The ids in a history -/

/-- A request to the model. -/
def Call.isGenerate : Call → Bool
  | .generate _ => true
  | .execute _ | .record _ _ _ => false

/-- The draft that a call recorded. -/
def Call.draft : Call → Option DraftEvent
  | .record _ draft (.ok _) => some draft
  | .record _ _ (.error _) | .generate _ | .execute _ => none

/-- The ids of the calls of a reply, in order. -/
def callIds (output : ModelOutput) : List String :=
  (assistantToolCalls output.message).mapIdx fun index toolCall => toolCallId toolCall index

/-- The tool call that a draft records as started. -/
def DraftEvent.startedId (draft : DraftEvent) : Option String :=
  if draft.payload.text "_timeline_type" = some "tool_call" then draft.payload.text "tool_call_id"
  else none

/-- The tool call that a draft records the terminal result of. -/
def DraftEvent.answeredId (draft : DraftEvent) : Option String :=
  (draft.payload.text "tool_call_id").filter fun id => isTerminalToolResult id draft

/-- The drafts that were recorded, oldest first. -/
def recordedDrafts (calls : List Call) : List DraftEvent := calls.reverse.filterMap Call.draft

/-- The tool calls that were recorded as started, oldest first. -/
def startedIds (calls : List Call) : List String :=
  (recordedDrafts calls).filterMap DraftEvent.startedId

/-- The tool calls whose terminal result was recorded, oldest first. -/
def answeredIds (calls : List Call) : List String :=
  (recordedDrafts calls).filterMap DraftEvent.answeredId

/-- The ids that the model used. -/
def usedIds (calls : List Call) : List String :=
  calls.flatMap fun call => match call with
    | .generate (.ok output) => callIds output
    | .generate (.error _) | .execute _ | .record _ _ _ => []

/-- The ids among some that are not seen yet, each the first time. -/
def fresh (seen : List String) : List String → List String
  | [] => []
  | id :: ids => if id ∈ seen then fresh seen ids else id :: fresh (id :: seen) ids

theorem recordedDrafts_append (new calls : List Call) :
    recordedDrafts (new ++ calls) = recordedDrafts calls ++ recordedDrafts new := by
  simp [recordedDrafts]

theorem recordedDrafts_generate (reply : Except AgentError ModelOutput) (calls : List Call) :
    recordedDrafts (.generate reply :: calls) = recordedDrafts calls := by
  have hdraft : (Call.generate reply).draft = none := rfl
  simp [recordedDrafts, hdraft]

theorem answeredIds_generate (reply : Except AgentError ModelOutput) (calls : List Call) :
    answeredIds (.generate reply :: calls) = answeredIds calls := by
  rw [answeredIds, recordedDrafts_generate, answeredIds]

theorem startedIds_append (new calls : List Call) :
    startedIds (new ++ calls) = startedIds calls ++ startedIds new := by
  simp [startedIds, recordedDrafts_append]

theorem answeredIds_append (new calls : List Call) :
    answeredIds (new ++ calls) = answeredIds calls ++ answeredIds new := by
  simp [answeredIds, recordedDrafts_append]

theorem usedIds_append (new calls : List Call) :
    usedIds (new ++ calls) = usedIds new ++ usedIds calls := by
  simp [usedIds]

theorem usedIds_eq_nil {calls : List Call} (h : ∀ call ∈ calls, call.isGenerate = false) :
    usedIds calls = [] := by
  simp only [usedIds, List.flatMap_eq_nil_iff]
  intro call hmem
  cases call with
  | generate reply => cases h _ hmem
  | execute call => rfl
  | record eventId draft retained => rfl

/-- Nothing is skipped if and only if the ids are distinct and none was seen. -/
theorem fresh_eq_self_iff : fresh seen ids = ids ↔ ids.Nodup ∧ ∀ id ∈ ids, id ∉ seen := by
  induction ids generalizing seen with
  | nil => simp [fresh]
  | cons id ids ih =>
    unfold fresh
    split
    case isTrue hseen =>
      -- The result is shorter than the list, and the first id was seen.
      refine iff_of_false (fun h => ?_) fun h => h.2 id (.head _) hseen
      have hlen : ∀ (seen : List String) (l : List String), (fresh seen l).length ≤ l.length := by
        intro seen l
        induction l generalizing seen with
        | nil => simp [fresh]
        | cons a l ih =>
          unfold fresh
          split
          · exact (ih seen).trans (Nat.le_succ _)
          · exact Nat.succ_le_succ (ih _)
      have := hlen seen ids
      rw [h] at this
      simp at this
    case isFalse hseen =>
      simp only [List.cons.injEq, true_and, ih, List.nodup_cons, List.mem_cons, not_or]
      constructor
      · rintro ⟨hnodup, hids⟩
        refine ⟨⟨fun hmem => (hids id hmem).1 rfl, hnodup⟩, ?_⟩
        rintro other (rfl | hmem)
        · exact hseen
        · exact (hids other hmem).2
      · rintro ⟨⟨hid, hnodup⟩, hids⟩
        refine ⟨hnodup, fun other hmem => ⟨?_, hids other (.inr hmem)⟩⟩
        rintro rfl
        exact hid hmem

/-- What was seen before or is fresh is what was seen before or is there. -/
theorem mem_or_mem_fresh : id ∈ seen ∨ id ∈ fresh seen ids ↔ id ∈ seen ∨ id ∈ ids := by
  induction ids generalizing seen with
  | nil => simp [fresh]
  | cons other ids ih =>
    unfold fresh
    have := @ih seen
    have := @ih (other :: seen)
    split <;> grind

/-- Only which ids were seen matters, not in which order. -/
theorem fresh_congr {seen' : List String} (h : ∀ id, id ∈ seen ↔ id ∈ seen') :
    fresh seen ids = fresh seen' ids := by
  induction ids generalizing seen seen' with
  | nil => rfl
  | cons id ids ih =>
    unfold fresh
    simp only [h id, ih h, @ih (id :: seen) (id :: seen') (by simp [h])]

/-! ### What a draft says about tool calls -/

theorem mem_filterMap_answeredId {drafts : List DraftEvent} :
    id ∈ drafts.filterMap DraftEvent.answeredId ↔ (terminalToolResult drafts id).isSome := by
  simp only [List.mem_filterMap, DraftEvent.answeredId, Option.filter_eq_some_iff,
    terminalToolResult, List.find?_isSome, List.mem_reverse]
  refine exists_congr fun draft => and_congr_right fun _ => ⟨fun h => h.2, fun h => ⟨?_, h⟩⟩
  simp only [isTerminalToolResult, Bool.and_eq_true, decide_eq_true_eq] at h
  exact h.1.2

/-- A draft that is neither a tool call nor a result. -/
def DraftEvent.Aside (draft : DraftEvent) : Prop :=
  draft.startedId = none ∧ draft.answeredId = none

theorem DraftEvent.aside_of {draft : DraftEvent}
    (hcall : draft.payload.text "_timeline_type" ≠ some "tool_call")
    (hresult : draft.payload.text "_timeline_type" ≠ some "tool_result") : draft.Aside := by
  refine ⟨if_neg hcall, ?_⟩
  simp [DraftEvent.answeredId, isTerminalToolResult, hresult]

section

variable (invocation : AgentInvocation)

theorem startedId_callDraft (parsed : ParsedToolCall) (capabilityId : Option String)
    (eventType : String) (eventId : String) (causedBy : Option String) :
    (toolDraft invocation eventType (callPayload parsed capabilityId) eventId causedBy).startedId
      = some parsed.callId := rfl

theorem answeredId_callDraft (parsed : ParsedToolCall) (capabilityId : Option String)
    (eventType eventId : String) (causedBy : Option String) :
    (toolDraft invocation eventType (callPayload parsed capabilityId) eventId causedBy).answeredId
      = none := by
  have htype : (callPayload parsed capabilityId).text "_timeline_type" = some "tool_call" := rfl
  simp [DraftEvent.answeredId, isTerminalToolResult, toolDraft, draftWithInvocationContext, htype]

theorem startedId_resultDraft (parsed : ParsedToolCall) (toolResult : Map)
    (capabilityId : Option String)
    (modelTelemetry : Map) (eventType eventId : String) (causedBy : Option String) :
    (toolDraft invocation eventType (resultPayload parsed toolResult capabilityId modelTelemetry)
      eventId
      causedBy).startedId = none := by
  have htype : (resultPayload parsed toolResult capabilityId modelTelemetry).text "_timeline_type"
      = some "tool_result" := rfl
  simp [DraftEvent.startedId, toolDraft, draftWithInvocationContext, htype]

theorem answeredId_resultDraft (parsed : ParsedToolCall) (toolResult : Map)
    (capabilityId : Option String)
    (modelTelemetry : Map) (eventType eventId : String) (causedBy : Option String) :
    (toolDraft invocation eventType (resultPayload parsed toolResult capabilityId modelTelemetry)
      eventId
      causedBy).answeredId = some parsed.callId := by
  have htype : (resultPayload parsed toolResult capabilityId modelTelemetry).text "_timeline_type"
      = some "tool_result" := rfl
  have hid : (resultPayload parsed toolResult capabilityId modelTelemetry).text "tool_call_id"
      = some parsed.callId := rfl
  have hstatus : (resultPayload parsed toolResult capabilityId modelTelemetry).text "status"
      = some (toolResultStatus toolResult) := rfl
  have hterminal : toolResultStatus toolResult
      ∈ ["completed", "failed", "refused", "cancelled", "timed_out"] := by
    unfold toolResultStatus
    split
    · simp
    · split <;> simp
  simp only [DraftEvent.answeredId, isTerminalToolResult, toolDraft, draftWithInvocationContext,
    htype, hid, hstatus, Option.getD_some, hterminal, decide_true, Bool.and_self,
    Option.filter_some, if_true]

theorem aside_effectDraft (status : EffectStatus) (identity : EffectIdentity)
    (capability : Capability) (causedBy : String) (params : Map) (result : Option Map) :
    (effectDraft invocation status identity capability causedBy params result).Aside := by
  have htype : (effectPayload status identity capability params result).text "_timeline_type" =
      none := by
    cases result <;> rfl
  exact DraftEvent.aside_of (by simp [effectDraft, draftWithInvocationContext, htype])
    (by simp [effectDraft, draftWithInvocationContext, htype])

theorem aside_modelDraft (message : Map) (promptObjectId eventId : String)
    (causedBy : Option String) :
    (modelDraft invocation (modelPayload message promptObjectId) eventId causedBy).Aside := by
  have hskip : ∀ (key : String) (text : Option String), key ≠ "_timeline_type" →
      (nonemptyText key text).get "_timeline_type" = none := by
    intro key text hkey
    unfold nonemptyText
    split
    · split <;> simp [hkey]
    · rfl
  have htype : (modelPayload message promptObjectId).text "_timeline_type" = some "model" := by
    have htools : Map.get (if assistantToolCalls message = [] then ([] : Map)
        else [("tool_calls", .array ((assistantToolCalls message).map .object))]) "_timeline_type"
        = none := by
      split <;> rfl
    simp only [modelPayload, Map.text, Map.get_append, hskip "reasoning" _ (by decide),
      hskip "content" _ (by decide), htools]
    rfl
  exact DraftEvent.aside_of (by simp [modelDraft, draftWithInvocationContext, htype])
    (by simp [modelDraft, draftWithInvocationContext, htype])

theorem aside_abortDraft (reason : AbortReason) (causedBy : Option String) :
    (abortDraft invocation reason causedBy).Aside := by
  have htype : (abortDraft invocation reason causedBy).payload.text "_timeline_type"
      = some "turn_aborted" := rfl
  exact DraftEvent.aside_of (by simp [htype]) (by simp [htype])

end

/-! ### How a run extends its history -/

/-- The events of a run are the drafts that it recorded. -/
def Run.Faithful {W : Type} (run : Run W) : Prop := run.result.events = recordedDrafts run.calls

/-- A run went on without a request to the model, and recorded these calls as started and these as
answered. -/
structure Extends {W : Type} (started answered : List String) (run run' : Run W) : Prop where
  calls : ∃ new, run'.calls = new ++ run.calls ∧ (∀ call ∈ new, call.isGenerate = false) ∧
    startedIds new = started ∧ answeredIds new = answered
  faithful : run.Faithful → run'.Faithful
  unlimited : run.result.stopReason ≠ some .maxModelCalls →
    run'.result.stopReason ≠ some .maxModelCalls

/-- A run went on without a request to the model. -/
def Silent {W : Type} (run run' : Run W) :
    Prop := ∃ started answered, Extends started answered run run'

namespace Extends

variable {W : Type} {run run' run'' : Run W} {started started' answered answered' : List String}

theorem trans (h : Extends started answered run run') (h' : Extends started' answered' run' run'') :
    Extends (started ++ started') (answered ++ answered') run run'' := by
  obtain ⟨new, hcalls, hnew, rfl, rfl⟩ := h.calls
  obtain ⟨new', hcalls', hnew', rfl, rfl⟩ := h'.calls
  refine ⟨⟨new' ++ new, ?_, ?_, startedIds_append _ _, answeredIds_append _ _⟩,
    h'.faithful ∘ h.faithful, h'.unlimited ∘ h.unlimited⟩
  · rw [hcalls', hcalls, List.append_assoc]
  · intro call hmem
    rcases List.mem_append.mp hmem with hmem | hmem
    · exact hnew' call hmem
    · exact hnew call hmem

theorem of_still (h : run.Still run') : Extends [] [] run run' where
  calls := ⟨[], by rw [h.calls, List.nil_append], by simp, rfl, rfl⟩
  faithful hfaithful := by rw [Run.Faithful, h.events, h.calls, hfaithful]
  unlimited hstop := h.stopReason ▸ hstop

theorem silent (h : Extends started answered run run') : Silent run run' := ⟨started, answered, h⟩

theorem answeredIds_eq (h : Extends started answered run run') :
    answeredIds run'.calls = answeredIds run.calls ++ answered := by
  obtain ⟨new, hcalls, -, -, rfl⟩ := h.calls
  rw [hcalls, answeredIds_append]

/-- What neither starts nor answers a call extends no list. -/
theorem trans_left (h : Extends [] [] run run') (h' : Extends started answered run' run'') :
    Extends started answered run run'' := h.trans h'

theorem trans_right (h : Extends started answered run run') (h' : Extends [] [] run' run'') :
    Extends started answered run run'' := by simpa using h.trans h'

end Extends

instance {W : Type} : IsPreorder (Run W) (Extends [] []) where
  refl _ := .of_still (refl _)
  trans _ _ _ h h' := h.trans h'

theorem Silent.trans {W : Type} {run run' run'' : Run W} (h : Silent run run')
    (h' : Silent run' run'') : Silent run run'' := by
  obtain ⟨_, _, h⟩ := h
  obtain ⟨_, _, h'⟩ := h'
  exact (h.trans h').silent

instance {W : Type} : IsPreorder (Run W) Silent where
  refl run := Extends.silent (.of_still (refl run))
  trans _ _ _ := Silent.trans

section Steps

variable {W : Type} {services : Services W} {invocation : AgentInvocation}

/-- Recording a draft extends the history by what the draft says. -/
theorem wp_recordDurableDraft_extends (eventId : String) (draft : DraftEvent) (run : Run W) :
    wp (recordDurableDraft services eventId draft)
      (fun _ => Extends draft.startedId.toList draft.answeredId.toList run)
      (fun _ => Extends [] [] run) run := by
  rw [recordDurableDraft, wp_bind, wp_ask, wp_bind, wp_remember, wp_bind]
  cases (services.record eventId draft run.world).1 with
  | error error =>
    rw [wp_orFail_error]
    refine ⟨⟨[.record eventId draft (.error error)], rfl, by simp [Call.isGenerate], rfl, rfl⟩, ?_,
      id⟩
    intro hfaithful
    rw [Run.Faithful, hfaithful]
    simp [recordedDrafts, Call.draft]
  | ok id =>
    rw [wp_orFail_ok, wp_bind, wp_updateResult, wp_pure]
    refine ⟨⟨[.record eventId draft (.ok id)], rfl, by simp [Call.isGenerate], ?_, ?_⟩, ?_, fun h =>
      h⟩
    · cases h : draft.startedId <;> simp [startedIds, recordedDrafts, Call.draft, h]
    · cases h : draft.answeredId <;> simp [answeredIds, recordedDrafts, Call.draft, h]
    · intro hfaithful
      have hevents : run.result.events = recordedDrafts run.calls := hfaithful
      simp [Run.Faithful, recordedDrafts, Call.draft, hevents]

/-- Recording anything else extends nothing. -/
theorem moves_recordDurableDraft_aside (eventId : String) {draft : DraftEvent} (h : draft.Aside) :
    Moves (Extends [] []) (recordDurableDraft services eventId draft) := by
  intro run
  have hrecord : wp (recordDurableDraft services eventId draft) _ _ run :=
    wp_recordDurableDraft_extends eventId draft run
  rw [h.1, h.2] at hrecord
  exact hrecord

theorem moves_recordEffect_aside (status : EffectStatus) (identity : EffectIdentity)
    (capability : Capability) (causedBy : String) (params : Map) (result : Option Map) :
    Moves (Extends [] [])
      (recordEffect services invocation status identity capability causedBy params
      result) :=
  .of_bind (moves_recordDurableDraft_aside _ (aside_effectDraft _ _ _ _ _ _ _)) fun _ => .of_pure _

theorem quiet_propose (proposal : AgentProposal) :
    Moves (Extends [] []) (propose proposal : RunM W Unit) :=
  .of_modify fun _ => ⟨⟨[], rfl, by simp, rfl, rfl⟩, id, id⟩

theorem silent_of_quiet {x : RunM W α} (h : Moves (Extends [] []) x) : Moves Silent x :=
  h.mono fun _ _ h => h.silent

theorem quiet_of_still {x : RunM W α} (h : Moves Run.Still x) : Moves (Extends [] []) x :=
  h.mono fun _ _ => .of_still

theorem silent_finishRun {reason : RunStopReason} (h : reason ≠ .maxModelCalls) :
    Moves Silent (finishRun reason : RunM W RunLoopControl) := by
  refine .of_bind (.of_modify fun run => ⟨[], [], ?_⟩) fun _ =>
    .of_bind (silent_of_quiet (quiet_of_still (still_step _))) fun _ => .of_pure _
  exact ⟨⟨[], rfl, by simp, rfl, rfl⟩, id, fun _ => by simpa using h⟩

/-- The ids of some calls that begin at a position of their message. -/
def idsFrom (index : ℕ) (toolCalls : List Map) : List String :=
  toolCalls.mapIdx fun i toolCall => toolCallId toolCall (index + i)

theorem idsFrom_cons (index : ℕ) (toolCall : Map) (toolCalls : List Map) :
    idsFrom index (toolCall :: toolCalls) =
      toolCallId toolCall index :: idsFrom (index + 1) toolCalls := by
  simp only [idsFrom, List.mapIdx_cons, Nat.add_zero, List.cons.injEq, true_and]
  congr 1
  funext i toolCall
  rw [Nat.add_assoc, Nat.add_comm 1]

/-- Where processing some calls may end: having dealt with all that are fresh, or anywhere. -/
def BatchEnd (run : Run W) (ids : List String) (control : RunLoopControl) (run' : Run W) : Prop :=
  Silent run run' ∧
    (control = .continue →
      Extends (fresh (answeredIds run.calls) ids) (fresh (answeredIds run.calls) ids)
      run run')

/-- What comes before the calls may extend nothing. -/
theorem BatchEnd.of_extends {run run₁ run' : Run W} {control : RunLoopControl}
    (hend : BatchEnd run₁ ids control run') (h : Extends [] [] run run₁) :
    BatchEnd run ids control run' := by
  have hseen : answeredIds run₁.calls = answeredIds run.calls := by simpa using h.answeredIds_eq
  refine ⟨h.silent.trans hend.1, fun hcontrol => ?_⟩
  rw [← hseen]
  exact h.trans_left (hend.2 hcontrol)

/-- A call is processed if and only if no call with its id was answered before. -/
theorem Run.Faithful.isSome_terminalToolResult {run : Run W} (h : run.Faithful) (id : String) :
    (terminalToolResult run.result.events id).isSome ↔ id ∈ answeredIds run.calls := by
  have hevents : run.result.events = recordedDrafts run.calls := h
  rw [hevents, answeredIds, mem_filterMap_answeredId]

/-! ### One tool call -/

variable [AgentPlatform]

theorem quiet_runExternal (capability : Capability) (parsed : ParsedToolCall) (params : Map)
    (callEventId : String) :
    Moves (Extends [] [])
      (runExternal services invocation capability parsed params callEventId) := by
  refine .of_bind ((still_orFail _).mono fun _ _ => .of_still) fun effect => .of_bind ?_ fun _ => ?_
  · cases effect with
    | none => exact .of_pure _
    | some identity => exact .of_bind (moves_recordEffect_aside _ _ _ _ _ _) fun _ =>
        moves_recordEffect_aside _ _ _ _ _ _
  · refine .of_bind
      (.of_modify fun run => ⟨⟨[_], rfl, by simp [Call.isGenerate], rfl, rfl⟩, ?_, id⟩)
      fun _ => ?_
    · intro hfaithful
      have hevents : run.result.events = recordedDrafts run.calls := hfaithful
      simp [Run.Faithful, recordedDrafts, Call.draft, hevents]
    · exact .of_bind ((still_ask _).mono fun _ _ => .of_still) fun _ =>
        .of_bind ((still_executionResult _ _).mono fun _ _ => .of_still) fun _ => .of_pure _

/-- Doing what a call asks for records no other call or result. -/
theorem quiet_executeToolCall (parsed : ParsedToolCall) (position : ℕ) (callEventId : String)
    (validation : Validation) :
    Moves (Extends [] [])
      (executeToolCall services invocation parsed position callEventId validation) := by
  rcases validation with error | ⟨route, params⟩
  · exact .of_pure _
  unfold executeToolCall runValidTool
  dsimp only
  split
  · exact quiet_runExternal _ _ _ _
  · unfold runWait
    split
    · exact .of_pure _
    · split
      · exact .of_pure _
      · exact .of_bind (quiet_propose _) fun _ => .of_pure _
  · unfold runPublish
    split
    · exact .of_pure _
    · dsimp only
      split
      · exact .of_pure _
      · split
        · exact .of_pure _
        · unfold proposePublish
          split
          · exact .of_pure _
          · exact .of_bind (quiet_propose _) fun _ => .of_pure _
  · unfold runCancel
    split
    · exact .of_bind (quiet_propose _) fun _ => .of_pure _
    · exact .of_pure _
  · exact .of_bind ((still_ask _).mono fun _ _ => .of_still) fun _ =>
      .of_bind ((still_orFail _).mono fun _ _ => .of_still) fun _ => .of_pure _

theorem callId_fromValue (toolCall : Map) (index : ℕ) :
    (ParsedToolCall.fromValue toolCall index).callId = toolCallId toolCall index := by
  unfold ParsedToolCall.fromValue
  split
  · rfl
  · unfold parseFunction
    split <;> rfl

/-- A call that is processed to its end is recorded as started once and answered once. -/
theorem wp_processToolCall_extends (capabilities : CapabilitySet) (toolCall : Map)
    (index position : ℕ) (assistantEventId : Option String) (modelTelemetry : Map) (run : Run W) :
    wp (processToolCall services invocation capabilities toolCall index position assistantEventId
        modelTelemetry)
      (fun _ => Extends [toolCallId toolCall index] [toolCallId toolCall index] run)
      (fun _ => Silent run) run := by
  unfold processToolCall
  rw [← callId_fromValue]
  generalize ParsedToolCall.fromValue toolCall index = parsed
  dsimp only
  rw [wp_bind]
  refine wp_mono (quiet_of_still still_recordTrace run) (fun _ traced htraced => ?_) fun _ _ h =>
    h.silent
  rw [wp_bind]
  refine wp_mono (wp_recordDurableDraft_extends _ _ traced) (fun callEventId called hcalled => ?_)
    fun _ _ h => (htraced.trans h).silent
  rw [startedId_callDraft, answeredId_callDraft] at hcalled
  have hcalled := htraced.trans_left hcalled
  rw [wp_bind]
  refine wp_mono (quiet_executeToolCall parsed position callEventId _ called)
    (fun execution executed hexecuted => ?_) fun _ _ h => (hcalled.trans h).silent
  have hexecuted := hcalled.trans_right hexecuted
  rw [wp_bind]
  refine wp_mono (quiet_of_still still_nextEventId executed) (fun eventId named hnamed => ?_)
    fun _ _ h => (hexecuted.trans h).silent
  have hnamed := hexecuted.trans_right hnamed
  rw [wp_bind]
  refine wp_mono (quiet_of_still still_recordTrace named) (fun _ traced htraced => ?_)
    fun _ _ h => (hnamed.trans h).silent
  have htraced := hnamed.trans_right htraced
  rw [wp_bind]
  refine wp_mono (wp_recordDurableDraft_extends _ _ traced) (fun eventId answered hanswered => ?_)
    fun _ _ h => (htraced.trans h).silent
  rw [startedId_resultDraft, answeredId_resultDraft] at hanswered
  have hanswered := htraced.trans hanswered
  rw [wp_bind]
  have hcomplete : Moves (Extends [] []) (completeEffect services invocation callEventId
      execution.toolResult execution.effect) := by
    cases execution.effect with
    | none => exact .of_pure _
    | some effect => exact moves_recordEffect_aside _ _ _ _ _ _
  exact wp_mono (hcomplete answered) (fun _ _ h => hanswered.trans_right h)
    fun _ _ h => (hanswered.trans h).silent

/-! ### The calls of a message -/

omit [AgentPlatform] in
/-- What follows a call that was processed. -/
theorem wp_afterToolCall_extends (outcome : ToolOutcome) {rest : RunM W RunLoopControl}
    {run : Run W} (ids : List String)
    (hrest : ∀ run', Extends [] [] run run' →
      wp rest (BatchEnd run' ids) (fun _ => Silent run') run') :
    wp (afterToolCall services invocation outcome rest) (BatchEnd run ids) (fun _ => Silent run)
      run := by
  unfold afterToolCall
  rw [wp_bind]
  refine wp_mono (quiet_of_still (still_step _) run) (fun _ stepped hstepped => ?_) fun _ _ h =>
    h.silent
  rw [wp_bind]
  refine wp_mono (quiet_of_still (still_setCause _) stepped) (fun _ caused hcaused => ?_)
    fun _ _ h => (hstepped.trans h).silent
  rw [wp_bind]
  refine wp_mono (quiet_of_still still_abortReason caused) (fun reason checked hchecked => ?_)
    fun _ _ h => ((hstepped.trans hcaused).trans h).silent
  have hchecked : Extends [] [] run checked := (hstepped.trans hcaused).trans hchecked
  cases reason with
  | some reason => exact ⟨hchecked.silent, by simp⟩
  | none =>
    dsimp only
    split
    · refine wp_mono (wp_and (silent_finishRun (by decide) checked) (?_ : wp _ (fun control _ =>
        control = .finish) (fun _ _ => True) checked)) ?_ fun _ _ h => hchecked.silent.trans h.1
      · rfl
      · rintro control run' ⟨hsilent, rfl⟩
        exact ⟨hchecked.silent.trans hsilent, by simp⟩
    · exact wp_mono (hrest checked hchecked) (fun _ _ hend => hend.of_extends hchecked)
        fun _ _ h => hchecked.silent.trans h

/-- Processing the calls of a message deals with those that are fresh, by induction on the calls
that are left. -/
theorem wp_runToolCalls_extends (capabilities : CapabilitySet) (assistantEventId : Option String)
    (modelTelemetry : Map) (toolCalls : List Map) (index : ℕ) {run : Run W}
    (hfaithful : run.Faithful) :
    wp (runToolCalls services invocation capabilities assistantEventId modelTelemetry index
      toolCalls)
      (BatchEnd run (idsFrom index toolCalls)) (fun _ => Silent run) run := by
  induction toolCalls generalizing index run with
  | nil => exact ⟨refl run, fun _ => .of_still (refl run)⟩
  | cons toolCall toolCalls ih =>
    rw [idsFrom_cons]
    unfold runToolCalls
    rw [wp_bind]
    refine wp_mono (quiet_of_still (still_step _) run) (fun _ stepped hstepped => ?_) fun _ _ h =>
      h.silent
    rw [wp_bind]
    refine wp_mono (quiet_of_still still_abortReason stepped) (fun reason checked hchecked => ?_)
      fun _ _ h => (hstepped.trans h).silent
    have hchecked : Extends [] [] run checked := hstepped.trans hchecked
    cases reason with
    | some reason => exact ⟨hchecked.silent, by simp⟩
    | none =>
      dsimp only
      rw [wp_bind]
      refine wp_mono (quiet_of_still still_takePosition checked) (fun position placed hplaced => ?_)
        fun _ _ h => (hchecked.trans h).silent
      have hplaced : Extends [] [] run placed := hchecked.trans hplaced
      have hseen : answeredIds placed.calls = answeredIds run.calls := by
        simpa using hplaced.answeredIds_eq
      rw [wp_bind, wp_get]
      simp only [(hplaced.faithful hfaithful).isSome_terminalToolResult, hseen]
      by_cases hmem : toolCallId toolCall index ∈ answeredIds run.calls
      · -- The call is skipped, and nothing is recorded for it.
        have hfresh : fresh (answeredIds run.calls)
          (toolCallId toolCall index :: idsFrom (index + 1) toolCalls)
            = fresh (answeredIds run.calls) (idsFrom (index + 1) toolCalls) := if_pos hmem
        unfold BatchEnd
        rw [if_pos hmem, hfresh, wp_bind]
        refine wp_mono (quiet_of_still (still_step _) placed) (fun _ stepped hstepped => ?_)
          fun _ _ h => (hplaced.trans h).silent
        rw [wp_bind]
        refine wp_mono (quiet_of_still (still_setCause _) stepped) (fun _ caused hcaused => ?_)
          fun _ _ h => ((hplaced.trans hstepped).trans h).silent
        have hcaused : Extends [] [] run caused := (hplaced.trans hstepped).trans hcaused
        exact wp_mono (ih (index + 1) (hcaused.faithful hfaithful))
          (fun _ _ hend => hend.of_extends hcaused)
          fun _ _ h => hcaused.silent.trans h
      · -- The call is processed, and counts as answered for those after it.
        have hfresh : fresh (answeredIds run.calls)
          (toolCallId toolCall index :: idsFrom (index + 1) toolCalls)
            = [toolCallId toolCall index] ++ fresh
              (answeredIds run.calls ++ [toolCallId toolCall index])
              (idsFrom (index + 1) toolCalls) := by
          rw [fresh, if_neg hmem, List.singleton_append]
          congr 1
          exact fresh_congr (by simp [or_comm])
        unfold BatchEnd
        rw [if_neg hmem, hfresh, wp_bind]
        refine wp_mono (quiet_of_still (still_step _) placed) (fun _ called hcalled => ?_)
          fun _ _ h => (hplaced.trans h).silent
        rw [wp_bind]
        refine wp_mono (quiet_of_still (still_step _) called) (fun _ executing hexecuting => ?_)
          fun _ _ h => ((hplaced.trans hcalled).trans h).silent
        have hexecuting : Extends [] [] run executing := (hplaced.trans hcalled).trans hexecuting
        rw [wp_bind]
        refine wp_mono
          (wp_processToolCall_extends capabilities toolCall index position assistantEventId _
          executing) (fun outcome processed hprocessed => ?_) fun _ _ h => hexecuting.silent.trans h
        have hprocessed := hexecuting.trans_left hprocessed
        refine wp_mono (wp_afterToolCall_extends outcome (idsFrom (index + 1) toolCalls)
          fun run' hrun' => ?_) (fun control run' hend => ?_) fun _ _ h => hprocessed.silent.trans h
        · exact ih (index + 1) ((hprocessed.trans hrun').faithful hfaithful)
        · refine ⟨hprocessed.silent.trans hend.1, fun hcontrol => ?_⟩
          rw [← hprocessed.answeredIds_eq]
          exact hprocessed.trans (hend.2 hcontrol)

end Steps

end Zeta
