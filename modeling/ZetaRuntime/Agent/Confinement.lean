import ZetaRuntime.Agent.Runner

/-!
# What a run can do

The model is not trusted. Whatever it replies, and whatever the other services answer, a capability
is executed only if the invocation grants it, with arguments that passed both of its schemas, and
behind the barrier of its effect; events are proposed only as declared; and the model is asked no
more often than allowed.

All of it is one invariant of the calls a run has made (`CallsLicensed`), newest first: each call is
licensed by the calls before it. A tool call can only be processed if a reply contains it
(`Written`), which is kept as the calls grow.

## Main definitions

* `ExecutionLicensed`, `CallsLicensed` — the calls a run may make
* `Safe`, `SafeWithin` — the invariant of the loop

## Main results

* `wp_executeCapability` — the executor is only called with a license
* `run_confined` — whole runs
-/

namespace Zeta

open Outcome Program

variable {calls' : List Call} {α : Type}

variable {capability : Capability} {capabilities : CapabilitySet} {params : Map}
  {effect : Option EffectIdentity} {index requests : ℕ}

section

variable [AgentPlatform] (invocation : AgentInvocation) (declarations : List ResolvedCapability)

/-- A tool call that the model wrote in a reply. -/
def Written (calls : List Call) (toolCall : Map) : Prop :=
  ∃ output, Call.generate (.ok output) ∈ calls ∧ toolCall ∈ assistantToolCalls output.message

/-- An effect fact that was recorded. -/
def EffectRecorded (calls : List Call) (status : EffectStatus) (identity : EffectIdentity)
    (capability : Capability) (params : Map) : Prop :=
  ∃ causedBy retained, Call.record (effectEventId status identity)
    (effectDraft invocation status identity capability causedBy params none) (.ok retained) ∈ calls

/-- The requests to the model among some calls. -/
def modelRequests (calls : List Call) : ℕ :=
  calls.countP fun call => match call with
    | .generate _ => true
    | .execute _ | .record _ _ _ => false

/-- An execution that earlier calls license: of a capability that is declared and granted, with the
adapted arguments of a call the model wrote, which fit both schemas, and behind the barrier of its
effect, if it has one. -/
structure ExecutionLicensed (earlier : List Call) (call : CapabilityInvocation)
    (capability : ResolvedCapability) : Prop where
  declared : capability ∈ declarations
  allowed : capability.canonical.id ∈ invocation.allowedCapabilities
  named : call.capabilityId = capability.canonical.id
  written : ∃ toolCall index, Written earlier toolCall ∧
    FitsSchema (ParsedToolCall.fromValue toolCall index).params capability.modelInputSchema ∧
    capability.argumentAdapter.adapt (ParsedToolCall.fromValue toolCall index).params =
      .ok call.params
  fits : FitsSchema call.params capability.canonical.inputSchema
  barrier : ∀ semantics ∈ capability.canonical.deliverySemantics, ∃ identity : EffectIdentity,
    identity.semantics = semantics ∧ call.effectKey = some identity.key ∧
    EffectRecorded invocation earlier .planned identity capability.canonical call.params ∧
    EffectRecorded invocation earlier .started identity capability.canonical call.params

/-- A call that earlier calls license. -/
def Licensed (earlier : List Call) : Call → Prop
  | .generate _ => modelRequests earlier < invocation.maxModelCalls
  | .execute call => ∃ capability, ExecutionLicensed invocation declarations earlier call capability
  | .record _ _ _ => True

/-- Each call was licensed when it was made. -/
def CallsLicensed : List Call → Prop
  | [] => True
  | call :: earlier => Licensed invocation declarations earlier call ∧ CallsLicensed earlier

/-- A proposal to publish is one of a declared event with a payload that fits. -/
def Publishable : AgentProposal → Prop
  | .publish _ eventType payload _ _ =>
    ∃ schema, invocation.publishableEvents.get eventType = some schema ∧
      publishViolation schema payload = none
  | .wait _ _ _ _ _ | .cancel _ _ _ _ _ => True

/-- The calls and proposals of a run so far are those it may make, and the calls that are pending
were written by the model. -/
structure Safe {W : Type} (run : Run W) : Prop where
  licensed : CallsLicensed invocation declarations run.calls
  publishable : ∀ proposal ∈ run.result.proposals, Publishable invocation proposal
  pending : ∀ toolCall ∈ run.pendingToolCalls, Written run.calls toolCall

/-- A run went on without a request to the model, and stayed safe. -/
structure Advanced {W : Type} (run run' : Run W) : Prop where
  safe : Safe invocation declarations run → Safe invocation declarations run'
  calls : run.calls <:+ run'.calls
  requests : modelRequests run'.calls = modelRequests run.calls

instance {W : Type} : IsPreorder (Run W) (Advanced invocation declarations) where
  refl _ := ⟨id, List.suffix_refl _, rfl⟩
  trans _ _ _ h h' :=
    ⟨h'.safe ∘ h.safe, h.calls.trans h'.calls, h'.requests.trans h.requests⟩

theorem Advanced.trans {W : Type} {a b c : Run W} {invocation : AgentInvocation}
    {declarations : List ResolvedCapability} (h : Advanced invocation declarations a b)
    (h' : Advanced invocation declarations b c) : Advanced invocation declarations a c :=
  IsTrans.trans a b c h h'

omit [AgentPlatform] in
theorem Written.mono {calls : List Call} {toolCall : Map} (h : Written calls toolCall)
    (hcalls : calls <:+ calls') : Written calls' toolCall := by
  obtain ⟨output, hmem, hcall⟩ := h
  exact ⟨output, hcalls.mem hmem, hcall⟩

variable {invocation declarations} {W : Type} {services : Services W}

/-! ### The primitives -/

/-- A change that leaves the calls and the proposals alone. -/
theorem Advanced.of_eq {run run' : Run W} (hcalls : run'.calls = run.calls)
    (hproposals : run'.result.proposals = run.result.proposals)
    (hpending : ∀ toolCall ∈ run'.pendingToolCalls, toolCall ∈ run.pendingToolCalls) :
    Advanced invocation declarations run run' where
  safe h := ⟨hcalls ▸ h.licensed, hproposals ▸ h.publishable,
    fun toolCall hmem => hcalls ▸ h.pending toolCall (hpending toolCall hmem)⟩
  calls := hcalls ▸ List.suffix_refl _
  requests := by rw [hcalls]

/-- Another call, other than a request to the model. -/
theorem Advanced.of_call {run run' : Run W} {call : Call} (hcalls : run'.calls = call :: run.calls)
    (hresult : run'.result = run.result) (hpending : run'.pendingToolCalls = run.pendingToolCalls)
    (hcall : ∀ output, call ≠ .generate output)
    (hlicensed : Licensed invocation declarations run.calls call) :
    Advanced invocation declarations run run' where
  safe h :=
    { licensed := by
        rw [hcalls]
        exact ⟨hlicensed, h.licensed⟩
      publishable := hresult ▸ h.publishable
      pending := by
        rw [hcalls, hpending]
        exact fun toolCall hmem => (h.pending toolCall hmem).mono (List.suffix_cons _ _) }
  calls := hcalls ▸ List.suffix_cons _ _
  requests := by
    rw [hcalls]
    cases call with
    | generate output => exact absurd rfl (hcall output)
    | execute call => rfl
    | record eventId draft retained => rfl

theorem Advanced.of_still {run run' : Run W} (h : run.Still run') :
    Advanced invocation declarations run run' :=
  .of_eq h.calls h.proposals fun _ hmem => h.pending ▸ hmem

theorem moves_ask (service : W → α × W) : Moves (Advanced invocation declarations) (ask service) :=
  (still_ask service).mono fun _ _ => .of_still

theorem moves_orFail (outcome : Except AgentError α) :
    Moves (Advanced invocation declarations) (orFail outcome : RunM W α) :=
  (still_orFail outcome).mono fun _ _ => .of_still

theorem moves_updateResult {f : AgentRunResult → AgentRunResult}
    (h : ∀ result, (f result).proposals = result.proposals) :
    Moves (Advanced invocation declarations) (updateResult f : RunM W Unit) :=
  .of_modify fun run => .of_eq rfl (h run.result) fun _ h => h

theorem moves_step (name : StepName) :
    Moves (Advanced invocation declarations) (step name : RunM W Unit) :=
  (still_step name).mono fun _ _ => .of_still

theorem moves_abortReason :
    Moves (Advanced invocation declarations) (abortReason services invocation) :=
  still_abortReason.mono fun _ _ => .of_still

theorem moves_nextEventId : Moves (Advanced invocation declarations) (nextEventId services) :=
  still_nextEventId.mono fun _ _ => .of_still

theorem moves_recordTrace : Moves (Advanced invocation declarations) (recordTrace services) :=
  still_recordTrace.mono fun _ _ => .of_still

theorem moves_finishRun (reason : RunStopReason) :
    Moves (Advanced invocation declarations) (finishRun reason : RunM W RunLoopControl) :=
  .of_bind (moves_updateResult fun _ => rfl) fun _ => .of_bind (moves_step _) fun _ => .of_pure _

theorem moves_remember_record (eventId : String) (draft : DraftEvent)
    (retained : Except AgentError String) :
    Moves (Advanced invocation declarations)
      (remember (.record eventId draft retained) : RunM W Unit) :=
  .of_modify fun _ => .of_call rfl rfl rfl (by simp) trivial

theorem moves_recordDurableDraft (eventId : String) (draft : DraftEvent) :
    Moves (Advanced invocation declarations) (recordDurableDraft services eventId draft) :=
  .of_bind (moves_ask _) fun _ => .of_bind (moves_remember_record _ _ _) fun _ =>
    .of_bind (moves_orFail _) fun _ => .of_bind (moves_updateResult fun _ => rfl) fun _ =>
      .of_pure _

theorem moves_recordEffect (status : EffectStatus) (identity : EffectIdentity)
    (capability : Capability) (causedBy : String) (params : Map) (result : Option Map) :
    Moves (Advanced invocation declarations)
      (recordEffect services invocation status identity capability causedBy params result) :=
  .of_bind (moves_recordDurableDraft _ _) fun _ => .of_pure _

/-! ### The barrier of an effect -/

omit [AgentPlatform] in
/-- A recorded draft is remembered as recorded. -/
theorem wp_recordDurableDraft (eventId : String) (draft : DraftEvent) (run : Run W) :
    wp (recordDurableDraft services eventId draft)
      (fun id run' => Call.record eventId draft (.ok id) ∈ run'.calls) (fun _ _ => True) run := by
  rw [recordDurableDraft, wp_bind, wp_ask]
  cases (services.record eventId draft run.world).1 with
  | error error => trivial
  | ok id => exact .head _

/-- Recording an effect fact moves on, and leaves it recorded. -/
theorem wp_recordEffect (status : EffectStatus) (identity : EffectIdentity)
    (capability : Capability) (causedBy : String) (params : Map) (run : Run W) :
    wp (recordEffect services invocation status identity capability causedBy params none)
      (fun _ run' => Advanced invocation declarations run run' ∧
        EffectRecorded invocation run'.calls status identity capability params)
      (fun _ => Advanced invocation declarations run) run := by
  have hrecorded : wp
    (recordEffect services invocation status identity capability causedBy params none)
      (fun _ run' => EffectRecorded invocation run'.calls status identity capability params)
      (fun _ _ => True) run := by
    rw [recordEffect, wp_bind]
    exact wp_mono (wp_recordDurableDraft _ _ run) (fun id _ h => ⟨causedBy, id, h⟩) fun _ _ h => h
  exact wp_mono
    (wp_and (moves_recordEffect status identity capability causedBy params none run) hrecorded)
    (fun _ _ h => h) (fun _ _ h => h.1)

omit [AgentPlatform] in
theorem EffectRecorded.mono {calls : List Call} {status : EffectStatus} {identity : EffectIdentity}
    (h : EffectRecorded invocation calls status identity capability params)
    (hcalls : calls <:+ calls') :
    EffectRecorded invocation calls' status identity capability params := by
  obtain ⟨causedBy, retained, hmem⟩ := h
  exact ⟨causedBy, retained, hcalls.mem hmem⟩

/-- Behind the barrier both facts are recorded. -/
theorem wp_beginEffect (capability : Capability) (callEventId : String) (params : Map)
    (effect : Option EffectIdentity) (run : Run W) :
    wp (beginEffect services invocation capability callEventId params effect)
      (fun _ run' => Advanced invocation declarations run run' ∧ ∀ identity ∈ effect,
        EffectRecorded invocation run'.calls .planned identity capability params ∧
        EffectRecorded invocation run'.calls .started identity capability params)
      (fun _ => Advanced invocation declarations run) run := by
  cases effect with
  | none => exact ⟨refl run, by simp⟩
  | some identity =>
    rw [beginEffect, wp_bind]
    refine wp_mono (wp_recordEffect .planned identity capability callEventId params run) ?_
      fun _ _ h => h
    rintro _ planned ⟨hplanned, hrecorded⟩
    refine wp_mono (wp_recordEffect .started identity capability callEventId params planned) ?_
      fun _ _ h => hplanned.trans h
    rintro _ started ⟨hstarted, hrecorded'⟩
    refine ⟨hplanned.trans hstarted, ?_⟩
    rintro _ ⟨⟩
    exact ⟨hrecorded.mono hstarted.calls, hrecorded'⟩

/-- The effect of a capability has the semantics of the capability. -/
theorem effectIdentity_ok {parsed : ParsedToolCall}
    (h : effectIdentity invocation capability parsed params = .ok effect) :
    effect.map (·.semantics) = capability.deliverySemantics := by
  unfold effectIdentity at h
  split at h
  · cases h
    simp [*]
  · simp only [ok_iff] at h
    obtain ⟨key, -, rfl⟩ := h
    simp [*]

/-- Handing a call to the executor needs a license; what follows moves on by itself. -/
theorem wp_executeCapability {run : Run W} (name : String)
    (hlicensed : Licensed invocation declarations run.calls
      (.execute ⟨capability.id, params, invocation.baseDirectory, effect.map (·.key)⟩)) :
    Ends (executeCapability services invocation capability name params effect)
      (Advanced invocation declarations run) run :=
  Moves.wp_bind_of (.of_call rfl rfl rfl (by simp) hlicensed) fun _ _ _ =>
    Moves.of_bind (moves_ask _)
      (fun _ => .of_bind ((still_executionResult _ _).mono fun _ _ => .of_still) fun _ =>
        .of_pure _) _

/-- A capability is executed with a license. -/
theorem wp_runExternal {capability : ResolvedCapability} {toolCall : Map}
    (declared : capability ∈ declarations)
    (allowed : capability.canonical.id ∈ invocation.allowedCapabilities)
    (hmodel : FitsSchema (ParsedToolCall.fromValue toolCall index).params
      capability.modelInputSchema)
    (hadapt : capability.argumentAdapter.adapt (ParsedToolCall.fromValue toolCall index).params =
      .ok params) (hfits : FitsSchema params capability.canonical.inputSchema)
    (callEventId : String) {run : Run W} (hwritten : Written run.calls toolCall) :
    Ends
      (runExternal services invocation capability.canonical
      (ParsedToolCall.fromValue toolCall index) params callEventId)
      (Advanced invocation declarations run) run := by
  unfold runExternal
  cases heffect : effectIdentity invocation capability.canonical
      (ParsedToolCall.fromValue toolCall index) params with
  | error error => exact refl run
  | ok effect =>
    rw [Ends, wp_bind, wp_orFail_ok, wp_bind]
    refine wp_mono (wp_beginEffect capability.canonical callEventId params effect run) ?_
      fun _ _ h => h
    rintro _ begun ⟨hbegun, hbarrier⟩
    have hsemantics := effectIdentity_ok heffect
    have hlicensed : Licensed invocation declarations begun.calls (.execute
        ⟨capability.canonical.id, params, invocation.baseDirectory, effect.map (·.key)⟩) := by
      refine ⟨capability, declared, allowed, rfl,
        ⟨toolCall, index, hwritten.mono hbegun.calls, hmodel, hadapt⟩, hfits, fun semantics hsome =>
          ?_⟩
      rw [← hsemantics, Option.mem_def, Option.map_eq_some_iff] at hsome
      obtain ⟨identity, rfl, rfl⟩ := hsome
      exact ⟨identity, rfl, rfl, hbarrier identity rfl⟩
    exact Ends.mono (wp_executeCapability _ hlicensed) fun _ h => hbegun.trans h

/-! ### The controls -/

theorem moves_propose {proposal : AgentProposal} (h : Publishable invocation proposal) :
    Moves (Advanced invocation declarations) (propose proposal : RunM W Unit) := by
  refine .of_modify fun run => ⟨fun hsafe => ⟨hsafe.licensed, fun other hmem => ?_, hsafe.pending⟩,
    List.suffix_refl _, rfl⟩
  rcases List.mem_append.mp hmem with hmem | hmem
  · exact hsafe.publishable other hmem
  · rw [List.mem_singleton.mp hmem]
    exact h

theorem moves_runWait (routeId : String) (params : Map) (position : ℕ) :
    Moves (Advanced invocation declarations)
      (runWait invocation routeId params position : RunM W _) := by
  unfold runWait
  split
  · exact .of_pure _
  · split
    · exact .of_pure _
    · exact .of_bind (moves_propose trivial) fun _ => .of_pure _

theorem moves_runCancel (routeId : String) (params : Map) (position : ℕ) :
    Moves (Advanced invocation declarations)
      (runCancel invocation routeId params position : RunM W _) := by
  unfold runCancel
  split
  · exact .of_bind (moves_propose trivial) fun _ => .of_pure _
  · exact .of_pure _

theorem moves_runPublish (routeId : String) (params : Map) (position : ℕ) :
    Moves (Advanced invocation declarations)
      (runPublish invocation routeId params position : RunM W _) := by
  unfold runPublish
  split
  · exact .of_pure _
  dsimp only
  split
  · exact .of_pure _
  case _ schema hschema =>
    split
    · exact .of_pure _
    case _ hviolation =>
      unfold proposePublish
      split
      · exact .of_pure _
      · exact .of_bind (moves_propose ⟨schema, hschema, hviolation⟩) fun _ => .of_pure _

/-! ### One tool call -/

/-- A call that passed its checks does nothing that it is not granted. -/
theorem wp_runValidTool {toolCall : Map} {route : AgentRoute}
    (hgranted : capabilities.Granted invocation declarations)
    (hvalid : capabilities.validate (ParsedToolCall.fromValue toolCall index) = .ok (route, params))
    (position : ℕ) (callEventId : String) {run : Run W} (hwritten : Written run.calls toolCall) :
    Ends
      (runValidTool services invocation route (ParsedToolCall.fromValue toolCall index) params
      position callEventId) (Advanced invocation declarations run) run := by
  obtain ⟨-, hroute, hmodel, hadapt, hcanonical⟩ := CapabilitySet.validate_ok hvalid
  simp only [CapabilitySet.route, Option.map_eq_some_iff] at hroute
  obtain ⟨⟨name, route⟩, hfind, rfl⟩ := hroute
  unfold runValidTool
  rcases hgranted.2 _ (List.mem_of_find?_eq_some hfind) with
    ⟨capability, declared, allowed, hkind, hschema, hschema', hadapter⟩ | hcontrol
  · rw [hkind]
    rw [hadapter] at hadapt
    rw [hschema] at hmodel
    rw [hschema'] at hcanonical
    exact wp_runExternal declared allowed hmodel hadapt hcanonical callEventId hwritten
  · cases hkind : route.kind with
    | external capability => exact absurd hkind (hcontrol capability)
    | publish => exact moves_runPublish _ _ _ run
    | wait => exact moves_runWait _ _ _ run
    | cancel => exact moves_runCancel _ _ _ run
    | queryContextBudget =>
      exact Moves.of_bind (moves_ask _) (fun _ => .of_bind (moves_orFail _) fun _ => .of_pure _) run

theorem wp_executeToolCall {toolCall : Map}
    (hgranted : capabilities.Granted invocation declarations) (position : ℕ) (callEventId : String)
    {run : Run W} (hwritten : Written run.calls toolCall) :
    Ends
      (executeToolCall services invocation (ParsedToolCall.fromValue toolCall index) position
      callEventId (capabilities.validate (ParsedToolCall.fromValue toolCall index)))
      (Advanced invocation declarations run) run := by
  cases hvalid : capabilities.validate (ParsedToolCall.fromValue toolCall index) with
  | error error => exact refl run
  | ok validated => exact wp_runValidTool hgranted hvalid position callEventId hwritten

theorem moves_completeEffect (callEventId : String) (toolResult : Map)
    (effect : Option EffectCompletionContext) :
    Moves (Advanced invocation declarations)
      (completeEffect services invocation callEventId toolResult effect) := by
  cases effect with
  | none => exact .of_pure _
  | some effect => exact moves_recordEffect _ _ _ _ _ _

theorem wp_processToolCall (hgranted : capabilities.Granted invocation declarations)
    {toolCall : Map} (index position : ℕ) (assistantEventId : Option String) (modelTelemetry : Map)
    {run : Run W} (hwritten : Written run.calls toolCall) :
    Ends
      (processToolCall services invocation capabilities toolCall index position
      assistantEventId modelTelemetry) (Advanced invocation declarations run) run := by
  unfold processToolCall
  refine Moves.wp_bind_of (moves_recordTrace run) fun _ traced htraced => ?_
  refine Moves.wp_bind_of (moves_recordDurableDraft _ _ traced) fun callEventId called hcalled => ?_
  refine Moves.wp_bind_of (wp_executeToolCall hgranted position callEventId
    (hwritten.mono (htraced.trans hcalled).calls)) fun execution executed _ => ?_
  exact Moves.of_bind moves_nextEventId (fun _ => .of_bind moves_recordTrace fun _ =>
    .of_bind (moves_recordDurableDraft _ _) fun _ =>
    .of_bind (moves_completeEffect _ _ _) fun _ => .of_pure _) executed

/-! ### The calls of a message -/

theorem wp_afterToolCall (outcome : ToolOutcome) {rest : RunM W RunLoopControl} {run : Run W}
    (hrest : ∀ run', Advanced invocation declarations run run' →
      Ends rest (Advanced invocation declarations run') run') :
    Ends (afterToolCall services invocation outcome rest)
      (Advanced invocation declarations run) run := by
  unfold afterToolCall
  refine Moves.wp_bind_of (moves_step _ run) fun _ stepped hstepped => ?_
  refine Moves.wp_bind_of ((still_setCause _).mono (fun _ _ => .of_still) stepped)
    fun _ caused hcaused => ?_
  refine Moves.wp_bind_of (moves_abortReason caused) fun reason checked hchecked => ?_
  cases reason with
  | some reason => exact refl checked
  | none =>
    dsimp only
    split
    · exact moves_finishRun _ checked
    · exact hrest checked ((hstepped.trans hcaused).trans hchecked)

/-- Processing the calls of a message, by induction on those that are left. -/
theorem wp_runToolCalls (hgranted : capabilities.Granted invocation declarations)
    (assistantEventId : Option String) (modelTelemetry : Map) (toolCalls : List Map) (index : ℕ)
    {run : Run W} (hwritten : ∀ toolCall ∈ toolCalls, Written run.calls toolCall) :
    Ends
      (runToolCalls services invocation capabilities assistantEventId modelTelemetry index
      toolCalls) (Advanced invocation declarations run) run := by
  induction toolCalls generalizing index run with
  | nil => exact refl run
  | cons toolCall toolCalls ih =>
    have hhead := hwritten toolCall (.head _)
    have htail : ∀ {run' : Run W}, Advanced invocation declarations run run' →
        ∀ other ∈ toolCalls, Written run'.calls other := fun hrun other hmem =>
      (hwritten other (.tail _ hmem)).mono hrun.calls
    unfold runToolCalls
    refine Moves.wp_bind_of (moves_step _ run) fun _ stepped hstepped => ?_
    refine Moves.wp_bind_of (moves_abortReason stepped) fun reason checked hchecked => ?_
    cases reason with
    | some reason => exact refl checked
    | none =>
      refine Moves.wp_bind_of (still_takePosition.mono (fun _ _ => .of_still) checked)
        fun position placed hplaced => ?_
      have hrun := (hstepped.trans hchecked).trans hplaced
      rw [Ends, wp_bind, wp_get]
      split
      · refine Moves.wp_bind_of (moves_step _ placed) fun _ skipped hskipped => ?_
        refine Moves.wp_bind_of ((still_setCause _).mono (fun _ _ => .of_still) skipped)
          fun _ caused hcaused => ?_
        exact ih _ (htail ((hrun.trans hskipped).trans hcaused))
      · refine Moves.wp_bind_of (moves_step _ placed) fun _ called hcalled => ?_
        refine Moves.wp_bind_of (moves_step _ called) fun _ executing hexecuting => ?_
        have hrun := (hrun.trans hcalled).trans hexecuting
        refine Moves.wp_bind_of (wp_processToolCall hgranted index position assistantEventId _
          (hhead.mono hrun.calls)) fun outcome processed hprocessed => ?_
        exact wp_afterToolCall outcome fun run' hrun' =>
          ih _ (htail ((hrun.trans hprocessed).trans hrun'))

/-- The pending calls are taken once. -/
theorem wp_runPending (hgranted : capabilities.Granted invocation declarations) {run : Run W}
    (hsafe : Safe invocation declarations run) :
    Ends (runPending services invocation capabilities) (Advanced invocation declarations run)
      run := by
  unfold runPending
  rw [Ends, wp_bind, wp_get]
  split
  · exact refl run
  · unfold runPendingToolBatch
    rw [wp_bind, wp_get]
    refine Moves.wp_bind_of (Advanced.of_eq rfl rfl (by simp)) fun _ taken htaken => ?_
    exact wp_runToolCalls hgranted _ _ _ _ fun toolCall hmem =>
      (hsafe.pending toolCall hmem).mono htaken.calls

/-! ### The model -/

theorem wp_takeUp (output : ModelOutput) (eventId : String) {run : Run W}
    (houtput : Call.generate (.ok output) ∈ run.calls) :
    Ends (takeUp output eventId) (Advanced invocation declarations run) run := by
  unfold takeUp
  split
  · exact Moves.wp_bind_of (Advanced.of_eq rfl rfl fun _ h => h) fun _ answered _ =>
      moves_finishRun _ answered
  · exact ⟨fun hsafe =>
      ⟨hsafe.licensed, hsafe.publishable, fun toolCall hmem => ⟨output, houtput, hmem⟩⟩,
      List.suffix_refl _, rfl⟩

theorem moves_recordModel (output : ModelOutput) (promptObjectId : String) :
    Moves (Advanced invocation declarations)
      (recordModel services invocation output promptObjectId) :=
  .of_bind moves_nextEventId fun _ => .of_bind moves_recordTrace fun _ => .of_bind .of_get fun _ =>
    moves_recordDurableDraft _ _

theorem wp_handleReply (promptObjectId : String) {reply : Except AgentError ModelOutput}
    {run : Run W} (hreply : Call.generate reply ∈ run.calls) :
    Ends (handleReply services invocation promptObjectId reply)
      (Advanced invocation declarations run) run := by
  cases reply with
  | error error =>
    refine Moves.wp_bind_of (moves_abortReason run) fun reason checked _ => ?_
    cases reason with
    | none => exact refl checked
    | some reason => exact refl checked
  | ok output =>
    refine Moves.wp_bind_of (moves_step _ run) fun _ stepped hstepped => ?_
    refine Moves.wp_bind_of ((still_recordTelemetry _).mono (fun _ _ => .of_still) stepped)
      fun _ metered hmetered => ?_
    refine Moves.wp_bind_of (moves_ask _ metered) fun external asked hasked => ?_
    split
    · exact refl asked
    · refine Moves.wp_bind_of (moves_recordModel output promptObjectId asked)
        fun eventId recorded hrecorded => ?_
      exact wp_takeUp output eventId
        ((((hstepped.trans hmetered).trans hasked).trans hrecorded).calls.mem hreply)

omit [AgentPlatform] in
theorem modelRequests_generate (reply : Except AgentError ModelOutput) (calls : List Call) :
    modelRequests (.generate reply :: calls) = modelRequests calls + 1 := by
  simp [modelRequests]

/-- The state right after a request that was still allowed is safe. -/
theorem Safe.generate {run : Run W} (hsafe : Safe invocation declarations run)
    (hrequests : modelRequests run.calls < invocation.maxModelCalls)
    (reply : Except AgentError ModelOutput) :
    Safe invocation declarations { run with calls := .generate reply :: run.calls } where
  licensed := ⟨hrequests, hsafe.licensed⟩
  publishable := hsafe.publishable
  pending toolCall hmem := (hsafe.pending toolCall hmem).mono (List.suffix_cons _ _)

/-- A run is safe and has made at most so many requests. -/
def SafeWithin (invocation : AgentInvocation) (declarations : List ResolvedCapability)
    (requests : ℕ) (run : Run W) : Prop :=
  Safe invocation declarations run ∧ modelRequests run.calls ≤ requests

theorem SafeWithin.advanced {run run' : Run W} (h : SafeWithin invocation declarations requests run)
    (hrun : Advanced invocation declarations run run') :
    SafeWithin invocation declarations requests run' :=
  ⟨hrun.safe h.1, hrun.requests.trans_le h.2⟩

/-- A turn makes one request. -/
theorem wp_runModelTurn {run : Run W} (hsafe : SafeWithin invocation declarations requests run)
    (hlt : requests < invocation.maxModelCalls) :
    Ends (runModelTurn services invocation)
      (SafeWithin invocation declarations (requests + 1)) run := by
  -- Until the request the run only moves on, so what fails there fails within the bound.
  have hbefore : ∀ {run' : Run W}, Advanced invocation declarations run run' →
      SafeWithin invocation declarations (requests + 1) run' := fun h =>
    ⟨(hsafe.advanced h).1, (hsafe.advanced h).2.trans (Nat.le_succ _)⟩
  unfold runModelTurn
  rw [Ends, wp_bind]
  refine wp_mono (moves_step _ run) (fun _ stepped hstepped => ?_) fun _ _ h => hbefore h
  rw [wp_bind, wp_ask, wp_bind]
  have hprompted := hstepped.trans (moves_ask services.buildPrompt stepped)
  cases (services.buildPrompt stepped.world).1 with
  | error error => exact hbefore hprompted
  | ok promptObjectId =>
    rw [wp_orFail_ok, wp_bind]
    refine wp_mono (moves_step _ _) (fun _ calling hcalling => ?_) fun _ _ h =>
      hbefore (hprompted.trans h)
    rw [wp_bind, wp_ask, wp_bind, wp_remember]
    have hasked := hsafe.advanced
      ((hprompted.trans hcalling).trans (moves_ask services.generate calling))
    have hgenerated : SafeWithin invocation declarations (requests + 1) _ :=
      ⟨hasked.1.generate (hasked.2.trans_lt hlt) (services.generate calling.world).1,
        (modelRequests_generate _ _).trans_le (Nat.succ_le_succ hasked.2)⟩
    exact Ends.mono (wp_handleReply promptObjectId (.head _))
      fun _ h => hgenerated.advanced h

theorem wp_runTurnUnlessAborted {run : Run W}
    (hsafe : SafeWithin invocation declarations requests run)
    (hlt : requests < invocation.maxModelCalls) :
    Ends (runTurnUnlessAborted services invocation)
      (SafeWithin invocation declarations (requests + 1)) run := by
  have hbefore : ∀ {run' : Run W}, Advanced invocation declarations run run' →
      SafeWithin invocation declarations (requests + 1) run' := fun h =>
    ⟨(hsafe.advanced h).1, (hsafe.advanced h).2.trans (Nat.le_succ _)⟩
  unfold runTurnUnlessAborted
  rw [Ends, wp_bind]
  refine wp_mono (moves_step _ run) (fun _ stepped hstepped => ?_) fun _ _ h => hbefore h
  rw [wp_bind]
  refine wp_mono (moves_abortReason stepped) (fun reason checked hchecked => ?_)
    fun _ _ h => hbefore (hstepped.trans h)
  cases reason with
  | some reason => exact hbefore (hstepped.trans hchecked)
  | none => exact wp_runModelTurn (hsafe.advanced (hstepped.trans hchecked)) hlt

theorem moves_abortRun (reason : AbortReason) (causedBy : Option String) :
    Moves (Advanced invocation declarations) (abortRun services invocation reason causedBy) :=
  .of_bind (moves_step _) fun _ => .of_bind (moves_recordDurableDraft _ _) fun _ => .of_throw _

theorem wp_proceed {rest : RunM W Unit} {control : RunLoopControl} {run : Run W}
    (hsafe : SafeWithin invocation declarations requests run)
    (hrest : Ends rest (SafeWithin invocation declarations requests) run) :
    Ends (proceed services invocation rest control)
      (SafeWithin invocation declarations requests) run := by
  cases control with
  | «continue» => exact hrest
  | finish => exact hsafe
  | abort reason causedBy =>
    exact Ends.mono (moves_abortRun reason causedBy run) fun _ h => hsafe.advanced h

/-- The loop, by induction on the model calls that are left. -/
theorem wp_runLoop (hgranted : capabilities.Granted invocation declarations) {left : ℕ}
    {run : Run W} (hsafe : SafeWithin invocation declarations requests run)
    (hleft : requests + left = invocation.maxModelCalls) :
    Ends (runLoop services invocation capabilities left)
      (SafeWithin invocation declarations invocation.maxModelCalls) run := by
  induction left generalizing requests run with
  | zero =>
    subst hleft
    unfold runLoop
    rw [Ends, wp_bind]
    refine wp_mono (wp_runPending hgranted hsafe.1) (fun control pending hpending => ?_)
      fun _ _ h => hsafe.advanced h
    refine wp_proceed (hsafe.advanced hpending) ?_
    exact Ends.mono (Moves.of_bind (moves_finishRun _) (fun _ => .of_pure _) pending)
      fun _ h => (hsafe.advanced hpending).advanced h
  | succ left ih =>
    have hle : ∀ {n : ℕ} {run' : Run W}, n ≤ invocation.maxModelCalls →
        SafeWithin invocation declarations n run' →
        SafeWithin invocation declarations invocation.maxModelCalls run' := fun hn h =>
      ⟨h.1, h.2.trans hn⟩
    unfold runLoop
    rw [Ends, wp_bind]
    refine wp_mono (wp_runPending hgranted hsafe.1) (fun control pending hpending => ?_)
      fun _ _ h => hle (by omega) (hsafe.advanced h)
    have hpending := hsafe.advanced hpending
    refine wp_proceed (hle (by omega) hpending) ?_
    rw [Ends, wp_bind]
    refine wp_mono (wp_runTurnUnlessAborted hpending (by omega)) (fun control turned hturned => ?_)
      fun _ _ h => hle (by omega) h
    exact wp_proceed (hle (by omega) hturned) (ih hturned (by omega))

/-! ### The whole run -/

/-- Whatever the model and the other services answer, a run only makes calls that are licensed when
it makes them, only proposes to publish declared events with payloads that fit, and makes at most
the allowed number of requests to the model. -/
theorem run_confined (services : Services W) (invocation : AgentInvocation)
    (declarations : List ResolvedCapability) (world : W) :
    let run := after (AgentRunner.run services invocation declarations)
      (Run.initial invocation world)
    CallsLicensed invocation declarations run.calls ∧
      (∀ proposal ∈ run.result.proposals, Publishable invocation proposal) ∧
      modelRequests run.calls ≤ invocation.maxModelCalls := by
  have hinitial : SafeWithin invocation declarations 0 (Run.initial invocation world) :=
    ⟨⟨trivial, by simp [Run.initial, AgentRunResult.default], by simp [Run.initial]⟩, le_rfl⟩
  have hrun : Ends (AgentRunner.run services invocation declarations)
    (SafeWithin invocation declarations invocation.maxModelCalls)
      (Run.initial invocation world) := by
    unfold AgentRunner.run
    cases hnew : CapabilitySet.new invocation declarations with
    | error error => exact ⟨hinitial.1, hinitial.2.trans (Nat.zero_le _)⟩
    | ok capabilities =>
      rw [Ends, wp_bind, wp_orFail_ok]
      exact wp_runLoop (CapabilitySet.granted_of_new hnew) hinitial (Nat.zero_add _)
  obtain ⟨hsafe, hrequests⟩ := wp_after hrun
  exact ⟨hsafe.licensed, hsafe.publishable, hrequests⟩

end

end Zeta
