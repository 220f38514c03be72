import ZetaRuntime.Agent.Capability
import ZetaRuntime.Index.Effect
import ZetaRuntime.Library.Program

/-!
# The agent runner

A run alternates between the model and its tool calls until the model answers without calling a
tool, a tool stops the run, the allowed number of model calls is used up, or the run is aborted.
Everything around it is a service: the model, the capability executor, the recorder of durable
drafts, the source of identities, the abort signal and the clock. A service may answer anything at
any time, so it is a function of a world that it may change.

A call is remembered by the run when it is made, newest first. The program never reads this list.

The trace of content-addressed objects, and the prompt that is built from it, are left out; that
building or recording it may fail is a service of its own.

## Main definitions

* `Services`, `Run`, `RunM` — the services, a run in progress, and programs over it
* `executeToolCall`, `processToolCall`, `runModelTurn`, `runLoop` — the loop and its parts
* `AgentRunner.run` — a whole run
-/

namespace Zeta

open Outcome

/-! ### Values at the boundary -/

/-- Why a run ends early. -/
inductive AbortReason where
  | cancelled
  | deadlineExceeded
  deriving DecidableEq, Repr

/-- The text of an abort reason. -/
def AbortReason.display : AbortReason → String
  | .cancelled => "cancelled"
  | .deadlineExceeded => "deadline_exceeded"

/-- The text of an abort reason in a sentence. -/
def AbortReason.content : AbortReason → String
  | .cancelled => "(turn aborted: cancelled)"
  | .deadlineExceeded => "(turn aborted: deadline exceeded)"

/-- A reply of the model. -/
structure ModelOutput where
  message : Map
  telemetry : Map
  streamedContent : Bool
  deriving DecidableEq, Repr

/-- A call that is handed to the capability executor. -/
structure CapabilityInvocation where
  capabilityId : String
  params : Map
  baseDirectory : Option String
  effectKey : Option String
  deriving DecidableEq, Repr

/-- An ordered control proposal. -/
inductive AgentProposal where
  | publish (handle eventType : String) (payload : Map) (publishAt : Option String) (position : ℕ)
  | wait (handle eventType : String) (fields : Map) (deadline : Option String) (position : ℕ)
  | cancel (handle : String) (reason : Option String) (sourceAgentId sourceSessionId : String)
    (position : ℕ)
  deriving DecidableEq, Repr

/-- Why a run ended. -/
inductive RunStopReason where
  | finished
  | toolStop
  | maxModelCalls
  deriving DecidableEq, Repr

/-- The steps a run reports. -/
inductive StepName where
  | checkAbort
  | buildPrompt
  | callModel
  | recordAssistant
  | recordCapabilityCall
  | executeCapability
  | recordCapabilityResult
  | finishRun
  | abortRun
  deriving DecidableEq, Repr

/-- The outcome of a run. -/
structure AgentRunResult where
  finalAnswer : String
  stopReason : Option RunStopReason
  answerStreamed : Bool
  telemetry : Map
  modelTelemetryCalls : List Map
  events : List DraftEvent
  proposals : List AgentProposal
  steps : List StepName
  deriving DecidableEq, Repr

/-- The outcome of a run that has not begun. -/
def AgentRunResult.default : AgentRunResult := ⟨"", none, false, [], [], [], [], []⟩

/-- Why a run returns no outcome. -/
inductive AgentRunError where
  | aborted (reason : AbortReason)
  | failed (error : AgentError)
  deriving DecidableEq, Repr

/-! ### The services -/

/-- The services around a run. Each may change the world it answers from. -/
structure Services (W : Type) where
  /-- Build the prompt and record its trace; the address of the prompt. -/
  buildPrompt : W → Except AgentError String × W
  /-- Record the trace of a reply, a call or a result. -/
  recordTrace : W → Except AgentError Unit × W
  /-- Ask the model. -/
  generate : W → Except AgentError ModelOutput × W
  /-- Execute a capability. -/
  execute : CapabilityInvocation → W → Except AgentError Map × W
  /-- Record a draft under an event id; the id it is retained under. -/
  record : String → DraftEvent → W → Except AgentError String × W
  /-- A new identity. -/
  nextId : W → Except AgentError String × W
  /-- Whether the run should be aborted. -/
  abort : W → Option AbortReason × W
  /-- The present time. -/
  nowMillis : W → Int × W
  /-- Report the use of the context window. -/
  contextBudget : W → Except AgentError Map × W

/-- What a run asked of its services. -/
inductive Call where
  | generate (output : Except AgentError ModelOutput)
  | execute (invocation : CapabilityInvocation)
  | record (eventId : String) (draft : DraftEvent) (retained : Except AgentError String)
  deriving DecidableEq

/-- A run in progress. -/
structure Run (W : Type) where
  world : W
  /-- What was asked, newest first. -/
  calls : List Call
  result : AgentRunResult
  pendingToolCalls : List Map
  pendingModelTelemetry : Map
  pendingToolParentId : Option String
  nextModelCausedBy : Option String
  nextToolPosition : ℕ

/-- A program of the runner. -/
abbrev RunM (W : Type) := EStateM AgentRunError (Run W)

section Services

variable {W α : Type}

variable {Q : Unit → Run W → Prop}

/-- Ask a service. -/
def ask (service : W → α × W) : RunM W α := fun run =>
  .ok (service run.world).1 { run with world := (service run.world).2 }

/-- Remember a call. -/
def remember (call : Call) :
    RunM W Unit := modify fun run => { run with calls := call :: run.calls }

/-- Fail with the error of a boundary. -/
def orFail : Except AgentError α → RunM W α
  | .ok a => pure a
  | .error error => throw (.failed error)

/-- Change the outcome so far. -/
def updateResult (f : AgentRunResult → AgentRunResult) : RunM W Unit :=
  modify fun run => { run with result := f run.result }

section Rules

open Program

variable {run : Run W} {E : AgentRunError → Run W → Prop}

@[simp] theorem wp_ask (service : W → α × W) {Q : α → Run W → Prop} :
    wp (ask service) Q E run
      ↔ Q (service run.world).1 { run with world := (service run.world).2 } := Iff.rfl

@[simp] theorem wp_remember (call : Call) :
    wp (remember call) Q E run ↔ Q () { run with calls := call :: run.calls } := Iff.rfl

@[simp] theorem wp_orFail_ok (a : α) {Q : α → Run W → Prop} :
    wp (orFail (.ok a)) Q E run ↔ Q a run := Iff.rfl

@[simp] theorem wp_orFail_error (error : AgentError) {Q : α → Run W → Prop} :
    wp (orFail (.error error)) Q E run ↔ E (.failed error) run := Iff.rfl

@[simp] theorem wp_updateResult (f : AgentRunResult → AgentRunResult) :
    wp (updateResult f) Q E run ↔ Q () { run with result := f run.result } := Iff.rfl

end Rules

/-- Report a step. -/
def step (name : StepName) : RunM W Unit :=
  updateResult fun result => { result with steps := result.steps ++ [name] }

/-- Propose a control. -/
def propose (proposal : AgentProposal) : RunM W Unit :=
  updateResult fun result => { result with proposals := result.proposals ++ [proposal] }

variable (services : Services W)

/-- Whether a deadline has passed. -/
def deadlineReason : Option Int → RunM W (Option AbortReason)
  | none => pure none
  | some deadlineMs => do
    let now ← ask services.nowMillis
    return if deadlineMs ≤ now then some .deadlineExceeded else none

/-- Why the run should end now, if it should. -/
def abortReason (invocation : AgentInvocation) : RunM W (Option AbortReason) := do
  let external ← ask services.abort
  match external with
  | some reason => pure (some reason)
  | none => deadlineReason services invocation.deadlineMs

/-- A new event id. -/
def nextEventId : RunM W String := do
  let id ← ask services.nextId
  let id ← orFail id
  if id = "" then throw (.failed ⟨.identity, "event id must not be empty"⟩) else return id

/-- Record a trace. -/
def recordTrace : RunM W Unit := do
  let recorded ← ask services.recordTrace
  orFail recorded

/-- Record a draft and add it to the events of the run. -/
def recordDurableDraft (eventId : String) (draft : DraftEvent) : RunM W String := do
  let retained ← ask (services.record eventId draft)
  remember (.record eventId draft retained)
  let id ← orFail retained
  updateResult fun result => { result with events := result.events ++ [draft] }
  return id

end Services

/-! ### Drafts -/

/-- A draft in the context of an invocation. -/
def draftWithInvocationContext (invocation : AgentInvocation) (eventType source : String)
    (payload : Map) (idempotencyKey causedBy : Option String) : DraftEvent :=
  { eventType, source, payload, idempotencyKey, causedBy
    sessionId := invocation.sessionId, runId := invocation.runId, turnId := invocation.turnId }

/-- The tool calls of a reply. -/
def assistantToolCalls (message : Map) : List Map :=
  (((message.get "tool_calls").bind Value.asArray).getD []).filterMap Value.asObject

/-- A field that is present if its text is not empty. -/
def nonemptyText (key : String) (text : Option String) : Map :=
  match text with
  | some text => if text = "" then [] else [(key, .string text)]
  | none => []

/-- The payload of a recorded reply. -/
def modelPayload (message : Map) (promptObjectId : String) : Map :=
  nonemptyText "reasoning" (message.text "reasoning_content")
    ++ nonemptyText "content" (message.text "content")
    ++ (if assistantToolCalls message = [] then []
      else [("tool_calls", .array ((assistantToolCalls message).map .object))])
    ++ [("prompt_object_id", .string promptObjectId), ("_timeline_type", .string "model")]

/-- The draft of a reply. -/
def modelDraft (invocation : AgentInvocation) (payload : Map) (eventId : String)
    (causedBy : Option String) : DraftEvent :=
  draftWithInvocationContext invocation "zeta.model_call.completed" invocation.eventSource payload
    (some ("zeta.model_call.completed:" ++ eventId)) causedBy

/-- The draft of a call or a result. -/
def toolDraft (invocation : AgentInvocation) (eventType : String) (payload : Map) (eventId : String)
    (causedBy : Option String) : DraftEvent :=
  draftWithInvocationContext invocation eventType invocation.eventSource payload
    (some (eventType ++ ":" ++ eventId)) causedBy

/-- The payload of a call. -/
def callPayload (parsed : ParsedToolCall) (capabilityId : Option String) : Map :=
  [("tool_call_id", .string parsed.callId), ("name", .string parsed.name),
    ("input", .object parsed.params), ("_timeline_type", .string "tool_call")]
    ++ (if parsed.functionPresent then
      [("status", .string "pending"), ("arguments", .string parsed.arguments)] else [])
    ++ (capabilityId.map fun id => ("capability_id", Value.string id)).toList

/-- The draft of an abort. -/
def abortDraft (invocation : AgentInvocation) (reason : AbortReason) (causedBy : Option String) :
    DraftEvent :=
  draftWithInvocationContext invocation "zeta.turn.failed" invocation.eventSource
    [("_timeline_type", .string "turn_aborted"), ("reason", .string reason.display),
      ("content", .string reason.content)] none causedBy

/-- The result of the last call with an id that has one, whatever its status. -/
def isTerminalToolResult (callId : String) (draft : DraftEvent) : Bool :=
  draft.payload.text "_timeline_type" = some "tool_result"
    && draft.payload.text "tool_call_id" = some callId
    && ((draft.payload.text "status").getD "")
      ∈ ["completed", "failed", "refused", "cancelled", "timed_out"]

/-- The terminal result of a call, if there is one. -/
def terminalToolResult (drafts : List DraftEvent) (callId : String) : Option DraftEvent :=
  drafts.reverse.find? (isTerminalToolResult callId)

/-! ### Tool results -/

/-- The result of a call that failed. -/
def toolError (code message : String) : Map :=
  [("ok", .bool false), ("error", .object [("code", .string code), ("message", .string message)])]

/-- Whether a result is that of a call that succeeded. -/
def resultOk (result : Map) : Bool := result.get "ok" = some (.bool true)

/-- Codes of calls that were never made. -/
def isRefusedCode (code : String) : Bool :=
  code ∈
    ["direct-execution-disallowed", "disallowed-tool", "invalid-json-args", "invalid-tool-call",
    "schema-mismatch", "staging-unsupported", "unknown-tool"]

/-- The status of a result. -/
def toolResultStatus (result : Map) : String :=
  if resultOk result then "completed"
  else if isRefusedCode
    ((((result.get "error").bind Value.asObject).bind (·.text "code")).getD "") then
    "refused"
  else "failed"

/-- The error of a capability whose result cannot be read. -/
def invalidCapabilityResult (capability : Capability) : Value :=
  .object [("code", .string "invalid-capability-result"),
    ("message", .string ("capability " ++ capability.id ++ " returned an invalid result"))]

/-- A result says whether the call succeeded, and why if it did not. -/
def validatedToolResult (result : Map) (capability : Capability) : Map :=
  match result.get "ok" with
  | some (.bool true) => result
  | some (.bool false) =>
    if ((result.get "error").bind Value.asObject).isNone then
      result.insert "error" (invalidCapabilityResult capability)
    else result
  | _ => (result.insert "ok" (.bool false)).insert "error" (invalidCapabilityResult capability)

/-- The first text of a result that is not blank. -/
def firstToolText (result : Map) : String :=
  ((((result.get "content").bind Value.asArray).getD []).findSome? fun item =>
    ((item.asObject.bind (·.text "text")).filter fun text => trim text ≠ "")).getD ""

/-- The words of a text, one blank apart. -/
def flattenWhitespace (value : String) : String :=
  " ".intercalate (((value.toList.splitOnP isWhitespace).filter (· ≠ [])).map String.ofList)

/-- A failed call without an error takes its first text for one. -/
def normalizeToolResult (result : Map) (name : String) : Map :=
  if result.get "ok" ≠ some (.bool false) ∨ ((result.get "error").bind Value.asObject).isSome then
    result
  else if firstToolText result = "" then result
  else result.insert "error" (.object
    [("code", .string ((if name = "" then "tool" else name) ++ "-failed")),
      ("message", .string (flattenWhitespace (firstToolText result)))])

/-- The payload of a result. -/
def resultPayload (parsed : ParsedToolCall) (toolResult : Map) (capabilityId : Option String)
    (modelTelemetry : Map) : Map :=
  [("tool_call_id", .string parsed.callId), ("status", .string (toolResultStatus toolResult)),
    ("name", .string parsed.name), ("result", .object toolResult),
    ("_timeline_type", .string "tool_result")]
    ++ (capabilityId.map fun id => ("capability_id", Value.string id)).toList
    ++ (if modelTelemetry = [] then [] else [("model_telemetry", .object modelTelemetry)])

/-- The event type of a result. -/
def resultEventType (toolResult : Map) : String :=
  if toolResult.get "ok" = some (.bool false) then "zeta.tool_call.failed"
  else "zeta.tool_call.completed"

/-! ### Control times -/

/-- Whether a time names its offset. -/
def hasUtcOffset (value : String) : Bool :=
  value.toList.getLast? = some 'Z' || value.toList.getLast? = some 'z'
    || match (splitOnce 'T' value.toList).or (splitOnce 't' value.toList) with
      | none => false
      | some (_, time) => time.any fun c => c = '+' || c = '-'

/-- Whether a text looks like a time without its offset. -/
def looksLikeOffsetFreeDatetime (value : String) : Bool :=
  let bytes := value.toUTF8.toList
  let dash (i : ℕ) := bytes[i]? = some 45
  let colon (i : ℕ) := bytes[i]? = some 58
  19 ≤ bytes.length && dash 4 && dash 7 && (bytes[10]? = some 84 || bytes[10]? = some 116)
    && colon 13 && colon 16

/-- The printed form of a time in UTC: the suffix `Z` becomes an offset. -/
def utcOffset (formatted : String) : String :=
  if formatted.toList.getLast? = some 'Z' then String.ofList formatted.toList.dropLast ++ "+00:00"
  else formatted

/-- A time in UTC, or the result of the call that names it. -/
def normalizeControlTime [AgentPlatform] (value : Option String) (field code : String) :
    Except Map (Option String) :=
  match value with
  | none => .ok none
  | some value =>
    let malformed := toolError code (field ++ " must be an ISO 8601 date-time with a UTC offset")
    if hasUtcOffset value then
      match AgentPlatform.formatUtc value with
      | none => .error malformed
      | some (.error error) => .error (toolError code error)
      | some (.ok formatted) => .ok (some (utcOffset formatted))
    else if looksLikeOffsetFreeDatetime value then
      .error (toolError code (field ++ " must include a UTC offset"))
    else .error malformed

/-! ### Effects -/

/-- The identity of an external effect. -/
structure EffectIdentity where
  key : String
  scope : String
  semantics : EffectDeliverySemantics
  deriving DecidableEq, Repr

/-- An effect that was started and has no outcome yet. -/
structure EffectCompletionContext where
  identity : EffectIdentity
  capability : Capability
  params : Map
  deriving DecidableEq, Repr

/-- The scope of the effects of a run: the item it works on, or the call. -/
def effectScope (invocation : AgentInvocation) (parsed : ParsedToolCall) : String :=
  (invocation.effectScope.or invocation.sourceQueueItemId).getD parsed.callId

/-- The identity of the effect of a call, if the capability has effects. -/
def effectIdentity [Platform] (invocation : AgentInvocation) (capability : Capability)
    (parsed : ParsedToolCall) (params : Map) : Except AgentError (Option EffectIdentity) :=
  match capability.deliverySemantics with
  | none => .ok none
  | some semantics => do
    let key ← (effectKey (effectScope invocation parsed) capability.id params).mapError fun error =>
      ⟨.identity, error.display⟩
    return some ⟨key, effectScope invocation parsed, semantics⟩

/-- The outcome of an effect: one that must not be repeated is never known to have failed. -/
def effectTerminalStatus (semantics : EffectDeliverySemantics) (result : Map) : EffectStatus :=
  if resultOk result then .completed
  else if semantics = .unsafeToRetry then .ambiguous
  else .failed

/-- The payload of an effect fact. -/
def effectPayload (status : EffectStatus) (identity : EffectIdentity) (capability : Capability)
    (params : Map) (result : Option Map) : Map :=
  [("effect_key", .string identity.key), ("operation", .string capability.id),
    ("semantics", .string (effectSemanticsStr identity.semantics)),
    ("scope", .string identity.scope),
    ("queue_item_id", if startsWith identity.scope "qi_" then .string identity.scope else .null),
    ("params", .object params), ("status", .string (effectStatusStr status))]
    ++ (result.map fun result => ("result", Value.object result)).toList

/-- The event type of an effect fact. -/
def effectEventType (status : EffectStatus) : String := "runtime.effect." ++ effectStatusStr status

/-- The event id of an effect fact, which is its key as well. -/
def effectEventId (status : EffectStatus) (identity : EffectIdentity) : String :=
  effectEventType status ++ ":" ++ identity.key

/-- The draft of an effect fact. -/
def effectDraft (invocation : AgentInvocation) (status : EffectStatus) (identity : EffectIdentity)
    (capability : Capability) (causedBy : String) (params : Map) (result : Option Map) :
    DraftEvent :=
  draftWithInvocationContext invocation (effectEventType status) ("capability:" ++ capability.id)
    (effectPayload status identity capability params result) (some (effectEventId status identity))
    (some causedBy)

/-! ### Tools -/

/-- What a call led to. -/
structure ToolExecution where
  capabilityId : Option String
  toolResult : Map
  stop : Bool
  effect : Option EffectCompletionContext
  deriving DecidableEq, Repr

/-- A control has no effect outside. -/
def ToolExecution.control (capabilityId : String) (toolResult : Map) (stop : Bool) :
    ToolExecution :=
  ⟨some capabilityId, toolResult, stop, none⟩

/-- What the loop needs of a call. -/
structure ToolOutcome where
  resultEventId : String
  stop : Bool
  deriving DecidableEq, Repr

section Runner

variable [AgentPlatform] {W : Type} (services : Services W) (invocation : AgentInvocation)

/-- Record an effect fact. -/
def recordEffect (status : EffectStatus) (identity : EffectIdentity) (capability : Capability)
    (causedBy : String) (params : Map) (result : Option Map) : RunM W Unit := do
  let _ ← recordDurableDraft services (effectEventId status identity)
    (effectDraft invocation status identity capability causedBy params result)

/-- The barrier of an effect: it is recorded as planned and as started before it happens. -/
def beginEffect (capability : Capability) (callEventId : String) (params : Map) :
    Option EffectIdentity → RunM W Unit
  | none => pure ()
  | some identity => do
    recordEffect services invocation .planned identity capability callEventId params none
    recordEffect services invocation .started identity capability callEventId params none

/-- What the executor returned, as a tool result. -/
def executionResult (capability : Capability) : Except AgentError Map → RunM W Map
  | .ok toolResult => pure (validatedToolResult toolResult capability)
  | .error error => do
    let reason ← abortReason services invocation
    match reason with
    | some reason => pure (toolError "tool-aborted" ("tool execution aborted: " ++ reason.display))
    | none => pure (toolError "tool-crashed" error.message)

/-- Hand a call to the executor. -/
def executeCapability (capability : Capability) (name : String) (params : Map)
    (effect : Option EffectIdentity) : RunM W ToolExecution := do
  let call : CapabilityInvocation :=
    ⟨capability.id, params, invocation.baseDirectory, effect.map (·.key)⟩
  remember (.execute call)
  let executed ← ask (services.execute call)
  let toolResult ← executionResult services invocation capability executed
  let toolResult := normalizeToolResult toolResult name
  return ⟨some capability.id, toolResult,
    resultOk toolResult && toolResult.get "stop" = some (.bool true),
    effect.map fun identity => ⟨identity, capability, params⟩⟩

/-- Execute a granted capability behind its barrier. -/
def runExternal (capability : Capability) (parsed : ParsedToolCall) (params : Map)
    (callEventId : String) : RunM W ToolExecution := do
  let effect ← orFail (effectIdentity invocation capability parsed params)
  beginEffect services invocation capability callEventId params effect
  executeCapability services invocation capability parsed.name params effect

/-- Propose to wait for an event. -/
def runWait (routeId : String) (params : Map) (position : ℕ) : RunM W ToolExecution :=
  match invocation.sourceQueueItemId with
  | none => pure (.control routeId
      (toolError "missing-wait-source" "the run does not have a source queue item") false)
  | some queueItemId =>
    match normalizeControlTime (params.text "deadline") "deadline" "invalid-wait-deadline" with
    | .error error => pure (.control routeId error false)
    | .ok deadline => do
      let handle := waitHandle queueItemId position
      propose (.wait handle ((params.text "event_type").getD "")
        (((params.get "fields").bind Value.asObject).getD []) deadline position)
      return .control routeId
        [("ok", .bool true), ("handle", .string handle), ("stop", .bool true)] true

/-- What an event payload violates of the schema declared for its type; a type may have none. -/
def publishViolation (schema : Value) (payload : Map) : Option SchemaViolation :=
  schema.asObject.bind (schemaViolation (.object payload))

/-- Propose to publish an event whose type and payload were checked. -/
def proposePublish (routeId queueItemId eventType : String) (payload params : Map) (position : ℕ) :
    RunM W ToolExecution :=
  match normalizeControlTime (params.text "at") "at" "invalid-publish-time" with
  | .error error => pure (.control routeId error false)
  | .ok publishAt => do
    let handle := publishEventHandle queueItemId position
    propose (.publish handle eventType payload publishAt position)
    return .control routeId [("ok", .bool true), ("handle", .string handle)] false

/-- Propose to publish an event. -/
def runPublish (routeId : String) (params : Map) (position : ℕ) : RunM W ToolExecution :=
  match invocation.sourceQueueItemId with
  | none => pure (.control routeId
      (toolError "missing-publish-source" "the run does not have a source queue item") false)
  | some queueItemId =>
    let eventType := (params.text "event_type").getD ""
    let payload := ((params.get "payload").bind Value.asObject).getD []
    match invocation.publishableEvents.get eventType with
    | none => pure (.control routeId (toolError "undeclared-event-type"
        ("the agent does not list event '" ++ eventType ++ "' in publishes")) false)
    | some schema =>
      match publishViolation schema payload with
      | some violation =>
        pure (.control routeId (toolError "invalid-event-payload" violation.message) false)
      | none => proposePublish routeId queueItemId eventType payload params position

/-- Propose to cancel a wait or a publication. -/
def runCancel (routeId : String) (params : Map) (position : ℕ) : RunM W ToolExecution :=
  match invocation.sourceAgentId, invocation.sourceSessionId with
  | some sourceAgentId, some sourceSessionId => do
    let handle := (params.text "handle").getD ""
    propose (.cancel handle (params.text "reason") sourceAgentId sourceSessionId position)
    return .control routeId
      [("ok", .bool true), ("handle", .string handle), ("status", .string "requested")] false
  | _, _ => pure (.control routeId
      (toolError "missing-cancel-source" "the run does not have an authored agent session") false)

/-- Do what a call that passed its checks asks for. -/
def runValidTool (route : AgentRoute) (parsed : ParsedToolCall) (params : Map) (position : ℕ)
    (callEventId : String) : RunM W ToolExecution :=
  match route.kind with
  | .external capability =>
    runExternal services invocation capability.canonical parsed params callEventId
  | .wait => runWait invocation route.id params position
  | .publish => runPublish invocation route.id params position
  | .cancel => runCancel invocation route.id params position
  | .queryContextBudget => do
    let budget ← ask services.contextBudget
    let budget ← orFail budget
    return .control route.id budget false

/-- The outcome of the checks of a call. -/
abbrev Validation := Except (String × String) (AgentRoute × Map)

/-- The capability of a call that passed its checks. -/
def validatedId : Validation → Option String
  | .ok (route, _) => some route.id
  | .error _ => none

/-- Do what a call asks for, or report what is wrong with it. -/
def executeToolCall (parsed : ParsedToolCall) (position : ℕ) (callEventId : String) :
    Validation → RunM W ToolExecution
  | .ok (route, params) => runValidTool services invocation route parsed params position callEventId
  | .error (code, message) => pure ⟨none, toolError code message, false, none⟩

/-- Record the outcome of an effect, if there was one. -/
def completeEffect (callEventId : String) (toolResult : Map) : Option EffectCompletionContext →
    RunM W Unit
  | none => pure ()
  | some effect =>
    recordEffect services invocation (effectTerminalStatus effect.identity.semantics toolResult)
      effect.identity effect.capability callEventId effect.params (some toolResult)

/-- Record a call, do what it asks for, and record its result. -/
def processToolCall (capabilities : CapabilitySet) (toolCall : Map) (index position : ℕ)
    (assistantEventId : Option String) (modelTelemetry : Map) : RunM W ToolOutcome := do
  let parsed := ParsedToolCall.fromValue toolCall index
  let validation := capabilities.validate parsed
  recordTrace services
  let callEventId ← recordDurableDraft services parsed.callId
    (toolDraft invocation "zeta.tool_call.started" (callPayload parsed (validatedId validation))
      parsed.callId assistantEventId)
  let execution ← executeToolCall services invocation parsed position callEventId validation
  let eventId ← nextEventId services
  recordTrace services
  let eventId ← recordDurableDraft services eventId
    (toolDraft invocation (resultEventType execution.toolResult)
      (resultPayload parsed execution.toolResult execution.capabilityId modelTelemetry) eventId
      assistantEventId)
  completeEffect services invocation callEventId execution.toolResult execution.effect
  return ⟨eventId, execution.stop⟩

/-! ### The loop -/

/-- How the loop goes on. -/
inductive RunLoopControl where
  | continue
  | finish
  | abort (reason : AbortReason) (causedBy : Option String)
  deriving DecidableEq, Repr

/-- The position of the next call. -/
def takePosition : RunM W ℕ := do
  let run ← get
  modify fun run => { run with nextToolPosition := run.nextToolPosition + 1 }
  return run.nextToolPosition

/-- What the next reply of the model is caused by. -/
def setCause (causedBy : Option String) : RunM W Unit :=
  modify fun run => { run with nextModelCausedBy := causedBy }

/-- The end of a run. -/
def finishRun (reason : RunStopReason) : RunM W RunLoopControl := do
  updateResult fun result => { result with stopReason := some reason }
  step .finishRun
  return .finish

/-- Go on after a call, unless the run is aborted or the call stops it. -/
def afterToolCall (outcome : ToolOutcome) (rest : RunM W RunLoopControl) :
    RunM W RunLoopControl := do
  step .recordCapabilityResult
  setCause (some outcome.resultEventId)
  let reason ← abortReason services invocation
  match reason with
  | some reason => pure (.abort reason (some outcome.resultEventId))
  | none => if outcome.stop then finishRun .toolStop else rest

/-- Process the calls of a message in order. A call whose id has a terminal result in this run is
taken for one that was answered before. -/
def runToolCalls (capabilities : CapabilitySet) (assistantEventId : Option String)
    (modelTelemetry : Map) :
    ℕ → List Map → RunM W RunLoopControl
  | _, [] => pure .continue
  | index, toolCall :: toolCalls => do
    step .checkAbort
    let reason ← abortReason services invocation
    match reason with
    | some reason => do
      let run ← get
      return .abort reason run.nextModelCausedBy
    | none => do
      let position ← takePosition
      let run ← get
      if (terminalToolResult run.result.events (toolCallId toolCall index)).isSome then do
        step .recordCapabilityResult
        setCause none
        runToolCalls capabilities assistantEventId modelTelemetry (index + 1) toolCalls
      else do
        step .recordCapabilityCall
        step .executeCapability
        let outcome ← processToolCall services invocation capabilities toolCall index position
          assistantEventId (if index = 0 then modelTelemetry else [])
        afterToolCall services invocation outcome
          (runToolCalls capabilities assistantEventId modelTelemetry (index + 1) toolCalls)

/-- Process the calls that the last reply left pending. -/
def runPendingToolBatch (capabilities : CapabilitySet) : RunM W RunLoopControl := do
  let run ← get
  modify fun run => { run with
    pendingToolCalls := [], pendingModelTelemetry := [], pendingToolParentId := none }
  runToolCalls services invocation capabilities run.pendingToolParentId run.pendingModelTelemetry 0
    run.pendingToolCalls

/-- Keep the telemetry of a reply. -/
def recordTelemetry (telemetry : Map) : RunM W Unit :=
  updateResult fun result =>
    if telemetry = [] then result
    else { result with
      telemetry, modelTelemetryCalls := result.modelTelemetryCalls ++ [telemetry] }

/-- Record a reply. -/
def recordModel (output : ModelOutput) (promptObjectId : String) : RunM W String := do
  let eventId ← nextEventId services
  recordTrace services
  let run ← get
  recordDurableDraft services eventId
    (modelDraft invocation (modelPayload output.message promptObjectId) eventId
      run.nextModelCausedBy)

/-- Take up the calls of a reply, or end with its answer. -/
def takeUp (output : ModelOutput) (eventId : String) : RunM W RunLoopControl :=
  if assistantToolCalls output.message = [] then do
    updateResult fun result => { result with
      finalAnswer := (output.message.text "content").getD ""
      answerStreamed := output.streamedContent }
    finishRun .finished
  else do
    modify fun run => { run with
      pendingToolCalls := assistantToolCalls output.message
      pendingModelTelemetry := output.telemetry
      pendingToolParentId := some eventId }
    return .continue

/-- Handle what the model returned. -/
def handleReply (promptObjectId : String) : Except AgentError ModelOutput → RunM W RunLoopControl
  | .error error => do
    let reason ← abortReason services invocation
    match reason with
    | some reason => do
      let run ← get
      return .abort reason run.nextModelCausedBy
    | none => throw (.failed error)
  | .ok output => do
    step .recordAssistant
    recordTelemetry output.telemetry
    let external ← ask services.abort
    if external = some .cancelled then do
      let run ← get
      return .abort .cancelled run.nextModelCausedBy
    else do
      let eventId ← recordModel services invocation output promptObjectId
      takeUp output eventId

/-- Ask the model once. -/
def runModelTurn : RunM W RunLoopControl := do
  step .buildPrompt
  let prompt ← ask services.buildPrompt
  let promptObjectId ← orFail prompt
  step .callModel
  let output ← ask services.generate
  remember (.generate output)
  handleReply services invocation promptObjectId output

/-- Record that the run was aborted. -/
def abortRun (reason : AbortReason) (causedBy : Option String) : RunM W Unit := do
  step .abortRun
  let _ ← recordDurableDraft services ("zeta.turn.failed:" ++ invocation.runId.getD "agent")
    (abortDraft invocation reason causedBy)
  throw (.aborted reason)

/-- Go on, or end. -/
def proceed (rest : RunM W Unit) : RunLoopControl → RunM W Unit
  | .continue => rest
  | .finish => pure ()
  | .abort reason causedBy => abortRun services invocation reason causedBy

/-- Process pending calls, if there are any. -/
def runPending (capabilities : CapabilitySet) : RunM W RunLoopControl := do
  let run ← get
  if run.pendingToolCalls = [] then return .continue
  else runPendingToolBatch services invocation capabilities

/-- Ask the model unless the run is aborted before. -/
def runTurnUnlessAborted : RunM W RunLoopControl := do
  step .checkAbort
  let reason ← abortReason services invocation
  match reason with
  | some reason => do
    let run ← get
    return .abort reason run.nextModelCausedBy
  | none => runModelTurn services invocation

/-- The loop of a run with this many model calls left. -/
def runLoop (capabilities : CapabilitySet) : ℕ → RunM W Unit
  | 0 => do
    let control ← runPending services invocation capabilities
    proceed services invocation (do
      let _ ← finishRun .maxModelCalls) control
  | modelCalls + 1 => do
    let control ← runPending services invocation capabilities
    proceed services invocation (do
      let control ← runTurnUnlessAborted services invocation
      proceed services invocation (runLoop capabilities modelCalls) control) control

/-- Execute one resolved invocation. -/
def AgentRunner.run (declarations : List ResolvedCapability) : RunM W Unit := do
  let capabilities ← orFail (CapabilitySet.new invocation declarations)
  runLoop services invocation capabilities invocation.maxModelCalls

/-- A run before its first step. -/
def Run.initial (world : W) : Run W where
  world
  calls := []
  result := .default
  pendingToolCalls := []
  pendingModelTelemetry := []
  pendingToolParentId := none
  nextModelCausedBy := invocation.causedBy
  nextToolPosition := 0

end Runner

/-! ### What leaves no trace -/

/-- Nothing was asked, recorded or proposed, and the calls that are pending are the same. -/
structure Run.Still {W : Type} (run run' : Run W) : Prop where
  calls : run'.calls = run.calls
  events : run'.result.events = run.result.events
  proposals : run'.result.proposals = run.result.proposals
  stopReason : run'.result.stopReason = run.result.stopReason
  pending : run'.pendingToolCalls = run.pendingToolCalls

instance {W : Type} : IsPreorder (Run W) Run.Still where
  refl _ := ⟨rfl, rfl, rfl, rfl, rfl⟩
  trans _ _ _ h h' := ⟨h'.calls.trans h.calls, h'.events.trans h.events,
    h'.proposals.trans h.proposals, h'.stopReason.trans h.stopReason, h'.pending.trans h.pending⟩

section Still

open Program

variable {W α : Type} {services : Services W} {invocation : AgentInvocation}

theorem still_ask (service : W → α × W) : Moves Run.Still (ask service) :=
  fun _ => ⟨rfl, rfl, rfl, rfl, rfl⟩

theorem still_orFail (outcome : Except AgentError α) :
    Moves Run.Still (orFail outcome : RunM W α) := by
  cases outcome with
  | ok a => exact .of_pure a
  | error error => exact .of_throw _

theorem still_step (name : StepName) : Moves Run.Still (step name : RunM W Unit) :=
  fun _ => ⟨rfl, rfl, rfl, rfl, rfl⟩

theorem still_setCause (causedBy : Option String) :
    Moves Run.Still (setCause causedBy : RunM W Unit) :=
  fun _ => ⟨rfl, rfl, rfl, rfl, rfl⟩

theorem still_takePosition : Moves Run.Still (takePosition : RunM W ℕ) :=
  fun _ => ⟨rfl, rfl, rfl, rfl, rfl⟩

theorem still_recordTelemetry (telemetry : Map) :
    Moves Run.Still (recordTelemetry telemetry : RunM W Unit) := by
  refine .of_modify fun run => ?_
  dsimp only
  split <;> exact ⟨rfl, rfl, rfl, rfl, rfl⟩

theorem still_abortReason : Moves Run.Still (abortReason services invocation) := by
  refine .of_bind (still_ask _) fun external => ?_
  cases external with
  | some reason => exact .of_pure _
  | none =>
    cases invocation.deadlineMs with
    | none => exact .of_pure _
    | some deadlineMs => exact .of_bind (still_ask _) fun _ => .of_pure _

theorem still_nextEventId : Moves Run.Still (nextEventId services) := by
  refine .of_bind (still_ask _) fun id => .of_bind (still_orFail _) fun id => ?_
  split
  · exact .of_throw _
  · exact .of_pure _

theorem still_recordTrace : Moves Run.Still (recordTrace services) :=
  .of_bind (still_ask _) fun _ => still_orFail _

theorem still_executionResult (capability : Capability) (executed : Except AgentError Map) :
    Moves Run.Still (executionResult services invocation capability executed) := by
  cases executed with
  | ok toolResult => exact .of_pure _
  | error error =>
    refine .of_bind still_abortReason fun reason => ?_
    cases reason with
    | none => exact .of_pure _
    | some reason => exact .of_pure _

end Still

end Zeta
