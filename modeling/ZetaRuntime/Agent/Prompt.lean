import ZetaRuntime.Agent.Runner
import ZetaRuntime.Json.Text

/-!
# The compaction of prompts

A prompt is a list of components, most of which carry one message for the model: the system prompt,
the history of the session, the objective of the run and what happened in the run so far. A
compaction policy may trim or drop what is old.

The trace that is returned beside the messages is left out, but for the ids of its objects, which a
trimmed message quotes.
-/

namespace Zeta

open Outcome

/-! ### Values -/

/-- The field of a value that may be an object. -/
def Value.field (value : Value) (key : String) : Option Value := value.asObject.bind (·.get key)

/-- A text field, or the empty text. -/
def eventText (event : Map) (key : String) : String := ((event.get key).bind Value.asStr).getD ""

/-- A number of things. -/
def Value.ofNat (n : ℕ) : Value := .number (.int n)

/-- A prompt error. -/
def promptError (message : String) : AgentError := ⟨.prompt, message⟩

/-- A trace error. -/
def traceError (message : String) : AgentError := ⟨.trace, message⟩

/-! ### Components -/

/-- One deterministic compaction policy. -/
inductive PromptTransform where
  | none
  /-- Replace large historical read and grep results by stubs. -/
  | structuralTrim (maxContentChars : ℕ)
  /-- Remove the oldest historical exchanges until the estimate fits. -/
  | dropOldest (maxTokens : ℕ)
  deriving DecidableEq, Repr

/-- One component of a prompt. -/
structure PromptComponent where
  kind : String
  data : Map
  message : Option Map
  representation : String
  sourceObjectId : Option String
  links : List String
  objectId : Option String
  deriving DecidableEq

/-- A component in full that nothing is known of yet. -/
def PromptComponent.full (kind : String) (data : Map) (message : Option Map) (links : List String) :
    PromptComponent :=
  ⟨kind, data, message, "full", none, links, none⟩

/-- Whether a component is historical. -/
def PromptComponent.isHistorical (component : PromptComponent) : Bool :=
  component.data.get "historical" = some (.bool true)

/-- The content of the message of a component. -/
def componentMessageContent (component : PromptComponent) : String :=
  ((component.message.bind (·.get "content")).bind Value.asStr).getD ""

/-- The calls of a message. -/
def toolCalls (message : Map) :
    List Value := ((message.get "tool_calls").bind Value.asArray).getD []

/-- The ids of some calls, without those that are missing or empty. -/
def nonemptyCallIds (calls : List Value) : List String :=
  (calls.filterMap fun call => (call.field "id").bind Value.asStr).filter (· ≠ "")

section

variable [AgentPlatform] [StringText]

/-- The compact text of a value. -/
def compactJson (value : Value) : String := String.ofList (render value)

/-! ### Compaction -/

/-- The number of tokens that a text of some length is taken to have. -/
def estimatedTokens (length : ℕ) : ℕ := if length = 0 then 0 else max ((length + 3) / 4) 1

def estimatedComponentTokens (component : PromptComponent) : Except AgentError ℕ :=
  match component.message with
  | some message =>
    match (message.get "content").bind Value.asStr with
    | some content => .ok (estimatedTokens content.length)
    | none => .ok (estimatedTokens (compactJson (.object message)).length)
  | none => do
    let bytes ← (canonicalJson (.object component.data)).mapError fun error =>
      promptError error.display
    return estimatedTokens bytes.length

def estimatedPromptTokens : List PromptComponent → Except AgentError ℕ
  | [] => .ok 0
  | component :: components => do
    let first ← estimatedComponentTokens component
    let rest ← estimatedPromptTokens components
    return first + rest

section

omit [AgentPlatform] [StringText]

/-- The oldest historical message. -/
def oldestHistoricalMessage (components : List PromptComponent) : Option ℕ :=
  components.findIdx? fun component => component.isHistorical && component.message.isSome

def componentToolCallIds (component : PromptComponent) : List String :=
  match component.message with
  | none => []
  | some message => nonemptyCallIds (toolCalls message)

def isResultForCalls (ids : List String) (component : PromptComponent) : Bool :=
  match component.message with
  | none => false
  | some message => eventText message "role" = "tool" && eventText message "tool_call_id" ∈ ids

/-- The components without one and without the later results of its calls. -/
def withoutMessage (components : List PromptComponent) (index : ℕ) : List PromptComponent :=
  match components[index]? with
  | none => components
  | some component => components.take index ++
      (components.drop (index + 1)).filter fun later =>
        !isResultForCalls (componentToolCallIds component) later

/-- Drop the oldest message until the estimate fits. Every round drops one, so there are no more
rounds than components. -/
def applyDropOldest (maxTokens : ℕ) : ℕ → List PromptComponent →
    Except AgentError (List PromptComponent)
  | 0, components => .ok components
  | rounds + 1, components => do
    let tokens ← estimatedPromptTokens components
    if tokens ≤ maxTokens then return components
    else match oldestHistoricalMessage components with
      | none => return components
      | some index => applyDropOldest maxTokens rounds (withoutMessage components index)

def shouldStructurallyTrim (maxContentChars : ℕ) (component : PromptComponent) : Bool :=
  component.isHistorical && component.kind = "tool_result" &&
    (eventText component.data "source_tool_name" = "read" ||
      eventText component.data "source_tool_name" = "grep") &&
    maxContentChars < (componentMessageContent component).length

/-- The number of lines of a text. -/
def lineCount (text : String) : ℕ :=
  if text = "" then 0
  else text.toList.count '\n' + if text.toList.getLast? = some '\n' then 0 else 1

end

/-- A part of a result, without its text. -/
def trimmedContent (item : Map) : Value :=
  let itemType := ((item.get "type").bind Value.asStr).getD "unknown"
  match (item.get "text").bind Value.asStr with
  | some text => .object [("type", .string (if itemType = "" then "text" else itemType)),
      ("text_address", .string (Platform.hashBytes (.text text)).text),
      ("text_chars", .ofNat text.length), ("text_lines", .ofNat (lineCount text))]
  | none => .object [("type", .string (if itemType = "" then "unknown" else itemType))]

def trimmedToolResult (result : Map) : Map :=
  let trimmed : Map := ["ok", "metadata", "error"].filterMap fun key =>
    match result.get key with
    | none | some .null => none
    | some value => some (key, value)
  let content := (((result.get "content").bind Value.asArray).getD []).filterMap fun item =>
    item.asObject.map trimmedContent
  if content = [] then trimmed else trimmed ++ [("content", .array content)]

/-- The text that stands for a trimmed message. -/
def renderStub (component : PromptComponent) (sourceObjectId : String) :
    Except AgentError String := do
  let tokens ← estimatedComponentTokens component
  return "[elided " ++ component.kind ++ " " ++ toString tokens ++ "~tok id=" ++ sourceObjectId ++
    " — re-run the original tool call to recover this content]"

/-- The message that stands for a trimmed one. -/
def stubMessage (component : PromptComponent) (stub : String) : Map :=
  if (component.message.bind (·.get "role")).bind Value.asStr = some "tool" then
    [("role", .string "tool"),
      ("tool_call_id", .string (eventText component.data "source_tool_call_id")),
      ("content", .string stub)]
  else [("role", .string "user"), ("content", .string stub)]

/-- What is noted of a trimmed message. -/
def trimData (component : PromptComponent) (sourceObjectId : String) : Map :=
  let content := componentMessageContent component
  let callId := eventText component.data "source_tool_call_id"
  let trim : Map := [("trimmed", .bool true), ("trim_method", .string "structural"),
    ("raw_content_address", .string (Platform.hashBytes (.text content)).text),
    ("raw_content_chars", .ofNat content.length),
    ("raw_content_bytes", .ofNat content.utf8ByteSize),
    ("source_object_id", .string sourceObjectId)]
  let trim := if callId = "" then trim else trim.insert "tool_call_id" (.string callId)
  match (component.data.get "source_tool_result").bind Value.asObject with
  | none => trim
  | some result => trim.insert "tool_result" (.object (trimmedToolResult result))

def trimmedComponent (component : PromptComponent) : Except AgentError PromptComponent := do
  let sourceObjectId ← require component.objectId
    (traceError "prompt compaction source is missing its object id")
  let stub ← renderStub component sourceObjectId
  let message := stubMessage component stub
  return {
    kind := "compacted_context"
    data := [("method", .string "structural_trim"), ("source_kind", .string component.kind),
      ("trim", .object (trimData component sourceObjectId)), ("message", .object message),
      ("source_object_id", .string sourceObjectId)]
    message := some message
    representation := "stub"
    sourceObjectId := some sourceObjectId
    links := [sourceObjectId]
    objectId := none }

/-- The component, or what stands for it if it is too long. -/
def trimComponent (maxContentChars : ℕ) (component : PromptComponent) :
    Except AgentError PromptComponent :=
  if shouldStructurallyTrim maxContentChars component then trimmedComponent component
  else .ok component

def applyStructuralTrim (maxContentChars : ℕ) :
    List PromptComponent → Except AgentError (List PromptComponent)
  | [] => .ok []
  | component :: components => do
    let first ← trimComponent maxContentChars component
    let rest ← applyStructuralTrim maxContentChars components
    return first :: rest

def applyTransform (components : List PromptComponent) :
    PromptTransform → Except AgentError (List PromptComponent)
  | .none => .ok components
  | .structuralTrim maxContentChars => applyStructuralTrim maxContentChars components
  | .dropOldest maxTokens => applyDropOldest maxTokens components.length components

end

end Zeta
