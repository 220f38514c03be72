import ZetaRuntime.Index.Payload

/-!
# Capabilities and the checks of a tool call

A run grants an agent some of the declared capabilities, under names the model sees, and up to three
controls of its own: publishing an event, waiting for one, and cancelling either. What the model
writes is parsed, looked up by name, checked against the schema the model was shown, adapted, and
checked again against the schema of the capability.

The JSON parser, the schema validator and the calendar are parameters. Descriptions and the
descriptors of the prompt are left out: no check reads them.
-/

namespace Zeta

open Outcome

variable {params schema : Map} {id name : String}

/-! ### Values -/

/-- The text of a string. -/
def Value.asStr : Value → Option String
  | .string s => some s
  | .null | .bool _ | .number _ | .array _ | .object _ => none

/-- The fields of an object. -/
def Value.asObject : Value → Option Map
  | .object fields => some fields
  | .null | .bool _ | .number _ | .string _ | .array _ => none

/-- The elements of an array. -/
def Value.asArray : Value → Option (List Value)
  | .array values => some values
  | .null | .bool _ | .number _ | .string _ | .object _ => none

/-- Drop a key; the last field takes its place. -/
def Map.swapRemove (m : Map) (key : String) : Map :=
  match m.getLast? with
  | none => []
  | some last =>
    if last.1 = key then m.dropLast
    else m.dropLast.map fun field => if field.1 = key then last else field

/-! ### Errors and boundaries -/

/-- The boundary at which a run failed. -/
inductive AgentErrorKind where
  | invocation
  | prompt
  | model
  | tool
  | identity
  | trace
  | durability
  deriving DecidableEq, Repr

/-- A failure while preparing or executing an invocation. -/
structure AgentError where
  kind : AgentErrorKind
  message : String
  deriving DecidableEq, Repr

/-- Where a value does not fit a schema, and why. -/
structure SchemaViolation where
  location : String
  message : String
  deriving DecidableEq, Repr

/-- What the agent takes from libraries. -/
class AgentPlatform extends Platform where
  /-- The value of a JSON text, or a stable description of its first error. -/
  parseJson : String → Except String Value
  /-- What a value violates of a JSON schema, or nothing if the schema itself is not one. -/
  schemaErrors : Map → Value → Option (List SchemaViolation)
  /-- The instant of an RFC 3339 text, printed in UTC, or why it cannot be printed. -/
  formatUtc : String → Option (Except String String)

section

variable [AgentPlatform]

/-- Keep a violation if it is the first, or is at a lesser location than the one kept. -/
def keepFirst : Option SchemaViolation → SchemaViolation → Option SchemaViolation
  | none, violation => some violation
  | some first, violation => some (if violation.location < first.location then violation else first)

/-- What a value violates of a schema. The empty schema and a malformed one are not checked. -/
def schemaViolation (value : Value) (schema : Map) : Option SchemaViolation :=
  if schema = [] then none
  else ((AgentPlatform.schemaErrors schema value).getD []).foldl keepFirst none

/-- The text of a violation. -/
def schemaError (value : Value) (schema : Map) : Option String :=
  (schemaViolation value schema).map fun violation =>
    if violation.location = "" then violation.message
    else String.ofList (violation.location.toList.dropWhile (· = '/')) ++ ": " ++ violation.message

end

/-! ### Declarations -/

/-- A side-effecting or pure operation that agents may be granted. -/
structure Capability where
  id : String
  inputSchema : Map
  deliverySemantics : Option EffectDeliverySemantics
  deriving DecidableEq, Repr

/-- How the arguments of the model become those of the capability. -/
inductive ArgumentAdapter where
  | identity
  | renameField (old new : String)
  deriving DecidableEq, Repr

/-- The arguments of the capability. -/
def ArgumentAdapter.adapt (arguments : Map) : ArgumentAdapter → Except AgentError Map
  | .identity => .ok arguments
  | .renameField old new => do
    let value ← require (arguments.get old)
      ⟨.invocation, "argument adapter expected field '" ++ old ++ "'"⟩
    ensure (((arguments.swapRemove old).get new) = none)
      ⟨.invocation, "argument adapter would overwrite field '" ++ new ++ "'"⟩
    return (arguments.swapRemove old).insert new value

/-- A capability under the name and schema that the model sees. -/
structure ResolvedCapability where
  canonical : Capability
  modelName : String
  modelInputSchema : Map
  argumentAdapter : ArgumentAdapter
  deriving DecidableEq, Repr

/-- What the runner reads of a resolved invocation. -/
structure AgentInvocation where
  allowedCapabilities : List String
  maxModelCalls : ℕ
  baseDirectory : Option String
  effectScope : Option String
  sourceQueueItemId : Option String
  sourceAgentId : Option String
  sourceSessionId : Option String
  causedBy : Option String
  eventSource : String
  sessionId : Option String
  runId : Option String
  turnId : Option String
  deadlineMs : Option Int
  publishableEvents : Map
  deriving DecidableEq, Repr

/-! ### Routes -/

/-- What a granted name stands for. -/
inductive RouteKind where
  | external (capability : ResolvedCapability)
  | publish
  | wait
  | cancel
  | queryContextBudget
  deriving DecidableEq, Repr

/-- A granted name. -/
structure AgentRoute where
  id : String
  modelSchema : Map
  canonicalSchema : Map
  argumentAdapter : ArgumentAdapter
  kind : RouteKind
  deriving DecidableEq, Repr

/-- The names a run is granted, and those that are declared. -/
structure CapabilitySet where
  routes : List (String × AgentRoute)
  declarations : List ResolvedCapability
  deriving DecidableEq, Repr

/-- The route of a name. -/
def CapabilitySet.route (set : CapabilitySet) (name : String) : Option AgentRoute :=
  (set.routes.find? fun route => route.1 = name).map (·.2)

/-- Grant a name that is not granted yet. -/
def CapabilitySet.addRoute (set : CapabilitySet) (name : String) (route : AgentRoute) :
    Except AgentError CapabilitySet := do
  ensure (set.route name = none) ⟨.invocation, "reserved or ambiguous capability name: " ++ name⟩
  return { set with routes := set.routes ++ [(name, route)] }

/-- Grant a control. -/
def CapabilitySet.addInternal (set : CapabilitySet) (granted : Bool) (name id : String)
    (schema : Map) (kind : RouteKind) : Except AgentError CapabilitySet :=
  if granted then
    set.addRoute name
      { id, modelSchema := schema, canonicalSchema := schema, argumentAdapter := .identity, kind }
  else .ok set

/-- What a declared capability is routed to; some are no longer supported. -/
def routeKind (declaration : ResolvedCapability) : Except AgentError RouteKind := do
  ensure (declaration.canonical.id ∉
      ["zeta.query_content", "zeta.transform_content", "zeta.finish", "zeta.query_log"])
    ⟨.invocation, "unsupported capability grant: " ++ declaration.canonical.id⟩
  return if declaration.canonical.id = "zeta.query_context_budget" then .queryContextBudget
    else .external declaration

/-- Grant a declared capability. -/
def CapabilitySet.addGrant (set : CapabilitySet) (id : String) :
    Except AgentError CapabilitySet := do
  let declaration ← require
    (set.declarations.find? fun declaration => declaration.canonical.id = id)
    ⟨.invocation, "unknown capability grant: " ++ id⟩
  let kind ← routeKind declaration
  set.addRoute declaration.modelName
    { id := declaration.canonical.id
      modelSchema := declaration.modelInputSchema
      canonicalSchema := declaration.canonical.inputSchema
      argumentAdapter := declaration.argumentAdapter
      kind }

/-- The identities of declared capabilities are distinct. -/
def distinctCapabilities : List ResolvedCapability → List String → Except AgentError Unit
  | [], _ => .ok ()
  | declaration :: declarations, seen => do
    ensure (declaration.canonical.id ∉ seen)
      ⟨.invocation, "duplicate capability id: " ++ declaration.canonical.id⟩
    distinctCapabilities declarations (declaration.canonical.id :: seen)

/-- The schema of a text field. -/
def stringSchema (rest : Map) : Value := .object (("type", .string "string") :: rest)

/-- The schema of an object field. -/
def anyObjectSchema : Value := .object [("type", .string "object")]

/-- The schema of a control. -/
def controlSchema (required : List String) (properties : Map) : Map :=
  [("type", .string "object"), ("required", .array (required.map .string)),
    ("properties", .object properties), ("additionalProperties", .bool false)]

/-- The schema of a publication. -/
def publishSchema : Map :=
  controlSchema ["event_type", "payload"]
    [("event_type", stringSchema []), ("payload", anyObjectSchema), ("at", stringSchema [])]

/-- The schema of a wait. -/
def waitSchema : Map :=
  controlSchema ["event_type"]
    [("event_type", stringSchema [("minLength", .number (.int 1))]), ("fields", anyObjectSchema),
      ("deadline", stringSchema [])]

/-- The schema of a cancellation. -/
def cancelSchema : Map :=
  controlSchema ["handle"]
    [("handle", stringSchema [("pattern", .string "^(?:wait|pub)_.+$")]),
      ("reason", stringSchema [("minLength", .number (.int 1))])]

/-- Grant what an invocation allows, and the controls it can use. -/
def CapabilitySet.new (invocation : AgentInvocation) (declarations : List ResolvedCapability) :
    Except AgentError CapabilitySet := do
  distinctCapabilities declarations []
  let set ← foldOk CapabilitySet.addGrant ⟨[], declarations⟩ invocation.allowedCapabilities
  let set ← set.addInternal
    (!invocation.publishableEvents.isEmpty && invocation.sourceQueueItemId.isSome)
    "publish_event" "zeta.publish_event" publishSchema .publish
  let set ← set.addInternal invocation.sourceQueueItemId.isSome
    "wait_for" "zeta.wait_for" waitSchema .wait
  set.addInternal (invocation.sourceQueueItemId.isSome && invocation.sourceAgentId.isSome
    && invocation.sourceSessionId.isSome) "cancel" "zeta.cancel" cancelSchema .cancel

/-! ### One tool call -/

/-- A tool call as the model wrote it. -/
structure ParsedToolCall where
  callId : String
  name : String
  arguments : String
  params : Map
  /-- The code and text of what is wrong with it. -/
  parseError : Option (String × String)
  functionPresent : Bool
  deriving DecidableEq, Repr

/-- The id of a call, or its place among the calls of its message. -/
def toolCallId (call : Map) (index : ℕ) : String :=
  let id := (call.text "id").getD ""
  if id = "" then "call-" ++ toString index else id

/-- Why arguments are not those of a call. -/
def argumentsError : Except String Value → Option (String × String)
  | .ok (.object _) => none
  | .ok _ => some ("invalid-json-args", "function arguments JSON was not an object")
  | .error error => some ("invalid-json-args", error)

/-- The arguments of a call; those that are not an object are none. -/
def argumentsParams : Except String Value → Map
  | .ok (.object params) => params
  | .ok _ | .error _ => []

section

variable [AgentPlatform]

/-- Parse the function of a call. -/
def parseFunction (callId : String) (function : Map) : Option String → ParsedToolCall
  | none =>
    { callId, name := (function.text "name").getD "", arguments := "\x7b\x7d", params := []
      parseError := some ("invalid-json-args", "function arguments were not a JSON object string")
      functionPresent := true }
  | some arguments =>
    { callId, name := (function.text "name").getD "", arguments
      params := argumentsParams (AgentPlatform.parseJson arguments)
      parseError := argumentsError (AgentPlatform.parseJson arguments)
      functionPresent := true }

/-- Parse a call. -/
def ParsedToolCall.fromValue (call : Map) (index : ℕ) : ParsedToolCall :=
  match (call.get "function").bind Value.asObject with
  | none =>
    { callId := toolCallId call index, name := "", arguments := "\x7b\x7d", params := []
      parseError := some ("invalid-tool-call", "tool call did not include a function payload")
      functionPresent := false }
  | some function => parseFunction (toolCallId call index) function (function.text "arguments")

/-- Why a name is not granted. -/
def CapabilitySet.unroutable (set : CapabilitySet) (name : String) : String × String :=
  if (set.declarations.countP fun declaration => declaration.modelName = name) = 1
      ∨ (set.declarations.any fun declaration => declaration.canonical.id = name) then
    ("disallowed-tool", "tool is not allowed for this run: " ++ name)
  else ("unknown-tool", "unknown tool: " ++ name)

/-- A value fits a schema. -/
def checkSchema (start : String) (params schema : Map) : Except (String × String) Unit :=
  match schemaError (.object params) schema with
  | some message => .error ("invalid-tool-args", start ++ message)
  | none => .ok ()

/-- A call that could be parsed. -/
def ParsedToolCall.check (parsed : ParsedToolCall) : Except (String × String) Unit :=
  match parsed.parseError with
  | some error => .error error
  | none => .ok ()

/-- The route of a call and its arguments, or the code and text of what is wrong with it. -/
def CapabilitySet.validate (set : CapabilitySet) (parsed : ParsedToolCall) :
    Except (String × String) (AgentRoute × Map) := do
  parsed.check
  let route ← require (set.route parsed.name) (set.unroutable parsed.name)
  checkSchema "model arguments: " parsed.params route.modelSchema
  let canonicalParams ← (route.argumentAdapter.adapt parsed.params).mapError fun error =>
    ("invalid-tool-args", "could not adapt model arguments: " ++ error.message)
  checkSchema "canonical arguments: " canonicalParams route.canonicalSchema
  return (route, canonicalParams)

/-! ### What the checks establish -/

/-- Arguments that fit a schema. -/
def FitsSchema (params schema : Map) : Prop := schemaViolation (.object params) schema = none

instance (params schema : Map) : Decidable (FitsSchema params schema) :=
  inferInstanceAs (Decidable (_ = none))

theorem checkSchema_ok_iff {start : String} {u : Unit} :
    checkSchema start params schema = .ok u ↔ FitsSchema params schema := by
  unfold checkSchema schemaError FitsSchema
  cases schemaViolation (.object params) schema <;> simp

/-- A call that passes has a granted name, and its arguments fit both schemas. -/
theorem CapabilitySet.validate_ok {set : CapabilitySet} {parsed : ParsedToolCall}
    {route : AgentRoute} (h : set.validate parsed = .ok (route, params)) :
    parsed.parseError = none ∧ set.route parsed.name = some route ∧
      FitsSchema parsed.params route.modelSchema ∧
      route.argumentAdapter.adapt parsed.params = .ok params ∧
      FitsSchema params route.canonicalSchema := by
  simp only [validate, ok_iff, mapError_ok_iff, checkSchema_ok_iff, Prod.mk.injEq] at h
  obtain ⟨_, hparse, route, hroute, _, hmodel, params, hadapt, _, hcanonical, rfl, rfl⟩ := h
  refine ⟨?_, hroute, hmodel, hadapt, hcanonical⟩
  cases herror : parsed.parseError with
  | none => rfl
  | some error => simp [ParsedToolCall.check, herror] at hparse

end

/-- Where a route comes from: a capability that is declared and granted, or a control. -/
inductive AgentRoute.Granted (invocation : AgentInvocation) (declarations : List ResolvedCapability)
    (route : AgentRoute) : Prop where
  | external (capability : ResolvedCapability) (declared : capability ∈ declarations)
    (allowed : capability.canonical.id ∈ invocation.allowedCapabilities)
    (kind : route.kind = .external capability)
    (modelSchema : route.modelSchema = capability.modelInputSchema)
    (canonicalSchema : route.canonicalSchema = capability.canonical.inputSchema)
    (adapter : route.argumentAdapter = capability.argumentAdapter)
  | control (kind : ∀ capability, route.kind ≠ .external capability)

/-- Every route of a set is granted. -/
def CapabilitySet.Granted (set : CapabilitySet) (invocation : AgentInvocation)
    (declarations : List ResolvedCapability) : Prop :=
  set.declarations = declarations ∧ ∀ route ∈ set.routes, route.2.Granted invocation declarations

section

variable {invocation : AgentInvocation} {declarations : List ResolvedCapability}

variable {set set' : CapabilitySet}

theorem CapabilitySet.Granted.addRoute {route : AgentRoute} (h : set.addRoute name route = .ok set')
    (hset : set.Granted invocation declarations) (hroute : route.Granted invocation declarations) :
    set'.Granted invocation declarations := by
  simp only [CapabilitySet.addRoute, ok_iff] at h
  obtain ⟨_, -, rfl⟩ := h
  refine ⟨hset.1, fun granted hmem => ?_⟩
  rcases List.mem_append.mp hmem with hmem | hmem
  · exact hset.2 granted hmem
  · rw [List.mem_singleton.mp hmem]
    exact hroute

theorem CapabilitySet.Granted.addInternal {granted : Bool} {kind : RouteKind}
    (h : set.addInternal granted name id schema kind = .ok set')
    (hkind : ∀ capability, kind ≠ .external capability)
    (hset : set.Granted invocation declarations) :
    set'.Granted invocation declarations := by
  unfold CapabilitySet.addInternal at h
  split at h
  · exact hset.addRoute h (.control hkind)
  · cases h
    exact hset

theorem CapabilitySet.Granted.addGrant (h : set.addGrant id = .ok set')
    (hid : id ∈ invocation.allowedCapabilities) (hset : set.Granted invocation declarations) :
    set'.Granted invocation declarations := by
  simp only [CapabilitySet.addGrant, ok_iff] at h
  obtain ⟨declaration, hfind, kind, hkind, h⟩ := h
  have hmem := List.mem_of_find?_eq_some hfind
  have heq : declaration.canonical.id = id := by simpa using List.find?_some hfind
  refine hset.addRoute h ?_
  simp only [routeKind, ok_iff] at hkind
  obtain ⟨_, -, rfl⟩ := hkind
  by_cases hbudget : declaration.canonical.id = "zeta.query_context_budget"
  · exact .control (by simp [hbudget])
  · exact .external declaration (hset.1 ▸ hmem) (heq ▸ hid) (if_neg hbudget) rfl rfl rfl

/-- A run is granted only what its invocation allows. -/
theorem CapabilitySet.granted_of_new (h : CapabilitySet.new invocation declarations = .ok set) :
    set.Granted invocation declarations := by
  simp only [CapabilitySet.new, bind_ok_iff] at h
  obtain ⟨_, -, granted, hgranted, published, hpublished, waiting, hwaiting, hcancel⟩ := h
  have hfold : granted.Granted invocation declarations := by
    refine foldOk_invariant (P := fun set : CapabilitySet => set.Granted invocation declarations)
      ?_ ⟨rfl, by simp⟩ hgranted
    intro set set' id hid hset hstep
    exact hset.addGrant hstep hid
  exact ((hfold.addInternal hpublished (by simp)).addInternal hwaiting (by simp)).addInternal
    hcancel
    (by simp)

end

end Zeta
