import Mathlib.Algebra.GroupWithZero.Nat
import ZetaRuntime.Agent.Capability
import ZetaRuntime.Json.Text

/-!
# Messages between processes, and what makes them valid

Two processes talk in requests, notifications and responses. The parameters of every fixed method
are checked field by field, before a request is sent and again when it arrives, by one set of
functions. Initialization carries a profile of the peer: its roles, and for the roles that need them
the event types and the methods it declares.

What the profile looks like as JSON is left to the library that writes and reads it (`Wire`); all
that is used of it is that a profile is read back as it was written.
-/

namespace Zeta.Ipc

open Outcome

/-! ### Errors -/

/-- An invalid value, or an operation at the wrong time. -/
structure IpcError where
  code : Int
  message : String
  deriving DecidableEq, Repr

/-- The JSON-RPC error codes. -/
def invalidRequest : Int := -32600
def methodNotFoundCode : Int := -32601
def invalidParamsCode : Int := -32602
def internalError : Int := -32603
def serverError : Int := -32000

/-- The body of an error response. -/
structure ErrorObject where
  code : Int
  message : String
  data : Option Value
  deriving DecidableEq

/-- Whether a failure may succeed when it is tried again. -/
inductive Retryability where
  | retryable
  | final
  deriving DecidableEq, Repr

/-- An application error with stable retry details. -/
def ErrorObject.application (code : Int) (stableCode message : String)
    (retryability : Retryability) :
    ErrorObject :=
  ⟨code, message, some (.object [("code", .string stableCode),
    ("retryable", .bool (retryability = .retryable))])⟩

/-- A protocol error with a stable detail code. -/
def ErrorObject.protocol (code : Int) (stableCode message : String) : ErrorObject :=
  ⟨code, message, some (.object [("code", .string stableCode)])⟩

/-- An error as the body of a response. -/
def IpcError.toObject (error : IpcError) : ErrorObject := ⟨error.code, error.message, none⟩

/-! ### Messages -/

/-- The name of a request in its sender's namespace. -/
inductive RequestId where
  | string (text : String)
  | signed (number : Int)
  | unsigned (number : ℕ)
  deriving DecidableEq, Repr

structure Request where
  id : RequestId
  method : String
  params : Map
  deriving DecidableEq

structure Notification where
  method : String
  params : Map
  deriving DecidableEq

structure SuccessResponse where
  id : RequestId
  result : Value
  deriving DecidableEq

structure ErrorResponse where
  /-- No id if none could be recovered. -/
  id : Option RequestId
  error : ErrorObject
  deriving DecidableEq

inductive Message where
  | request (request : Request)
  | notification (notification : Notification)
  | success (response : SuccessResponse)
  | error (response : ErrorResponse)
  deriving DecidableEq

/-! ### The profile of a peer -/

/-- A permission on a connection. -/
inductive Role where
  | source
  | client
  | provider
  deriving DecidableEq, Repr

/-- The name of a role in a message. -/
def Role.debug : Role → String
  | .source => "Source"
  | .client => "Client"
  | .provider => "Provider"

structure PeerIdentity where
  name : String
  version : String
  deriving DecidableEq, Repr

/-- A type of event that a source may publish. -/
structure EventTypeDecl where
  eventType : String
  schema : String
  deriving DecidableEq, Repr

/-- A number of seconds, as a float. -/
inductive Seconds where
  | finite (value : Rat)
  /-- Not a number, or infinite. -/
  | notFinite
  deriving DecidableEq

/-- The parameters of `initialize`. -/
structure InitializeParams where
  protocolVersions : List ℕ
  peer : PeerIdentity
  roles : List Role
  eventTypes : Option (List EventTypeDecl)
  /-- The names of the methods a provider serves. -/
  methods : Option (List String)
  heartbeatSeconds : Option Seconds
  maxInFlight : Option ℕ
  deriving DecidableEq

/-- The result of `initialize`. -/
structure InitializeResult where
  protocolVersion : ℕ
  runtime : PeerIdentity
  roles : List Role
  config : Map
  heartbeatSeconds : Seconds
  maxInFlight : ℕ
  deriving DecidableEq

/-- The version of the protocol. -/
def protocolVersion : ℕ := 0

/-- The longest payload that is sent with an event. -/
def maxInlinePayloadBytes : ℕ := 64 * 1024

/-- The code that writes and reads profiles, and quotes texts in messages. -/
class Wire where
  /-- A text in quotation marks. -/
  quote : String → String
  /-- The error a profile is rejected with if it does not have the shape of one. -/
  paramsFromMap : Map → Except String InitializeParams
  paramsToMap : InitializeParams → Map
  resultFromValue : Value → Except String InitializeResult
  resultToValue : InitializeResult → Value

/-! ### Field checks -/

/-- Invalid parameters. -/
def invalidParams (message : String) : IpcError := ⟨invalidParamsCode, message⟩

/-- Check the elements of a list, up to the first that fails. -/
def checkEach {α : Type} (check : α → Except IpcError Unit) : List α → Except IpcError Unit
  | [] => .ok ()
  | a :: as => do
    check a
    checkEach check as

/-- Whether a value is an object. -/
def isObject (value : Value) : Bool := value.asObject.isSome

/-- Check that a text is not empty. -/
def validateNonEmpty (field value : String) : Except IpcError Unit :=
  ensure (value ≠ "") (invalidParams ("`" ++ field ++ "` must be non-empty"))

/-- A string field that is there. -/
def requiredString (params : Map) (field : String) : Except IpcError Unit := do
  let value ← require ((params.get field).bind Value.asStr)
    (invalidParams ("`" ++ field ++ "` must be a non-empty string"))
  validateNonEmpty field value

/-- The check of a field that may be null. -/
def nullOrString (field : String) : Value → Except IpcError Unit
  | .null => .ok ()
  | value => do
    let text ← require value.asStr
      (invalidParams ("`" ++ field ++ "` must be null or a non-empty string"))
    validateNonEmpty field text

/-- A string field that may be missing or null. -/
def optionalString (params : Map) (field : String) : Except IpcError Unit :=
  match params.get field with
  | none => .ok ()
  | some value => nullOrString field value

section

variable [Wire]

/-- A string field that may be null. -/
def nullableString (params : Map) (field : String) : Except IpcError Unit := do
  let value ← require (params.get field) (invalidParams ("missing parameter " ++ Wire.quote field))
  nullOrString field value

/-- Check that there are no other keys than the allowed ones, and all required ones. -/
def validateKeys (params : Map) (allowed required : List String) : Except IpcError Unit := do
  checkEach
    (fun key => ensure (key ∈ allowed) (invalidParams ("unsupported parameter " ++ Wire.quote key)))
    (params.map Prod.fst)
  checkEach (fun key => ensure (params.containsKey key = true)
    (invalidParams ("missing parameter " ++ Wire.quote key))) required

/-- The value of a field that was checked to be there. -/
def fieldOf (params : Map) (field : String) : Value := (params.get field).getD .null

/-- The check of a field that must be an integer. -/
def unsignedField (label : String) (value : Value) : Except IpcError Unit :=
  match value with
  | .number n =>
    ensure (n.asU64.isSome = true)
      (invalidParams ("`" ++ label ++ "` must be a non-negative integer"))
  | _ => .error (invalidParams ("`" ++ label ++ "` must be a non-negative integer"))

/-! ### Fixed methods -/

def validateEmpty (params : Map) : Except IpcError Unit := validateKeys params [] []

/-- The number of bytes of a compact JSON text. -/
def compactSize [StringText] (value : Value) : ℕ := ((render value).map Char.utf8Size).sum

def validatePublish [StringText] (params : Map) : Except IpcError Unit := do
  validateKeys params
    ["type", "payload", "idempotency_key", "caused_by", "session_id", "run_id", "turn_id"]
    ["type", "payload"]
  requiredString params "type"
  ensure (isObject (fieldOf params "payload") = true) (invalidParams "`payload` must be an object")
  ensure (compactSize (fieldOf params "payload") ≤ maxInlinePayloadBytes)
    (invalidParams "`payload` exceeds the 64 KiB inline limit")
  checkEach (optionalString params)
    ["idempotency_key", "caused_by", "session_id", "run_id", "turn_id"]

/-- An integer field that may be missing. -/
def optionalUnsigned (params : Map) (field : String) : Except IpcError Unit :=
  match params.get field with
  | none => .ok ()
  | some value => unsignedField field value

/-- A truth value that may be missing. -/
def optionalBoolean (params : Map) (field : String) : Except IpcError Unit :=
  match params.get field with
  | none | some (.bool _) => .ok ()
  | some _ => .error (invalidParams ("`" ++ field ++ "` must be a boolean"))

def validateEventsList (params : Map) : Except IpcError Unit := do
  validateKeys params
    ["event_type", "event_type_prefix", "session_id", "run_id", "turn_id", "caused_by",
    "after_cursor", "limit", "newest_first"] []
  checkEach (optionalString params)
    ["event_type", "event_type_prefix", "session_id", "run_id", "turn_id", "caused_by"]
  checkEach (optionalUnsigned params) ["after_cursor", "limit"]
  optionalBoolean params "newest_first"

def validateSessionStart (params : Map) : Except IpcError Unit := do
  validateKeys params ["message", "idempotency_key"] ["message"]
  requiredString params "message"
  optionalString params "idempotency_key"

def validateSessionSend (params : Map) : Except IpcError Unit := do
  validateKeys params ["session_id", "message", "idempotency_key"] ["session_id", "message"]
  requiredString params "session_id"
  requiredString params "message"
  optionalString params "idempotency_key"

def validateSessionStatus (params : Map) : Except IpcError Unit := do
  validateKeys params ["session_id"] ["session_id"]
  requiredString params "session_id"

def validateSessionCancel (params : Map) : Except IpcError Unit := do
  validateKeys params ["run_id", "session_id", "reason"] ["run_id"]
  requiredString params "run_id"
  optionalString params "session_id"
  optionalString params "reason"

def validateShutdown (params : Map) : Except IpcError Unit := do
  validateKeys params ["reason"] []
  optionalString params "reason"

/-- Check the parameters of a method that the protocol defines. -/
def validateFixedRequest [StringText] (method : String) (params : Map) : Except IpcError Unit :=
  match method with
  | "events.publish" => validatePublish params
  | "events.list" => validateEventsList params
  | "agents.list" | "project.reload" | "runtime.status" => validateEmpty params
  | "session.start" => validateSessionStart params
  | "session.send" => validateSessionSend params
  | "session.status" => validateSessionStatus params
  | "session.list" => validateEmpty params
  | "session.cancel" => validateSessionCancel params
  | "ping" => validateEmpty params
  | "shutdown" => validateShutdown params
  | "initialize" | "event" =>
    .error (invalidParams (Wire.quote method ++ " is not valid through the ordinary request path"))
  | _ => .ok ()

/-- Check the parameters of a method that a provider declares. -/
def validateDirectRequest (params : Map) : Except IpcError Unit := do
  validateKeys params ["input", "base_dir", "effect_key"] ["input"]
  ensure (isObject (fieldOf params "input") = true) (invalidParams "`input` must be an object")
  optionalString params "base_dir"
  optionalString params "effect_key"

/-- Check a durable event. -/
def validateDurableEvent (value : Value) : Except IpcError Unit := do
  let event ← require value.asObject (invalidParams "`event` must be an object")
  checkEach (fun field => ensure (event.containsKey field = true)
      (invalidParams ("missing event field " ++ Wire.quote field)))
    ["id", "type", "source", "payload", "idempotency_key", "caused_by", "session_id", "run_id",
      "turn_id", "timestamp_ms", "cursor"]
  checkEach (requiredString event) ["id", "type", "source"]
  ensure (isObject (fieldOf event "payload") = true)
    (invalidParams "`event.payload` must be an object")
  checkEach (nullableString event)
    ["idempotency_key", "caused_by", "session_id", "run_id", "turn_id"]
  checkEach (fun field => unsignedField ("event." ++ field) (fieldOf event field))
    ["timestamp_ms", "cursor"]

/-- Check the parameters of an `event` notification. -/
def validateEventNotification (params : Map) : Except IpcError Unit := do
  validateKeys params ["event"] ["event"]
  validateDurableEvent (fieldOf params "event")

/-- Check the result of a method. -/
def validateResult (method : String) (result : Value) : Except IpcError Unit :=
  ensure (isObject result = true)
    ⟨invalidRequest, "the result of " ++ Wire.quote method ++ " must be an object"⟩

/-! ### Initialization -/

/-- Whether a method name belongs to the protocol. -/
def methodIsReserved (method : String) : Bool :=
  method ∈
    ["initialize", "event", "ping", "shutdown", "agents.list", "project.reload", "runtime.status"]
    ||
    startsWith method "events." || startsWith method "session." || startsWith method "rpc."

/-- Check that a list has no element twice. -/
def validateUnique {α : Type} [DecidableEq α] (error : IpcError) (as : List α) :
    Except IpcError Unit :=
  ensure as.Nodup error

/-- Check the declared event types, each with those before it. -/
def validateEventTypes : List String → List EventTypeDecl → Except IpcError Unit
  | _, [] => .ok ()
  | seen, decl :: decls => do
    validateNonEmpty "event type" decl.eventType
    validateNonEmpty "event schema" decl.schema
    ensure (decl.eventType ∉ seen) (invalidParams "`event_types` must not contain duplicate types")
    validateEventTypes (decl.eventType :: seen) decls

/-- Check the declared methods, each with those before it. -/
def validateMethods : List String → List String → Except IpcError Unit
  | _, [] => .ok ()
  | seen, name :: names => do
    validateNonEmpty "method name" name
    ensure (methodIsReserved name = false)
      (invalidParams ("method " ++ Wire.quote name ++ " uses a reserved name"))
    ensure (name ∉ seen) (invalidParams "`methods` must not contain duplicate names")
    validateMethods (name :: seen) names

/-- Check a declaration that one role needs and no other may have. -/
def validateDeclared {α : Type} (label role : String) (hasRole : Bool)
    (check : α → Except IpcError Unit) :
    Option α → Except IpcError Unit
  | some declared =>
    if hasRole then check declared
    else .error (invalidParams ("`" ++ label ++ "` requires the " ++ role ++ " role"))
  | none =>
    if hasRole then .error (invalidParams ("the " ++ role ++ " role requires `" ++ label ++ "`"))
    else .ok ()

/-- Whether an interval is in the allowed range. -/
def Seconds.allowed : Seconds → Bool
  | .finite value => 1 ≤ value ∧ value ≤ 300
  | .notFinite => false

/-- Whether a limit is in the allowed range. -/
def allowedLimit (limit : ℕ) : Bool := 1 ≤ limit ∧ limit ≤ 1024

/-- Check the profile of a peer. -/
def validateInitializeParams (params : InitializeParams) : Except IpcError Unit := do
  ensure (params.protocolVersions ≠ []) (invalidParams "`protocol_versions` must be non-empty")
  validateUnique (invalidParams "`protocol_versions` must not contain duplicates")
    params.protocolVersions
  validateNonEmpty "peer.name" params.peer.name
  validateNonEmpty "peer.version" params.peer.version
  ensure (params.roles ≠ []) (invalidParams "`roles` must be non-empty")
  validateUnique (invalidParams "`roles` must not contain duplicates") params.roles
  validateDeclared "event_types" "source" (.source ∈ params.roles) (validateEventTypes [])
    params.eventTypes
  validateDeclared "methods" "provider" (.provider ∈ params.roles) (validateMethods [])
    params.methods
  ensure (params.heartbeatSeconds.all Seconds.allowed = true)
    (invalidParams "`heartbeat_seconds` must be a number in [1, 300]")
  ensure (params.maxInFlight.all allowedLimit = true)
    (invalidParams "`max_in_flight` must be an integer in [1, 1024]")

/-- Read and check the profile of a peer. -/
def parseInitializeParams (params : Map) : Except IpcError InitializeParams := do
  let params ← (Wire.paramsFromMap params).mapError fun error =>
    invalidParams ("invalid initialize parameters: " ++ error)
  validateInitializeParams params
  return params

/-- Check what a runtime answered to a profile. -/
def validateInitializeResult (result : InitializeResult) (expectedRoles : List Role) :
    Except IpcError Unit := do
  ensure (result.protocolVersion = protocolVersion)
    ⟨invalidRequest, "the runtime selected unsupported protocol version " ++ toString
      result.protocolVersion⟩
  ensure (result.runtime.name ≠ "") ⟨invalidRequest, "`runtime.name` must be non-empty"⟩
  ensure (result.runtime.version ≠ "") ⟨invalidRequest, "`runtime.version` must be non-empty"⟩
  validateUnique ⟨invalidRequest, "the runtime returned duplicate roles"⟩ result.roles
  ensure (result.roles.length = expectedRoles.length)
    ⟨invalidRequest, "the runtime did not accept the requested roles exactly"⟩
  ensure (∀ role ∈ expectedRoles, role ∈ result.roles)
    ⟨invalidRequest, "the runtime did not accept the requested roles exactly"⟩
  ensure (result.heartbeatSeconds.allowed = true)
    ⟨invalidRequest, "the runtime returned an invalid heartbeat interval"⟩
  ensure (allowedLimit result.maxInFlight = true)
    ⟨invalidRequest, "the runtime returned an invalid in-flight limit"⟩

end

end Zeta.Ipc
