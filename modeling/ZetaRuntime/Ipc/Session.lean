import ZetaRuntime.Ipc.Message

/-!
# Sessions

A session is one end of a connection. It has a side and a state, the profile of the peer, a table of
the requests it has to answer and a table of the requests it waits for. It performs no input or
output: each call returns the actions its caller has to carry out.

The two ends are not symmetric. The peer initializes and the runtime answers; the peer calls the
methods of the protocol and the runtime those that the peer declares. Each end checks a request
before it sends it and the other end checks it again.
-/

namespace Zeta.Ipc

open Outcome

/-- Which process may ask for an orderly shutdown. -/
inductive ShutdownDirection where
  | localSupervisesRemote
  | remoteSupervisesLocal
  | disabled
  deriving DecidableEq, Repr

/-- The settings of a runtime. -/
structure RuntimeConfig where
  runtime : PeerIdentity
  config : Map
  supportedRoles : List Role
  heartbeatSeconds : Seconds
  maxInFlight : ℕ
  deriving DecidableEq

/-- What became of a request: a result or an error. -/
abbrev RequestOutcome := Except ErrorObject Value

/-- The outcome of a request of the local process. -/
structure ResolvedRequest where
  id : RequestId
  method : String
  outcome : RequestOutcome

/-- What a session asks its caller to do. -/
inductive Action where
  | send (message : Message)
  | handleRequest (request : Request)
  | handleNotification (notification : Notification)
  | requestResolved (resolved : ResolvedRequest)
  | violation (error : IpcError)
  | close (reason : Option String)

inductive Side where
  | peer
  | runtime
  deriving DecidableEq, Repr

inductive State where
  | peerIdle
  | peerAwaitingInitialization
  | runtimeAwaitingInitialization
  | initialized
  | closed
  deriving DecidableEq, Repr

/-- Unanswered requests, by id, with their methods. -/
abbrev Pending := Table (Prod.fst : RequestId × String → RequestId)

/-- One end of a connection. -/
structure Session where
  side : Side
  state : State
  peerParams : Option InitializeParams
  runtimeConfig : Option RuntimeConfig
  initializeResult : Option InitializeResult
  shutdownDirection : ShutdownDirection
  incoming : Pending
  outgoing : Pending
  maxInFlight : ℕ
  activitySinceTick : Bool
  missedIntervals : ℕ

/-- The peer end, before it initializes. -/
def Session.peer (params : InitializeParams) (shutdownDirection : ShutdownDirection) : Session where
  side := .peer
  state := .peerIdle
  peerParams := some params
  runtimeConfig := none
  initializeResult := none
  shutdownDirection
  incoming := .empty
  outgoing := .empty
  maxInFlight := params.maxInFlight.getD 64
  activitySinceTick := false
  missedIntervals := 0

/-- The runtime end, before it is initialized. -/
def Session.runtime (config : RuntimeConfig) (shutdownDirection : ShutdownDirection) : Session where
  side := .runtime
  state := .runtimeAwaitingInitialization
  peerParams := none
  runtimeConfig := some config
  initializeResult := none
  shutdownDirection
  incoming := .empty
  outgoing := .empty
  maxInFlight := config.maxInFlight
  activitySinceTick := false
  missedIntervals := 0

/-- Forget an unanswered request. -/
def Pending.remove (t : Pending) (id : RequestId) : Pending := t.deleteWhere fun r => r.1 = id

section

variable [Wire]

/-- How an id is written in a message. -/
def RequestId.debug : RequestId → String
  | .string text => "String(" ++ Wire.quote text ++ ")"
  | .signed number => "Signed(" ++ toString number ++ ")"
  | .unsigned number => "Unsigned(" ++ toString number ++ ")"

/-- Answer a request with an error, and report it. -/
def rejectRequest (request : Request) (error : IpcError) : List Action :=
  [.send (.error ⟨some request.id, error.toObject⟩), .violation error]

/-- Answer a request with an error that has a stable code, and report it. -/
def rejectRequestWithCode (request : Request) (error : IpcError) (stableCode : String) :
    List Action :=
  [.send (.error ⟨some request.id, .protocol error.code stableCode error.message⟩),
    .violation error]

/-- Close after some actions. -/
def withClose (actions : List Action) (reason : String) :
    List Action := actions ++ [.close (some reason)]

/-- A method that is not available. -/
def methodNotFound (method : String) : IpcError :=
  ⟨methodNotFoundCode,
    "method " ++ Wire.quote method ++ " is not available for this role and direction"⟩

/-- The methods of the client role. -/
def isClientMethod (method : String) : Bool :=
  method ∈ ["events.list", "events.publish", "agents.list", "project.reload", "runtime.status",
    "session.start", "session.send", "session.status", "session.list", "session.cancel"]

/-- The limit is reached. -/
def limitFull (limit : ℕ) : IpcError :=
  ⟨serverError, "the in-flight request limit of " ++ toString limit ++ " is full"⟩

namespace Session

/-! ### Permissions -/

def hasPeerRole (s : Session) (expected : Role) : Bool :=
  match s.peerParams with
  | some params => expected ∈ params.roles
  | none => false

def peerDeclaresMethod (s : Session) (method : String) : Bool :=
  match s.peerParams.bind (·.methods) with
  | some methods => method ∈ methods
  | none => false

/-- A source publishes only the types it declared. -/
def validatePublishedType (s : Session) (params : Map) : Except IpcError Unit := do
  let eventType ← require ((params.get "type").bind Value.asStr)
    (invalidParams "`type` must be a non-empty string")
  let peerParams ← require s.peerParams ⟨internalError, "the peer profile is unavailable"⟩
  let eventTypes ← require peerParams.eventTypes
    ⟨methodNotFoundCode, "the peer did not declare event types"⟩
  ensure (eventType ∈ eventTypes.map (·.eventType))
    ⟨methodNotFoundCode, "event type " ++ Wire.quote eventType ++ " was not declared"⟩

variable [StringText]

/-- The checks of a request from the peer, made by the peer before it sends the request and by the
runtime when it arrives. -/
def validateFromPeer (s : Session) (method : String) (params : Map) : Except IpcError Unit :=
  if method = "events.publish" then
    if s.hasPeerRole .source then do
      validateFixedRequest method params
      s.validatePublishedType params
    else if s.hasPeerRole .client then validateFixedRequest method params
    else .error (methodNotFound method)
  else if isClientMethod method then
    if s.hasPeerRole .client then validateFixedRequest method params
    else .error (methodNotFound method)
  else .error (methodNotFound method)

def validatePeerOutgoing (s : Session) (method : String) (params : Map) : Except IpcError Unit :=
  s.validateFromPeer method params

def validateRuntimeIncoming (s : Session) (method : String) (params : Map) : Except IpcError Unit :=
  s.validateFromPeer method params

omit [StringText] in
def validateRuntimeOutgoing (s : Session) (method : String) (params : Map) : Except IpcError Unit :=
  if methodIsReserved method || !s.peerDeclaresMethod method then .error (methodNotFound method)
  else validateDirectRequest params

omit [StringText] in
def validatePeerIncoming (s : Session) (method : String) (params : Map) : Except IpcError Unit :=
  if !s.hasPeerRole .provider || !s.peerDeclaresMethod method then .error (methodNotFound method)
  else validateDirectRequest params

def validateOutgoingRequest (s : Session) (method : String) (params : Map) : Except IpcError Unit :=
  if method = "ping" then validateFixedRequest method params
  else if method = "shutdown" then
    if s.shutdownDirection = .localSupervisesRemote then validateFixedRequest method params
    else .error ⟨methodNotFoundCode, "shutdown is not authorized"⟩
  else match s.side with
    | .peer => s.validatePeerOutgoing method params
    | .runtime => s.validateRuntimeOutgoing method params

def validateIncomingRequest (s : Session) (method : String) (params : Map) : Except IpcError Unit :=
  match s.side with
  | .runtime => s.validateRuntimeIncoming method params
  | .peer => s.validatePeerIncoming method params

/-! ### The local process -/

section

omit [StringText]

/-- Start initialization. -/
def initializeSession (s : Session) (id : RequestId) : Except IpcError (List Action × Session) := do
  ensure (s.side = .peer ∧ s.state = .peerIdle)
    ⟨invalidRequest, "the session cannot initialize in its current state"⟩
  let params ← require s.peerParams
    ⟨internalError, "the peer session has no initialization parameters"⟩
  validateInitializeParams params
  ensure (s.outgoing.find? id = none)
    ⟨invalidRequest, "request id " ++ id.debug ++ " is already pending"⟩
  return ([.send (.request ⟨id, "initialize", Wire.paramsToMap params⟩)], { s with
    outgoing := s.outgoing.upsert (id, "initialize")
    state := .peerAwaitingInitialization })

/-- Send a request. -/
def sendRequest (s : Session) (id : RequestId) (method : String) (params : Map) :
    Except IpcError (List Action × Session) := do
  ensure (s.state = .initialized) ⟨invalidRequest, "requests require an initialized session"⟩
  s.validateOutgoingRequest method params
  ensure (s.outgoing.find? id = none)
    ⟨invalidRequest, "request id " ++ id.debug ++ " is already pending"⟩
  ensure (s.outgoing.rows.length < s.maxInFlight) (limitFull s.maxInFlight)
  return ([.send (.request ⟨id, method, params⟩)],
    { s with outgoing := s.outgoing.upsert (id, method) })

/-- Send a notification. -/
def sendNotification (s : Session) (method : String) (params : Map) :
    Except IpcError (List Action × Session) := do
  ensure (s.state = .initialized) ⟨invalidRequest, "notifications require an initialized session"⟩
  ensure (s.side = .runtime ∧ method = "event" ∧ s.hasPeerRole .client = true)
    ⟨methodNotFoundCode, "notification method " ++ Wire.quote method ++ " is not available"⟩
  validateEventNotification params
  return ([.send (.notification ⟨method, params⟩)], s)

/-- Answer a request with a result. -/
def completeRequest (s : Session) (id : RequestId) (result : Value) :
    Except IpcError (List Action × Session) := do
  let pending ← require (s.incoming.find? id)
    ⟨invalidRequest, "request id " ++ id.debug ++ " is not pending"⟩
  validateResult pending.2 result
  return ([.send (.success ⟨id, result⟩)], { s with incoming := s.incoming.remove id })

/-- Answer a request with an error. -/
def failRequest (s : Session) (id : RequestId) (error : ErrorObject) :
    Except IpcError (List Action × Session) := do
  let _ ← require (s.incoming.find? id)
    ⟨invalidRequest, "request id " ++ id.debug ++ " is not pending"⟩
  return ([.send (.error ⟨some id, error⟩)], { s with incoming := s.incoming.remove id })

end

/-- The end of a heartbeat interval. -/
def onTick (s : Session) (pingId : RequestId) : List Action × Session :=
  if s.state ≠ .initialized ∨ s.shutdownDirection ≠ .localSupervisesRemote then ([], s)
  else if s.activitySinceTick then ([], { s with activitySinceTick := false, missedIntervals := 0 })
  else
    let missed := min (s.missedIntervals + 1) 255
    if 3 ≤ missed then
      ([.close (some "the peer missed three heartbeat intervals")],
        { s with missedIntervals := missed, state := .closed })
    else
      match sendRequest { s with missedIntervals := missed } pingId "ping" [] with
      | .ok r => r
      | .error error => ([.violation error], { s with missedIntervals := missed })

/-! ### The other process -/

section

omit [StringText]

/-- The failure of an initialization. -/
def failInitialization (s : Session) (error : IpcError) : List Action × Session :=
  ([.violation error, .close (some "initialization failed")], { s with state := .closed })

/-- The answer to a profile that can be accepted. -/
def acceptInitialize (s : Session) (request : Request) (params : InitializeParams)
    (config : RuntimeConfig) : List Action × Session :=
  let maxInFlight := min (params.maxInFlight.getD config.maxInFlight) config.maxInFlight
  let result : InitializeResult := {
    protocolVersion
    runtime := config.runtime
    roles := params.roles
    config := config.config
    heartbeatSeconds := params.heartbeatSeconds.getD config.heartbeatSeconds
    maxInFlight }
  ([.send (.success ⟨request.id, Wire.resultToValue result⟩)], { s with
    peerParams := some params
    initializeResult := some result
    maxInFlight
    state := .initialized
    activitySinceTick := false })

def receiveInitialize (s : Session) (request : Request) : List Action × Session :=
  match parseInitializeParams request.params with
  | .error error =>
    (withClose (rejectRequest request error) "initialization failed", { s with state := .closed })
  | .ok params =>
    if protocolVersion ∉ params.protocolVersions then
      ([.send (.error ⟨some request.id, .application serverError "unsupported_version"
          "No supported IPC protocol version" .final⟩),
        .close (some "initialization failed")], { s with state := .closed })
    else match s.runtimeConfig with
      | none =>
        (rejectRequest request ⟨internalError, "the runtime configuration is unavailable"⟩,
          { s with state := .closed })
      | some config =>
        match params.roles.find? (· ∉ config.supportedRoles) with
        | some role =>
          (withClose (rejectRequest request
            (invalidParams ("role " ++ role.debug ++ " is not supported by this runtime")))
            "initialization failed", { s with state := .closed })
        | none => s.acceptInitialize request params config

def receiveShutdown (s : Session) (request : Request) : List Action × Session :=
  if s.shutdownDirection ≠ .remoteSupervisesLocal then
    (rejectRequest request ⟨methodNotFoundCode, "shutdown is not authorized"⟩, s)
  else match validateFixedRequest request.method request.params with
    | .error error => (rejectRequest request error, s)
    | .ok _ =>
      ([.send (.success ⟨request.id, .object []⟩),
        .close ((request.params.get "reason").bind Value.asStr)], { s with state := .closed })

/-- A request that is not one of the session's own. -/
def receiveApplicationRequest (s : Session) (request : Request) : List Action × Session :=
  match s.validateIncomingRequest request.method request.params with
  | .error error => (rejectRequest request error, s)
  | .ok _ =>
    if s.maxInFlight ≤ s.incoming.rows.length then
      (rejectRequest request (limitFull s.maxInFlight), s)
    else ([.handleRequest request],
      { s with incoming := s.incoming.upsert (request.id, request.method) })

/-- A request on an open connection. -/
def receiveOpenRequest (s : Session) (request : Request) : List Action × Session :=
  if s.incoming.find? request.id ≠ none then
    (rejectRequest request ⟨invalidRequest, "the request id is already pending"⟩, s)
  else if request.method = "ping" then
    match validateFixedRequest request.method request.params with
    | .error error => (rejectRequest request error, s)
    | .ok _ => ([.send (.success ⟨request.id, .object []⟩)], s)
  else if request.method = "shutdown" then s.receiveShutdown request
  else s.receiveApplicationRequest request

def receiveRequest (s : Session) (request : Request) : List Action × Session :=
  if request.method = "initialize" then
    if s.side = .runtime ∧ s.state = .runtimeAwaitingInitialization then s.receiveInitialize request
    else (rejectRequestWithCode request ⟨invalidRequest, "a connection may initialize only once"⟩
      "already_initialized", s)
  else if s.state ≠ .initialized then
    (withClose
      (rejectRequestWithCode request ⟨invalidRequest, "initialize must be the first request"⟩
      "not_initialized") "traffic before initialization", { s with state := .closed })
  else s.receiveOpenRequest request

def receiveNotification (s : Session) (notification : Notification) : List Action × Session :=
  if s.state ≠ .initialized then
    ([.violation ⟨invalidRequest, "initialize must complete before notifications"⟩,
      .close (some "traffic before initialization")], { s with state := .closed })
  else if s.side = .peer ∧ s.hasPeerRole .client = true ∧ notification.method = "event" then
    match validateEventNotification notification.params with
    | .ok _ => ([.handleNotification notification], s)
    | .error error => ([.violation error], s)
  else if s.side = .runtime ∧ s.hasPeerRole .provider = true ∧
    notification.method = "model.observation" then
    ([.handleNotification notification], s)
  else ([.violation ⟨methodNotFoundCode,
    "notification method " ++ Wire.quote notification.method ++ " is not available"⟩], s)

/-- The answer of a runtime that accepted the profile. -/
def receiveInitializeSuccess (s : Session) (response : SuccessResponse) (method : String) :
    List Action × Session :=
  if s.side ≠ .peer ∨ s.state ≠ .peerAwaitingInitialization then
    s.failInitialization ⟨invalidRequest, "an initialization response arrived in the wrong state"⟩
  else match Wire.resultFromValue response.result with
    | .error error => s.failInitialization ⟨invalidRequest, "invalid initialize result: " ++ error⟩
    | .ok result =>
      match s.peerParams with
      | none =>
        s.failInitialization ⟨internalError, "the peer initialization parameters are unavailable"⟩
      | some params =>
        match validateInitializeResult result params.roles with
        | .error error => s.failInitialization error
        | .ok _ =>
          ([.requestResolved ⟨response.id, method, .ok response.result⟩], { s with
            maxInFlight := result.maxInFlight
            initializeResult := some result
            state := .initialized
            activitySinceTick := false })

def receiveSuccess (s : Session) (response : SuccessResponse) : List Action × Session :=
  match s.outgoing.find? response.id with
  | none =>
    ([.violation ⟨invalidRequest, "response id " ++ response.id.debug ++ " is not pending"⟩], s)
  | some (_, method) =>
    let s := { s with outgoing := s.outgoing.remove response.id }
    if method = "initialize" then s.receiveInitializeSuccess response method
    else match validateResult method response.result with
      | .error error => ([.violation error], s)
      | .ok _ => ([.requestResolved ⟨response.id, method, .ok response.result⟩], s)

def receiveError (s : Session) (response : ErrorResponse) : List Action × Session :=
  match response.id with
  | none =>
    ([.violation ⟨invalidRequest, "an error response with null id cannot resolve a request"⟩], s)
  | some id =>
    match s.outgoing.find? id with
    | none => ([.violation ⟨invalidRequest, "response id " ++ id.debug ++ " is not pending"⟩], s)
    | some (_, method) =>
      let s := { s with outgoing := s.outgoing.remove id }
      let actions := [.requestResolved ⟨id, method, .error response.error⟩]
      if method = "initialize" then
        (withClose actions "initialization failed", { s with state := .closed })
      else (actions, s)

end

/-- Consume a message from the other process. -/
def receive (s : Session) (message : Message) : List Action × Session :=
  if s.state = .closed then ([], s)
  else
    let s := { s with activitySinceTick := true, missedIntervals := 0 }
    match message with
    | .request request => s.receiveRequest request
    | .notification notification => s.receiveNotification notification
    | .success response => s.receiveSuccess response
    | .error response => s.receiveError response

end Session

/-! ### Calls -/

/-- Anything that can be done to a session. -/
inductive Call where
  | initializeSession (id : RequestId)
  | sendRequest (id : RequestId) (method : String) (params : Map)
  | sendNotification (method : String) (params : Map)
  | completeRequest (id : RequestId) (result : Value)
  | failRequest (id : RequestId) (error : ErrorObject)
  | tick (pingId : RequestId)
  | receive (message : Message)

/-- The actions and the session after an operation that may be refused. -/
def ofResult (s : Session) : Except IpcError (List Action × Session) → List Action × Session
  | .ok r => r
  | .error _ => ([], s)

/-- Carry out a call. An operation that is refused does nothing. -/
def Session.perform [StringText] (s : Session) : Call → List Action × Session
  | .initializeSession id => ofResult s (s.initializeSession id)
  | .sendRequest id method params => ofResult s (s.sendRequest id method params)
  | .sendNotification method params => ofResult s (s.sendNotification method params)
  | .completeRequest id result => ofResult s (s.completeRequest id result)
  | .failRequest id error => ofResult s (s.failRequest id error)
  | .tick pingId => s.onTick pingId
  | .receive message => s.receive message

end

end Zeta.Ipc
