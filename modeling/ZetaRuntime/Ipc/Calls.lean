import ZetaRuntime.Ipc.Accounting

/-!
# Calls of the local process

A session is called by the local process, or it receives a message. A call of the local process that
is refused changes nothing. One that is accepted sends a request, a notification or the answer to a
request that was open, or it lets the time pass. `acted_perform` says so once for all calls.
-/

namespace Zeta.Ipc

open Outcome

variable {actions : List Action} {params : Map} {id : RequestId} {s s' : Session} {method : String}

/-- The response that tells an outcome. -/
def responseTo (id : RequestId) : RequestOutcome → Message
  | .ok result => .success ⟨id, result⟩
  | .error error => .error ⟨some id, error⟩

/-- The message that an action sends. -/
def Action.message : Action → Option Message
  | .send message => some message
  | _ => none

/-- The messages that some actions send. -/
def sends (actions : List Action) : List Message := actions.filterMap Action.message

def Action.isClose : Action → Bool
  | .close _ => true
  | _ => false

/-- The delivery of a message is not a call of a local process. -/
def Call.isLocal : Call → Bool
  | .receive _ => false
  | _ => true

/-- An action that the notes and the queues do not see. -/
def Action.isSilent : Action → Bool
  | .send _ | .requestResolved _ => false
  | _ => true

section

variable [Wire] [StringText]

/-- The outcomes that a method may have. -/
def Fits (method : String) (outcome : RequestOutcome) : Prop :=
  method ≠ "initialize" → ∀ result, outcome = .ok result → validateResult method result = .ok ()

namespace Session

/-! ### Calls of the local process -/

/-- What a call of the local process does. -/
inductive Acted (s : Session) : List Action → Session → Prop where
  | nothing (actions : List Action) (activity : Bool) (missed : ℕ)
      (hsilent : ∀ action ∈ actions, action.isSilent = true)
      (hclose : ∀ action ∈ actions, action.isClose = false) :
      s.Acted actions { s with activitySinceTick := activity, missedIntervals := missed }
  | lapsed (reason : Option String) (missed : ℕ) (hopen : s.state = .initialized) :
      s.Acted [.close reason] { s with missedIntervals := missed, state := .closed }
  | started (id : RequestId) (params : InitializeParams) (hidle : s.state = .peerIdle)
      (hparams : s.peerParams = some params) (hvalid : validateInitializeParams params = .ok ())
      (hnew : s.outgoing.find? id = none) :
      s.Acted [.send (.request ⟨id, "initialize", Wire.paramsToMap params⟩)] { s with
        outgoing := s.outgoing.upsert (id, "initialize")
        state := .peerAwaitingInitialization }
  | asked (r : Request) (missed : ℕ) (hopen : s.state = .initialized)
      (hvalid : s.validateOutgoingRequest r.method r.params = .ok ())
      (hnew : s.outgoing.find? r.id = none)
      (hroom : s.outgoing.rows.length < s.maxInFlight) :
      s.Acted [.send (.request r)] { s with
        outgoing := s.outgoing.upsert (r.id, r.method)
        missedIntervals := missed }
  | notified (n : Notification) (hopen : s.state = .initialized) (hside : s.side = .runtime)
      (hmethod : n.method = "event") (hrole : s.hasPeerRole .client = true)
      (hvalid : validateEventNotification n.params = .ok ()) : s.Acted [.send (.notification n)] s
  | answered (row : RequestId × String) (outcome : RequestOutcome) (hrow : row ∈ s.incoming)
      (hfits : Fits row.2 outcome) :
      s.Acted [.send (responseTo row.1 outcome)] { s with incoming := s.incoming.remove row.1 }

theorem acted_refused (s : Session) : s.Acted [] s :=
  .nothing [] s.activitySinceTick s.missedIntervals (by simp) (by simp)

theorem acted_sendRequest (h : s.sendRequest id method params = .ok (actions, s')) :
    s.Acted actions s' := by
  simp only [sendRequest, ok_iff, Prod.mk.injEq] at h
  obtain ⟨-, hopen, _, hvalid, -, hnew, -, hroom, rfl, rfl⟩ := h
  exact .asked ⟨id, method, params⟩ s.missedIntervals hopen hvalid hnew hroom

theorem acted_initializeSession (h : s.initializeSession id = .ok (actions, s')) :
    s.Acted actions s' := by
  simp only [initializeSession, ok_iff, Prod.mk.injEq] at h
  obtain ⟨-, ⟨-, hidle⟩, params, hparams, _, hvalid, -, hnew, rfl, rfl⟩ := h
  exact .started id params hidle hparams hvalid hnew

theorem acted_sendNotification (h : s.sendNotification method params = .ok (actions, s')) :
    s.Acted actions s' := by
  simp only [sendNotification, ok_iff, Prod.mk.injEq] at h
  obtain ⟨-, hopen, -, ⟨hside, hmethod, hrole⟩, _, hvalid, rfl, rfl⟩ := h
  exact .notified ⟨method, params⟩ hopen hside hmethod hrole hvalid

theorem acted_completeRequest {result : Value}
    (h : s.completeRequest id result = .ok (actions, s')) :
    s.Acted actions s' := by
  simp only [completeRequest, ok_iff, Prod.mk.injEq] at h
  obtain ⟨row, hrow, _, hvalid, rfl, rfl⟩ := h
  obtain rfl : row.1 = id := Table.key_of_find? hrow
  refine .answered row (.ok result) (Table.mem_of_find? hrow) fun _ result' heq => ?_
  obtain rfl := Except.ok.inj heq
  exact hvalid

theorem acted_failRequest {error : ErrorObject} (h : s.failRequest id error = .ok (actions, s')) :
    s.Acted actions s' := by
  simp only [failRequest, ok_iff, Prod.mk.injEq] at h
  obtain ⟨row, hrow, rfl, rfl⟩ := h
  obtain rfl : row.1 = id := Table.key_of_find? hrow
  refine .answered row (.error error) (Table.mem_of_find? hrow) fun _ _ heq => ?_
  cases heq

theorem acted_onTick (s : Session) (pingId : RequestId) :
    s.Acted (s.onTick pingId).1 (s.onTick pingId).2 := by
  unfold onTick
  split
  · exact s.acted_refused
  · next hstate =>
    have hopen : s.state = .initialized := not_not.mp (not_or.mp hstate).1
    split
    · exact .nothing [] false 0 (by simp) (by simp)
    · dsimp only
      split
      · exact .lapsed _ _ hopen
      · split
        · next hping =>
          simp only [sendRequest, ok_iff] at hping
          obtain ⟨-, -, _, hvalid, -, hnew, -, hroom, rfl⟩ := hping
          exact .asked ⟨pingId, "ping", []⟩ _ hopen hvalid hnew hroom
        · next error _ =>
          exact .nothing [.violation error] s.activitySinceTick _ (by simp [Action.isSilent])
            (by simp [Action.isClose])

theorem acted_ofResult {result : Except IpcError (List Action × Session)}
    (h : ∀ actions s', result = .ok (actions, s') → s.Acted actions s') :
    s.Acted (ofResult s result).1 (ofResult s result).2 := by
  cases result with
  | error _ => exact s.acted_refused
  | ok r => exact h r.1 r.2 rfl

theorem acted_perform (s : Session) {call : Call} (hcall : call.isLocal = true) :
    s.Acted (s.perform call).1 (s.perform call).2 := by
  cases call with
  | initializeSession id => exact acted_ofResult fun _ _ h => acted_initializeSession h
  | sendRequest id method params => exact acted_ofResult fun _ _ h => acted_sendRequest h
  | sendNotification method params => exact acted_ofResult fun _ _ h => acted_sendNotification h
  | completeRequest id result => exact acted_ofResult fun _ _ h => acted_completeRequest h
  | failRequest id error => exact acted_ofResult fun _ _ h => acted_failRequest h
  | tick pingId => exact s.acted_onTick pingId
  | receive message => cases hcall

end Session

end

/-! ### Samples -/

namespace Sample

def profile : InitializeParams where
  protocolVersions := [0]
  peer := ⟨"observer", "1"⟩
  roles := [.client]
  eventTypes := none
  methods := none
  heartbeatSeconds := none
  maxInFlight := some 8

/-- A runtime that supports some roles. -/
def settings (supportedRoles : List Role) : RuntimeConfig where
  runtime := ⟨"zeta", "1"⟩
  config := []
  supportedRoles
  heartbeatSeconds := .finite 30
  maxInFlight := 64

/-- The elements of an array, if each of them can be read. -/
def elements {α : Type} (read : Value → Option α) : Option Value → Option (List α)
  | some (.array values) => values.mapM read
  | _ => none

def natural : Value → Option ℕ
  | .number (.int n) => some n.toNat
  | _ => none

def roleNamed (name : Value) : Option Role :=
  [Role.source, .client, .provider].find? fun role => name = .string role.debug

def identityFields (peer : PeerIdentity) : Value :=
  .object [("name", .string peer.name), ("version", .string peer.version)]

def identityOf : Option Value → Option PeerIdentity
  | some (.object fields) => do
    let name ← Map.text fields "name"
    let version ← Map.text fields "version"
    return ⟨name, version⟩
  | _ => none

/-- A wire for profiles that declare no event types and no methods, and leave the heartbeat to the
runtime. -/
scoped instance wire : Wire where
  quote text := text
  paramsToMap params :=
    [("protocol_versions", .array (params.protocolVersions.map fun (n : ℕ) => .number (.int n))),
      ("peer", identityFields params.peer),
      ("roles", .array (params.roles.map (.string ·.debug)))]
      ++ (params.maxInFlight.map fun (n : ℕ) => ("max_in_flight", Value.number (.int n))).toList
  paramsFromMap fields :=
    let params : Option InitializeParams := do
      let versions ← elements natural (fields.get "protocol_versions")
      let peer ← identityOf (fields.get "peer")
      let roles ← elements roleNamed (fields.get "roles")
      return ⟨versions, peer, roles, none, none, none, (fields.get "max_in_flight").bind natural⟩
    params.elim (.error "not a profile") .ok
  resultToValue result := .object
    [("protocol_version", .number (.int result.protocolVersion)),
      ("runtime", identityFields result.runtime),
      ("roles", .array (result.roles.map (.string ·.debug))),
      ("config", .object result.config),
      ("max_in_flight", .number (.int result.maxInFlight))]
  resultFromValue value :=
    let result : Option InitializeResult := do
      let fields ← value.asObject
      let version ← (fields.get "protocol_version").bind natural
      let runtime ← identityOf (fields.get "runtime")
      let roles ← elements roleNamed (fields.get "roles")
      let config ← (fields.get "config").bind (·.asObject)
      let maxInFlight ← (fields.get "max_in_flight").bind natural
      return ⟨version, runtime, roles, config, .finite 30, maxInFlight⟩
    result.elim (.error "not an answer") .ok

example : Wire.paramsFromMap (Wire.paramsToMap profile) = .ok profile := by decide +kernel

scoped instance plainText : StringText where
  escape text := text.toList
  unescape _ := none

end Sample

end Zeta.Ipc
