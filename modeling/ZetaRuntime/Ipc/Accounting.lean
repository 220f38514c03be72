import ZetaRuntime.Ipc.Session

/-!
# Response accounting

A session answers every request once. Most answers leave with the call that reads the request: the
rejections, the answers to `initialize`, `ping` and `shutdown`. The others are owed: the request
stands in the table of incoming requests until the local process completes or fails it.

`Exchange` says what one call does to this account. The rest follows from it by induction on the
calls, whatever the other process sends.
-/

namespace Zeta.Ipc

open Outcome

variable {actions : List Action} {read : List RequestId} {params : Map} {id : RequestId}
  {s s' : Session} {method : String}

/-- The request that an action answers. -/
def Action.response : Action → Option RequestId
  | .send (.success response) => some response.id
  | .send (.error response) => response.id
  | _ => none

/-- The requests that some actions answer. -/
def responses (actions : List Action) : List RequestId := actions.filterMap Action.response

@[simp] theorem responses_append (actions more : List Action) :
    responses (actions ++ more) = responses actions ++ responses more :=
  List.filterMap_append

/-- The request that a call reads. A closed session reads nothing. -/
def Session.reads (s : Session) : Call → List RequestId
  | .receive (.request request) => if s.state = .closed then [] else [request.id]
  | _ => []

/-- The session has not been initialized yet. -/
def State.isWaiting : State → Bool
  | .initialized | .closed => false
  | _ => true

namespace Session

/-- The limit that the two ends agreed on. There is none before initialization. -/
def negotiatedLimit (s : Session) : ℕ := (s.initializeResult.map (·.maxInFlight)).getD 0

/-- The pending requests are untouched. The state may close, wait further or, once, open. -/
def Quiet (s s' : Session) : Prop :=
  s'.incoming = s.incoming ∧
    ((s'.initializeResult = s.initializeResult ∧ s'.maxInFlight = s.maxInFlight ∧
        (s'.state = s.state ∨ s'.state = .closed ∨ s.state.isWaiting = true ∧
          s'.state.isWaiting = true)) ∨
      (s.state.isWaiting = true ∧ s'.state = .initialized ∧
        ∃ result, s'.initializeResult = some result ∧ s'.maxInFlight = result.maxInFlight))

/-- The state and the limit are untouched. -/
structure SameTerms (s s' : Session) : Prop where
  state : s'.state = s.state
  initializeResult : s'.initializeResult = s.initializeResult
  maxInFlight : s'.maxInFlight = s.maxInFlight

/-- What one call does to the account: it settles what it reads at once, or takes it on, or pays
what is owed. -/
inductive Exchange (s : Session) (read : List RequestId) (actions : List Action) (s' : Session) :
    Prop where
  | settled (hread : responses actions = read) (hquiet : s.Quiet s')
  | accepted (id : RequestId) (method : String) (hread : read = [id])
    (hsent : responses actions = [])
      (hnew : s.incoming.find? id = none) (hopen : s.state = .initialized)
      (hroom : s.incoming.rows.length < s.maxInFlight)
      (hincoming : s'.incoming = s.incoming.upsert (id, method)) (hterms : s.SameTerms s')
  | answered (id : RequestId) (hread : read = []) (hsent : responses actions = [id])
      (hpending : s.incoming.find? id ≠ none)
      (hincoming : s'.incoming = s.incoming.remove id) (hterms : s.SameTerms s')

theorem Quiet.refl (s : Session) : s.Quiet s := ⟨rfl, .inl ⟨rfl, rfl, .inl rfl⟩⟩

/-- A session that closes. -/
theorem quiet_closed (s : Session) : s.Quiet { s with state := .closed } :=
  ⟨rfl, .inl ⟨rfl, rfl, .inr (.inl rfl)⟩⟩

/-- A session that opens, whatever else it learns. -/
theorem quiet_opened {result : InitializeResult} (hwaiting : s.state.isWaiting = true)
    (hincoming : s'.incoming = s.incoming) (hstate : s'.state = .initialized)
    (hresult : s'.initializeResult = some result) (hlimit : s'.maxInFlight = result.maxInFlight) :
    s.Quiet s' :=
  ⟨hincoming, .inr ⟨hwaiting, hstate, result, hresult, hlimit⟩⟩

@[simp] theorem responses_rejectRequest (request : Request) (error : IpcError) :
    responses (rejectRequest request error) = [request.id] :=
  rfl

@[simp] theorem responses_rejectRequestWithCode (request : Request) (error : IpcError)
    (code : String) : responses (rejectRequestWithCode request error code) = [request.id] :=
  rfl

@[simp] theorem responses_withClose (actions : List Action) (reason : String) :
    responses (withClose actions reason) = responses actions := by
  simp [withClose, responses, Action.response]

section

variable [Wire]

theorem receiveInitialize_exchange (s : Session) (request : Request)
    (hs : s.state.isWaiting = true) :
    s.Exchange [request.id] (s.receiveInitialize request).1 (s.receiveInitialize request).2 := by
  unfold receiveInitialize
  split
  · exact .settled (by simp) s.quiet_closed
  · split
    · exact .settled rfl s.quiet_closed
    · split
      · exact .settled rfl s.quiet_closed
      · split
        · exact .settled (by simp) s.quiet_closed
        · exact .settled rfl (quiet_opened hs rfl rfl rfl rfl)

variable [StringText]

theorem receiveShutdown_exchange (s : Session) (request : Request) :
    s.Exchange [request.id] (s.receiveShutdown request).1 (s.receiveShutdown request).2 := by
  unfold receiveShutdown
  split
  · exact .settled rfl (.refl s)
  · split
    · exact .settled rfl (.refl s)
    · exact .settled rfl s.quiet_closed

theorem receiveApplicationRequest_exchange (s : Session) (request : Request)
    (hopen : s.state = .initialized) (hnew : s.incoming.find? request.id = none) :
    s.Exchange [request.id] (s.receiveApplicationRequest request).1
      (s.receiveApplicationRequest request).2 := by
  unfold receiveApplicationRequest
  split
  · exact .settled rfl (.refl s)
  · split
    · exact .settled rfl (.refl s)
    · next hlimit =>
      exact .accepted request.id request.method rfl rfl hnew hopen (by omega) rfl ⟨rfl, rfl, rfl⟩

theorem receiveRequest_exchange (s : Session) (request : Request) :
    s.Exchange [request.id] (s.receiveRequest request).1 (s.receiveRequest request).2 := by
  unfold receiveRequest
  split
  · split
    · next h => exact s.receiveInitialize_exchange request (by rw [h.2]; rfl)
    · exact .settled rfl (.refl s)
  · split
    · exact .settled (by simp) s.quiet_closed
    · next hopen =>
      have hopen : s.state = .initialized := not_not.mp hopen
      unfold receiveOpenRequest
      split
      · exact .settled rfl (.refl s)
      · next hnew =>
        split
        · split <;> exact .settled rfl (.refl s)
        · split
          · exact s.receiveShutdown_exchange request
          · exact s.receiveApplicationRequest_exchange request hopen (not_not.mp hnew)

omit [StringText] in
theorem receiveNotification_exchange (s : Session) (notification : Notification) :
    s.Exchange [] (s.receiveNotification notification).1
      (s.receiveNotification notification).2 := by
  unfold receiveNotification
  split
  · exact .settled rfl s.quiet_closed
  · split
    · split <;> exact .settled rfl (.refl s)
    · split <;> exact .settled rfl (.refl s)

omit [StringText] in
theorem receiveInitializeSuccess_exchange (s : Session) (response : SuccessResponse)
    (method : String) :
    s.Exchange [] (s.receiveInitializeSuccess response method).1
      (s.receiveInitializeSuccess response method).2 := by
  unfold receiveInitializeSuccess
  split
  · exact .settled rfl s.quiet_closed
  · next h =>
    have hwaiting : s.state.isWaiting = true := by
      rw [not_not.mp (not_or.mp h).2]
      rfl
    split
    · exact .settled rfl s.quiet_closed
    · split
      · exact .settled rfl s.quiet_closed
      · split
        · exact .settled rfl s.quiet_closed
        · exact .settled rfl (quiet_opened hwaiting rfl rfl rfl rfl)

omit [Wire] [StringText] in
/-- The account does not see the table of outgoing requests or the record of activity. -/
theorem Exchange.of_touched (outgoing : Pending) (activity : Bool) (missed : ℕ)
    (h : Exchange { s with outgoing, activitySinceTick := activity, missedIntervals := missed } read
      actions s') : s.Exchange read actions s' := by
  cases h with
  | settled hread hquiet => exact .settled hread hquiet
  | accepted id method hread hsent hnew hopen hroom hincoming hterms =>
    exact .accepted id method hread hsent hnew hopen hroom hincoming
      ⟨hterms.state, hterms.initializeResult, hterms.maxInFlight⟩
  | answered id hread hsent hpending hincoming hterms =>
    exact .answered id hread hsent hpending hincoming
      ⟨hterms.state, hterms.initializeResult, hterms.maxInFlight⟩

omit [StringText] in
theorem receiveSuccess_exchange (s : Session) (response : SuccessResponse) :
    s.Exchange [] (s.receiveSuccess response).1 (s.receiveSuccess response).2 := by
  unfold receiveSuccess
  split
  · exact .settled rfl (.refl s)
  · next method _ =>
    refine Exchange.of_touched (s.outgoing.remove response.id) s.activitySinceTick s.missedIntervals
      ?_
    dsimp only
    split
    · exact receiveInitializeSuccess_exchange _ response method
    · split <;> exact .settled rfl (.refl _)

omit [StringText] in
theorem receiveError_exchange (s : Session) (response : ErrorResponse) :
    s.Exchange [] (s.receiveError response).1 (s.receiveError response).2 := by
  unfold receiveError
  split
  · exact .settled rfl (.refl s)
  · next id _ =>
    split
    · exact .settled rfl (.refl s)
    · refine Exchange.of_touched (s.outgoing.remove id) s.activitySinceTick s.missedIntervals ?_
      dsimp only
      split
      · exact .settled rfl (quiet_closed _)
      · exact .settled rfl (.refl _)

/-- Whatever the other process sends is accounted for. -/
theorem receive_exchange (s : Session) (message : Message) :
    s.Exchange (s.reads (.receive message)) (s.receive message).1 (s.receive message).2 := by
  unfold receive
  split
  · next hclosed =>
    refine .settled ?_ (.refl s)
    cases message <;> simp [reads, hclosed, responses]
  · next hopen =>
    refine Exchange.of_touched s.outgoing true 0 ?_
    cases message with
    | request request =>
      rw [reads, if_neg hopen]
      exact receiveRequest_exchange _ request
    | notification notification => exact receiveNotification_exchange _ notification
    | success response => exact receiveSuccess_exchange _ response
    | error response => exact receiveError_exchange _ response

/-! ### The local process -/

omit [Wire] [StringText] in
/-- A refused operation settles nothing and reads nothing. -/
theorem ofResult_exchange {result : Except IpcError (List Action × Session)}
    (h : ∀ actions s', result = .ok (actions, s') → s.Exchange [] actions s') :
    s.Exchange [] (ofResult s result).1 (ofResult s result).2 := by
  cases result with
  | error _ => exact .settled rfl (.refl s)
  | ok r => exact h r.1 r.2 rfl

theorem sendRequest_exchange (h : s.sendRequest id method params = .ok (actions, s')) :
    s.Exchange [] actions s' := by
  simp only [sendRequest, ok_iff, Prod.mk.injEq] at h
  obtain ⟨-, -, -, -, -, -, -, -, rfl, rfl⟩ := h
  exact .settled rfl ⟨rfl, .inl ⟨rfl, rfl, .inl rfl⟩⟩

section

omit [StringText]

theorem initializeSession_exchange (h : s.initializeSession id = .ok (actions, s')) :
    s.Exchange [] actions s' := by
  simp only [initializeSession, ok_iff, Prod.mk.injEq] at h
  obtain ⟨-, ⟨-, hidle⟩, -, -, -, -, -, -, rfl, rfl⟩ := h
  exact .settled rfl ⟨rfl, .inl ⟨rfl, rfl, .inr (.inr ⟨by rw [hidle]; rfl, rfl⟩)⟩⟩

theorem sendNotification_exchange (h : s.sendNotification method params = .ok (actions, s')) :
    s.Exchange [] actions s' := by
  simp only [sendNotification, ok_iff, Prod.mk.injEq] at h
  obtain ⟨-, -, -, -, -, -, rfl, rfl⟩ := h
  exact .settled rfl (.refl s)

theorem completeRequest_exchange {result : Value}
    (h : s.completeRequest id result = .ok (actions, s')) : s.Exchange [] actions s' := by
  simp only [completeRequest, ok_iff, Prod.mk.injEq] at h
  obtain ⟨pending, hpending, -, -, rfl, rfl⟩ := h
  exact .answered id rfl rfl (by simp [hpending]) rfl ⟨rfl, rfl, rfl⟩

theorem failRequest_exchange {error : ErrorObject}
    (h : s.failRequest id error = .ok (actions, s')) :
    s.Exchange [] actions s' := by
  simp only [failRequest, ok_iff, Prod.mk.injEq] at h
  obtain ⟨pending, hpending, rfl, rfl⟩ := h
  exact .answered id rfl rfl (by simp [hpending]) rfl ⟨rfl, rfl, rfl⟩

end

theorem onTick_exchange (s : Session) (pingId : RequestId) :
    s.Exchange [] (s.onTick pingId).1 (s.onTick pingId).2 := by
  unfold onTick
  split
  · exact .settled rfl (.refl s)
  · split
    · exact .settled rfl ⟨rfl, .inl ⟨rfl, rfl, .inl rfl⟩⟩
    · dsimp only
      split
      · exact .settled rfl ⟨rfl, .inl ⟨rfl, rfl, .inr (.inl rfl)⟩⟩
      · split
        · next hping =>
          exact (sendRequest_exchange hping).of_touched s.outgoing s.activitySinceTick _
        · exact .settled rfl ⟨rfl, .inl ⟨rfl, rfl, .inl rfl⟩⟩

/-- **Every call is an exchange.** -/
theorem perform_exchange (s : Session) (call : Call) :
    s.Exchange (s.reads call) (s.perform call).1 (s.perform call).2 := by
  cases call with
  | initializeSession id => exact ofResult_exchange fun _ _ h => initializeSession_exchange h
  | sendRequest id method params => exact ofResult_exchange fun _ _ h => sendRequest_exchange h
  | sendNotification method params =>
    exact ofResult_exchange fun _ _ h => sendNotification_exchange h
  | completeRequest id result => exact ofResult_exchange fun _ _ h => completeRequest_exchange h
  | failRequest id error => exact ofResult_exchange fun _ _ h => failRequest_exchange h
  | tick pingId => exact s.onTick_exchange pingId
  | receive message => exact s.receive_exchange message

end

/-! ### The account -/

/-- What a session owes for an id. -/
def owed (s : Session) (id : RequestId) : ℕ := if s.incoming.find? id = none then 0 else 1

/-- The agreed limit is in force, and the requests that are owed are within it. -/
structure Bounded (s : Session) : Prop where
  waiting : s.state.isWaiting = true → s.initializeResult = none
  opened : s.state = .initialized → s.initializeResult ≠ none
  agreed : ∀ result, s.initializeResult = some result → s.maxInFlight = result.maxInFlight
  within : s.incoming.rows.length ≤ s.negotiatedLimit

/-- What is sent and owed after a call is what was owed and read. -/
theorem Exchange.balance (h : s.Exchange read actions s') (id : RequestId) :
    (responses actions).count id + s'.owed id = s.owed id + read.count id := by
  cases h with
  | settled hread hquiet =>
    rw [hread, owed, owed, hquiet.1, Nat.add_comm]
  | accepted new method hread hsent hnew hopen hroom hincoming hterms =>
    rw [hread, hsent, owed, owed, hincoming, Table.find?_upsert]
    by_cases hid : new = id
    · subst hid
      simp [hnew]
    · simp [hid]
  | answered old hread hsent hpending hincoming hterms =>
    rw [hread, hsent, owed, owed, hincoming, Pending.remove, Table.find?_deleteWhere]
    by_cases hid : old = id
    · subst hid
      obtain ⟨row, hrow⟩ := Option.ne_none_iff_exists'.mp hpending
      simp [hrow, Table.key_of_find? hrow]
    · cases hfind : s.incoming.find? id with
      | none => simp [hid]
      | some row =>
        have hkey : row.1 ≠ old := by
          rw [Table.key_of_find? hfind]
          exact Ne.symm hid
        simp [hid, hkey]

theorem Bounded.of_sameTerms (hs : s.Bounded) (h : s.SameTerms s')
    (hwithin : s'.incoming.rows.length ≤ s.negotiatedLimit) : s'.Bounded where
  waiting hw := h.initializeResult.trans (hs.waiting (h.state ▸ hw))
  opened ho := by
    rw [h.initializeResult]
    exact hs.opened (h.state ▸ ho)
  agreed result hr := h.maxInFlight.trans (hs.agreed result (h.initializeResult ▸ hr))
  within := by
    rw [negotiatedLimit, h.initializeResult]
    exact hwithin

theorem Exchange.bounded (h : s.Exchange read actions s') (hs : s.Bounded) : s'.Bounded := by
  cases h with
  | settled hread hquiet =>
    obtain ⟨hincoming,
      ⟨hresult, hlimit, hstate⟩ | ⟨hwaiting, hstate, result, hresult, hlimit⟩⟩ := hquiet
    · refine ⟨fun hw => ?_, fun ho => ?_, fun result hr => ?_, ?_⟩
      · rw [hresult]
        rcases hstate with hstate | hstate | ⟨hstate, -⟩
        · exact hs.waiting (hstate ▸ hw)
        · simp [hstate, State.isWaiting] at hw
        · exact hs.waiting hstate
      · rw [hresult]
        rcases hstate with hstate | hstate | ⟨-, hstate⟩
        · exact hs.opened (hstate ▸ ho)
        · simp [hstate] at ho
        · simp [ho, State.isWaiting] at hstate
      · rw [hlimit]
        exact hs.agreed result (hresult ▸ hr)
      · rw [hincoming, negotiatedLimit, hresult]
        exact hs.within
    · -- nothing is owed before initialization, so any limit will do
      have hnone : s.incoming.rows.length ≤ 0 := by
        have := hs.within
        rwa [negotiatedLimit, hs.waiting hwaiting] at this
      refine ⟨fun hw => ?_, fun _ => ?_, fun result' hr => ?_, ?_⟩
      · simp [hstate, State.isWaiting] at hw
      · simp [hresult]
      · rw [hresult] at hr
        obtain rfl := Option.some.inj hr
        exact hlimit
      · rw [hincoming]
        omega
  | accepted id method hread hsent hnew hopen hroom hincoming hterms =>
    refine hs.of_sameTerms hterms ?_
    obtain ⟨result, hresult⟩ := Option.ne_none_iff_exists'.mp (hs.opened hopen)
    rw [hs.agreed result hresult] at hroom
    rw [hincoming, Table.rows_upsert_of_none hnew, negotiatedLimit, hresult, List.length_append]
    exact hroom
  | answered id hread hsent hpending hincoming hterms =>
    refine hs.of_sameTerms hterms ?_
    rw [hincoming]
    exact (List.length_filter_le _ _).trans hs.within

end Session

/-! ### Runs -/

/-- How a session begins. -/
inductive Endpoint where
  | peer (params : InitializeParams) (shutdownDirection : ShutdownDirection)
  | runtime (config : RuntimeConfig) (shutdownDirection : ShutdownDirection)

def Endpoint.session : Endpoint → Session
  | .peer params shutdownDirection => .peer params shutdownDirection
  | .runtime config shutdownDirection => .runtime config shutdownDirection

/-- A session with the requests it read and the actions it asked for. -/
structure Log where
  session : Session
  requests : List RequestId
  actions : List Action

section

variable [Wire] [StringText]

def Log.perform (l : Log) (call : Call) : Log where
  session := (l.session.perform call).2
  requests := l.requests ++ l.session.reads call
  actions := l.actions ++ (l.session.perform call).1

/-- Carry out some calls from the beginning of a session. -/
def Session.performAll (s : Session) (calls : List Call) :
    Log := calls.foldl Log.perform ⟨s, [], []⟩

/-- The account of a log balances. -/
structure Log.Balanced (l : Log) : Prop where
  balance : ∀ id, (responses l.actions).count id + l.session.owed id = l.requests.count id
  bounded : l.session.Bounded

theorem Log.Balanced.perform {l : Log} (h : l.Balanced) (call : Call) :
    (l.perform call).Balanced := by
  have hexchange := l.session.perform_exchange call
  refine ⟨fun id => ?_, hexchange.bounded h.bounded⟩
  have hcall := hexchange.balance id
  have hlog := h.balance id
  simp only [Log.perform, responses_append, List.count_append]
  omega

theorem Session.Bounded.balanced_performAll (hs : s.Bounded) (hempty : s.incoming = .empty)
    (calls : List Call) : (s.performAll calls).Balanced := by
  refine List.foldlRecOn calls Log.perform ?_ fun l hl call _ => hl.perform call
  refine ⟨fun id => ?_, hs⟩
  simp [responses, owed, hempty]

omit [Wire] [StringText] in
theorem Endpoint.bounded_session (endpoint : Endpoint) : endpoint.session.Bounded := by
  cases endpoint <;> exact ⟨fun _ => rfl, (fun h => nomatch h), (fun _ h => nomatch h), le_refl 0⟩

/-- **Responses are accounted for.** On either side and for any calls, among them any messages of
the other process, the responses sent with an id and the one that is owed for it are the requests
read with it. The requests that are owed stay within the limit that was negotiated. -/
theorem responses_accounted (endpoint : Endpoint) (calls : List Call) :
    (∀ id, (responses (endpoint.session.performAll calls).actions).count id +
        (if (endpoint.session.performAll calls).session.incoming.find? id = none then 0 else 1) =
      (endpoint.session.performAll calls).requests.count id) ∧
    (endpoint.session.performAll calls).session.incoming.rows.length ≤
      (endpoint.session.performAll calls).session.negotiatedLimit := by
  have hempty : endpoint.session.incoming = .empty := by cases endpoint <;> rfl
  have hbalanced := endpoint.bounded_session.balanced_performAll hempty calls
  exact ⟨hbalanced.balance, hbalanced.bounded.within⟩

end

end Zeta.Ipc
