import ZetaRuntime.Ipc.Calls

/-!
# After a session closes

A session closes in many places, and none of them clears the table of requests that are still to be
answered. Every call but two looks at the state first. Completing and failing a request look only at
the table, so a request that was pending when the session closed is answered on the closed
connection.
-/

namespace Zeta.Ipc

open Outcome

variable {r : List Action × Session} {s : Session}

/-- An action that sends a message or calls a handler. -/
def Action.isOutward : Action → Bool
  | .send _ | .handleRequest _ | .handleNotification _ => true
  | .requestResolved _ | .violation _ | .close _ => false

section

variable [Wire]

/-- A call that answers a pending request, with an error or with a result that its method allows. -/
def Call.answers (s : Session) : Call → Prop
  | .completeRequest id result =>
    ∃ pending, s.incoming.find? id = some pending ∧ validateResult pending.2 result = .ok ()
  | .failRequest id _ => s.incoming.find? id ≠ none
  | _ => False

namespace Session

/-! ### Closing -/

/-- A step that asks to close the connection leaves a closed session behind. -/
def Closes (r : List Action × Session) : Prop := r.1.any Action.isClose = true → r.2.state = .closed

omit [Wire] in
theorem closes_of_closed (h : r.2.state = .closed) : Closes r := fun _ => h

omit [Wire] in
theorem closes_of_open (h : r.1.any Action.isClose = false) : Closes r :=
  fun hclose => by rw [h] at hclose; cases hclose

theorem receiveInitialize_closes (s : Session) (request : Request) :
    Closes (s.receiveInitialize request) := by
  unfold receiveInitialize
  split
  · exact closes_of_closed rfl
  · split
    · exact closes_of_closed rfl
    · split
      · exact closes_of_closed rfl
      · split
        · exact closes_of_closed rfl
        · exact closes_of_open rfl

theorem receiveNotification_closes (s : Session) (notification : Notification) :
    Closes (s.receiveNotification notification) := by
  unfold receiveNotification
  split
  · exact closes_of_closed rfl
  · split
    · split <;> exact closes_of_open rfl
    · split <;> exact closes_of_open rfl

theorem receiveInitializeSuccess_closes (s : Session) (response : SuccessResponse)
    (method : String) :
    Closes (s.receiveInitializeSuccess response method) := by
  unfold receiveInitializeSuccess
  split
  · exact closes_of_closed rfl
  · split
    · exact closes_of_closed rfl
    · split
      · exact closes_of_closed rfl
      · split
        · exact closes_of_closed rfl
        · exact closes_of_open rfl

theorem receiveSuccess_closes (s : Session) (response : SuccessResponse) :
    Closes (s.receiveSuccess response) := by
  unfold receiveSuccess
  split
  · exact closes_of_open rfl
  · dsimp only
    split
    · exact receiveInitializeSuccess_closes _ response _
    · split <;> exact closes_of_open rfl

theorem receiveError_closes (s : Session) (response : ErrorResponse) :
    Closes (s.receiveError response) := by
  unfold receiveError
  split
  · exact closes_of_open rfl
  · split
    · exact closes_of_open rfl
    · dsimp only
      split
      · exact closes_of_closed rfl
      · exact closes_of_open rfl

variable [StringText]

theorem receiveRequest_closes (s : Session) (request : Request) :
    Closes (s.receiveRequest request) := by
  unfold receiveRequest
  split
  · split
    · exact s.receiveInitialize_closes request
    · exact closes_of_open rfl
  · split
    · exact closes_of_closed rfl
    · unfold receiveOpenRequest
      split
      · exact closes_of_open rfl
      · split
        · split <;> exact closes_of_open rfl
        · split
          · unfold receiveShutdown
            split
            · exact closes_of_open rfl
            · split
              · exact closes_of_open rfl
              · exact closes_of_closed rfl
          · unfold receiveApplicationRequest
            split
            · exact closes_of_open rfl
            · split <;> exact closes_of_open rfl

theorem receive_closes (s : Session) (message : Message) : Closes (s.receive message) := by
  unfold receive
  split
  · exact closes_of_open rfl
  · cases message with
    | request request => exact receiveRequest_closes _ request
    | notification notification => exact receiveNotification_closes _ notification
    | success response => exact receiveSuccess_closes _ response
    | error response => exact receiveError_closes _ response

omit [Wire] [StringText] in
theorem ofResult_closes {result : Except IpcError (List Action × Session)}
    (h : ∀ r, result = .ok r → r.1.any Action.isClose = false) : Closes (ofResult s result) := by
  cases result with
  | error _ => exact closes_of_open rfl
  | ok r => exact closes_of_open (h r rfl)

theorem sendRequest_isClose {id : RequestId} {method : String} {params : Map}
    (h : s.sendRequest id method params = .ok r) : r.1.any Action.isClose = false := by
  simp only [sendRequest, ok_iff] at h
  obtain ⟨-, -, -, -, -, -, -, -, rfl⟩ := h
  rfl

theorem onTick_closes (s : Session) (pingId : RequestId) : Closes (s.onTick pingId) := by
  unfold onTick
  split
  · exact closes_of_open rfl
  · split
    · exact closes_of_open rfl
    · dsimp only
      split
      · exact closes_of_closed rfl
      · split
        · next hping => exact closes_of_open (sendRequest_isClose hping)
        · exact closes_of_open rfl

/-- A call that asks to close the connection closes the session. -/
theorem perform_closes (s : Session) (call : Call) : Closes (s.perform call) := by
  cases call with
  | initializeSession id =>
    refine ofResult_closes fun r h => ?_
    simp only [initializeSession, ok_iff] at h
    obtain ⟨-, -, -, -, -, -, -, -, rfl⟩ := h
    rfl
  | sendRequest id method params => exact ofResult_closes fun r h => sendRequest_isClose h
  | sendNotification method params =>
    refine ofResult_closes fun r h => ?_
    simp only [sendNotification, ok_iff] at h
    obtain ⟨-, -, -, -, -, -, rfl⟩ := h
    rfl
  | completeRequest id result =>
    refine ofResult_closes fun r h => ?_
    simp only [completeRequest, ok_iff] at h
    obtain ⟨-, -, -, -, rfl⟩ := h
    rfl
  | failRequest id error =>
    refine ofResult_closes fun r h => ?_
    simp only [failRequest, ok_iff] at h
    obtain ⟨-, -, rfl⟩ := h
    rfl
  | tick pingId => exact s.onTick_closes pingId
  | receive message => exact s.receive_closes message

/-! ### A closed session -/

/-- What is left of a call when the session is closed: the answer to a pending request. -/
theorem perform_closed (hs : s.state = .closed) (call : Call) :
    (s.perform call).2.state = .closed ∧
      (call.answers s ∧ (∃ message, (s.perform call).1 = [.send message]) ∨
        ¬call.answers s ∧ (s.perform call).1 = []) := by
  cases call with
  | initializeSession id =>
    have hrefused : ofResult s (s.initializeSession id) = ([], s) := by
      simp only [initializeSession, hs, reduceCtorEq, and_false]
      rfl
    rw [perform, hrefused]
    exact ⟨hs, .inr ⟨fun h => h, rfl⟩⟩
  | sendRequest id method params =>
    have hrefused : ofResult s (s.sendRequest id method params) = ([], s) := by
      simp only [sendRequest, hs, reduceCtorEq]
      rfl
    rw [perform, hrefused]
    exact ⟨hs, .inr ⟨fun h => h, rfl⟩⟩
  | sendNotification method params =>
    have hrefused : ofResult s (s.sendNotification method params) = ([], s) := by
      simp only [sendNotification, hs, reduceCtorEq]
      rfl
    rw [perform, hrefused]
    exact ⟨hs, .inr ⟨fun h => h, rfl⟩⟩
  | completeRequest id result =>
    rw [perform, completeRequest]
    cases hpending : s.incoming.find? id with
    | none =>
      refine ⟨hs, .inr ⟨?_, rfl⟩⟩
      rintro ⟨pending, hfound, -⟩
      rw [hpending] at hfound
      cases hfound
    | some pending =>
      rw [show require (some pending) _ = .ok pending from rfl, ok_bind]
      cases hvalid : validateResult pending.2 result with
      | error error =>
        refine ⟨hs, .inr ⟨?_, rfl⟩⟩
        rintro ⟨found, hfound, hok⟩
        rw [hpending] at hfound
        cases hfound
        rw [hvalid] at hok
        cases hok
      | ok _ => exact ⟨hs, .inl ⟨⟨pending, hpending, hvalid⟩, _, rfl⟩⟩
  | failRequest id error =>
    rw [perform, failRequest]
    cases hpending : s.incoming.find? id with
    | none => exact ⟨hs, .inr ⟨not_not_intro hpending, rfl⟩⟩
    | some pending => exact ⟨hs, .inl ⟨by simp [Call.answers, hpending], _, rfl⟩⟩
  | tick pingId =>
    rw [perform, onTick, if_pos (.inl (by rw [hs]; decide))]
    exact ⟨hs, .inr ⟨fun h => h, rfl⟩⟩
  | receive message =>
    rw [perform, receive, if_pos hs]
    exact ⟨hs, .inr ⟨fun h => h, rfl⟩⟩

end Session

variable [StringText]

/-- Once an action closed the connection, the session is closed. -/
theorem closed_of_performAll (s : Session) (calls : List Call)
    (h : (s.performAll calls).actions.any Action.isClose = true) :
    (s.performAll calls).session.state = .closed := by
  unfold Session.performAll at h ⊢
  revert h
  refine List.foldlRecOn calls Log.perform
    (motive := fun l => l.actions.any Action.isClose = true → l.session.state = .closed)
    ?_ fun l hl call _ h => ?_
  · intro h
    simp at h
  · rw [Log.perform, List.any_append, Bool.or_eq_true] at h
    rcases h with hbefore | hcall
    · exact (Session.perform_closed (hl hbefore) call).1
    · exact l.session.perform_closes call hcall

/-- **A closed session is silent exactly if its pending requests are left alone.** On either side
and for any calls, after an action closed the connection no call sends a message or calls a handler,
if and only if after that no call answers a request that is still pending. -/
theorem silent_after_close_iff (endpoint : Endpoint) (calls : List Call) :
    (∀ before call after, calls = before ++ call :: after →
        (endpoint.session.performAll before).actions.any Action.isClose = true →
        ∀ action ∈ ((endpoint.session.performAll before).session.perform call).1,
          action.isOutward = false) ↔
      ∀ before call after, calls = before ++ call :: after →
        (endpoint.session.performAll before).actions.any Action.isClose = true →
        ¬call.answers (endpoint.session.performAll before).session := by
  refine forall_congr' fun before => forall_congr' fun call => forall_congr' fun after =>
    imp_congr_right fun _ => imp_congr_right fun hclose => ?_
  have hclosed := closed_of_performAll _ before hclose
  obtain ⟨-, ⟨hanswers, message, hsent⟩ | ⟨hquiet, hnone⟩⟩ := Session.perform_closed hclosed call
  · rw [hsent]
    exact iff_of_false (fun h => nomatch h _ (.head _)) (not_not_intro hanswers)
  · rw [hnone]
    exact iff_of_true (fun _ h => nomatch h) hquiet

end

namespace Sample

/-- A client is initialized, asks for a status and shuts the runtime down before it has the answer.
-/
def hastyShutdown : List Call :=
  [.receive (.request ⟨.unsigned 0, "initialize", Wire.paramsToMap profile⟩),
    .receive (.request ⟨.unsigned 1, "runtime.status", []⟩),
    .receive (.request ⟨.unsigned 2, "shutdown", []⟩)]

/-- After the runtime closed the connection, it answers the request that was pending. -/
theorem answered_after_close :
    let l := (Endpoint.runtime (settings [.client]) .remoteSupervisesLocal).session.performAll
      hastyShutdown
    l.actions.any Action.isClose = true ∧
      (l.session.perform (.completeRequest (.unsigned 1) (.object []))).1.any Action.isOutward =
        true :=
  ⟨by decide +kernel, by decide +kernel⟩

end Sample

end Zeta.Ipc
