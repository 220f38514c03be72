import ZetaRuntime.Ipc.Calls

/-!
# Checking a message without a session

Besides the session there is a check of a message alone. It knows neither roles nor directions, so
it can only be wider than the session: what a session sends, or hands to a handler, should pass it.

A session accepts a request in two ways: as one of the methods that the protocol fixes, with
parameters checked for that method, or as one that a provider declares, with parameters of the one
form that all such methods have (`Permitted`). A declared method never has a name of the protocol,
since the profile was checked when the session was initialized (`Session.Profiled`, which all calls
keep). So the two ways do not overlap, and a check of the message alone only has to know which
methods are fixed. Its list leaves out two of them.
-/

namespace Zeta.Ipc

open Outcome

variable {call : Call} {actions : List Action} {params : Map} {s s' : Session} {method : String}

section

variable [Wire] [StringText]

/-- The methods that the check of a message takes for fixed. -/
def fixedRequest (method : String) : Bool :=
  method ∈
    ["events.publish", "events.list", "runtime.status", "session.start", "session.send",
    "session.status", "session.list", "session.cancel", "ping", "shutdown"]

/-- The check of a message alone. -/
def validateMessage : Message → Except IpcError Unit
  | .request request =>
    if request.method = "initialize" then do
      let _ ← parseInitializeParams request.params
      return ()
    else if fixedRequest request.method then validateFixedRequest request.method request.params
    else validateDirectRequest request.params
  | .notification notification =>
    if notification.method = "event" then validateEventNotification notification.params else .ok ()
  | .success _ | .error _ => .ok ()

/-- A call makes the session send a request, or hand one to its handler. -/
def Session.AcceptsRequest (s : Session) (call : Call) (r : Request) : Prop :=
  .handleRequest r ∈ (s.perform call).1 ∨ .send (.request r) ∈ (s.perform call).1

/-- **The two ways in which a request is accepted.** -/
inductive Permitted (method : String) (params : Map) : Prop
  | fixed (known : method = "ping" ∨ method = "shutdown" ∨ isClientMethod method = true)
      (valid : validateFixedRequest method params = .ok ())
  | direct (free : methodIsReserved method = false) (valid : validateDirectRequest params = .ok ())

/-! ### Profiles -/

section

omit [StringText]

/-- A declared method has no name of the protocol. -/
theorem methodIsReserved_of_validateMethods {seen names : List String}
    (h : validateMethods seen names = .ok ()) : ∀ name ∈ names, methodIsReserved name = false := by
  induction names generalizing seen with
  | nil => nofun
  | cons name names ih =>
    simp only [validateMethods, ok_iff] at h
    obtain ⟨_, -, _, hfree, _, -, hrest⟩ := h
    exact List.forall_mem_cons.mpr ⟨hfree, ih hrest⟩

/-- While a session is initialized, or waits for the answer, it has a profile that was checked. -/
def Session.Profiled (s : Session) : Prop :=
  s.state = .initialized ∨ s.state = .peerAwaitingInitialization →
    ∃ params, s.peerParams = some params ∧ validateInitializeParams params = .ok ()

theorem Session.Profiled.declared_free (h : s.Profiled) (hopen : s.state = .initialized)
    (hdeclared : s.peerDeclaresMethod method = true) : methodIsReserved method = false := by
  obtain ⟨params, hparams, hvalid⟩ := h (.inl hopen)
  simp only [validateInitializeParams, bind_ok_iff] at hvalid
  obtain ⟨_, -, _, -, _, -, _, -, _, -, _, -, _, -, _, hmethods, -⟩ := hvalid
  rw [peerDeclaresMethod, hparams, Option.bind_some] at hdeclared
  cases hnames : params.methods with
  | none => simp [hnames] at hdeclared
  | some names =>
    rw [hnames] at hdeclared hmethods
    rw [validateDeclared] at hmethods
    split at hmethods
    · exact methodIsReserved_of_validateMethods hmethods method (of_decide_eq_true hdeclared)
    · cases hmethods

/-- What a message may do to the profile of a session: close it, leave the profile, or set one that
was checked. -/
inductive Session.Profiles (s s' : Session) : Prop
  | closed (state : s'.state = .closed)
  | same (params : s'.peerParams = s.peerParams)
      (state : s'.state = s.state ∨ s.state = .peerAwaitingInitialization)
  | set (params : InitializeParams) (profile : s'.peerParams = some params)
      (valid : validateInitializeParams params = .ok ())

theorem Session.Profiles.profiled (h : s.Profiles s') (hs : s.Profiled) : s'.Profiled := by
  intro hstate
  cases h with
  | closed hclosed =>
    rw [hclosed] at hstate
    rcases hstate with hstate | hstate
    · cases hstate
    · cases hstate
  | same hparams hsame =>
    rw [hparams]
    rcases hsame with hsame | hwaiting
    · exact hs (hsame ▸ hstate)
    · exact hs (.inr hwaiting)
  | set params hprofile hvalid => exact ⟨params, hprofile, hvalid⟩

end

/-! ### What a message does -/

namespace Session

/-- What a message makes a session do, as far as requests go: the profile stays or is checked, no
request is sent, and a request that is handed to the handler was checked. -/
structure Reacts (s : Session) (actions : List Action) (s' : Session) : Prop where
  profiles : s.Profiles s'
  handles : ∀ r, .handleRequest r ∈ actions →
    s.state = .initialized ∧ s.validateIncomingRequest r.method r.params = .ok ()
  asks : ∀ r, .send (.request r) ∉ actions

/-- Actions without requests. -/
theorem reacts_of_profiles (h : s.Profiles s')
    (hactions : ∀ action ∈ actions, ∀ r, action ≠ .handleRequest r ∧ action ≠ .send (.request r)) :
    s.Reacts actions s' where
  profiles := h
  handles r hr := absurd rfl (hactions _ hr r).1
  asks r hr := (hactions _ hr r).2 rfl

/-- The unanswered requests and the heartbeat do not matter for this. -/
theorem Reacts.of_touched (outgoing : Pending) (activity : Bool) (missed : ℕ)
    (h : Reacts { s with outgoing, activitySinceTick := activity, missedIntervals := missed }
      actions s') : s.Reacts actions s' where
  profiles := by
    cases h.profiles with
    | closed hclosed => exact .closed hclosed
    | same hparams hstate => exact .same hparams hstate
    | set params hprofile hvalid => exact .set params hprofile hvalid
  handles := h.handles
  asks := h.asks

variable {s : Session} {r : Request}

theorem reacts_reject (error : IpcError) (h : s.Profiles s') :
    s.Reacts (rejectRequest r error) s' :=
  reacts_of_profiles h (by simp [rejectRequest])

theorem receiveInitialize_reacts (s : Session) (r : Request) :
    s.Reacts (s.receiveInitialize r).1 (s.receiveInitialize r).2 := by
  rw [receiveInitialize]
  split
  · exact reacts_of_profiles (.closed rfl) (by simp [withClose, rejectRequest])
  · next params hparams =>
    split
    · exact reacts_of_profiles (.closed rfl) (by simp)
    · split
      · exact reacts_reject _ (.closed rfl)
      · split
        · exact reacts_of_profiles (.closed rfl) (by simp [withClose, rejectRequest])
        · simp only [parseInitializeParams, ok_iff] at hparams
          obtain ⟨profile, -, _, hvalid, rfl⟩ := hparams
          exact reacts_of_profiles (.set profile rfl hvalid) (by simp [acceptInitialize])

theorem receiveShutdown_reacts (s : Session) (r : Request) :
    s.Reacts (s.receiveShutdown r).1 (s.receiveShutdown r).2 := by
  rw [receiveShutdown]
  split
  · exact reacts_reject _ (.same rfl (.inl rfl))
  · split
    · exact reacts_reject _ (.same rfl (.inl rfl))
    · exact reacts_of_profiles (.closed rfl) (by simp)

theorem receiveApplicationRequest_reacts (hopen : s.state = .initialized) (r : Request) :
    s.Reacts (s.receiveApplicationRequest r).1 (s.receiveApplicationRequest r).2 := by
  rw [receiveApplicationRequest]
  split
  · exact reacts_reject _ (.same rfl (.inl rfl))
  · next hvalid =>
    split
    · exact reacts_reject _ (.same rfl (.inl rfl))
    · refine ⟨.same rfl (.inl rfl), fun other hother => ?_, fun other hother => ?_⟩
      · obtain rfl : other = r := by simpa using hother
        exact ⟨hopen, hvalid⟩
      · simp at hother

theorem receiveOpenRequest_reacts (hopen : s.state = .initialized) (r : Request) :
    s.Reacts (s.receiveOpenRequest r).1 (s.receiveOpenRequest r).2 := by
  rw [receiveOpenRequest]
  split
  · exact reacts_reject _ (.same rfl (.inl rfl))
  · split
    · split
      · exact reacts_reject _ (.same rfl (.inl rfl))
      · exact reacts_of_profiles (.same rfl (.inl rfl)) (by simp)
    · split
      · exact receiveShutdown_reacts s r
      · exact receiveApplicationRequest_reacts hopen r

theorem receiveRequest_reacts (s : Session) (r : Request) :
    s.Reacts (s.receiveRequest r).1 (s.receiveRequest r).2 := by
  rw [receiveRequest]
  split
  · split
    · exact receiveInitialize_reacts s r
    · exact reacts_of_profiles (.same rfl (.inl rfl)) (by simp [rejectRequestWithCode])
  · split
    · exact reacts_of_profiles (.closed rfl) (by simp [withClose, rejectRequestWithCode])
    · next hopen => exact receiveOpenRequest_reacts (not_not.mp hopen) r

theorem receiveNotification_reacts (s : Session) (n : Notification) :
    s.Reacts (s.receiveNotification n).1 (s.receiveNotification n).2 := by
  rw [receiveNotification]
  split
  · exact reacts_of_profiles (.closed rfl) (by simp)
  · split
    · split
      · exact reacts_of_profiles (.same rfl (.inl rfl)) (by simp)
      · exact reacts_of_profiles (.same rfl (.inl rfl)) (by simp)
    · split
      · exact reacts_of_profiles (.same rfl (.inl rfl)) (by simp)
      · exact reacts_of_profiles (.same rfl (.inl rfl)) (by simp)

theorem failInitialization_reacts (s : Session) (error : IpcError) :
    s.Reacts (s.failInitialization error).1 (s.failInitialization error).2 :=
  reacts_of_profiles (.closed rfl) (by simp [failInitialization])

theorem receiveInitializeSuccess_reacts (s : Session) (response : SuccessResponse)
    (method : String) :
    s.Reacts (s.receiveInitializeSuccess response method).1
      (s.receiveInitializeSuccess response method).2 := by
  rw [receiveInitializeSuccess]
  split
  · exact failInitialization_reacts s _
  · next hstate =>
    push Not at hstate
    split
    · exact failInitialization_reacts s _
    · split
      · exact failInitialization_reacts s _
      · split
        · exact failInitialization_reacts s _
        · exact reacts_of_profiles (.same rfl (.inr hstate.2)) (by simp)

theorem receiveSuccess_reacts (s : Session) (response : SuccessResponse) :
    s.Reacts (s.receiveSuccess response).1 (s.receiveSuccess response).2 := by
  rw [receiveSuccess]
  split
  · exact reacts_of_profiles (.same rfl (.inl rfl)) (by simp)
  · dsimp only
    split
    · exact .of_touched _ _ _ (receiveInitializeSuccess_reacts _ response _)
    · split
      · exact reacts_of_profiles (.same rfl (.inl rfl)) (by simp)
      · exact reacts_of_profiles (.same rfl (.inl rfl)) (by simp)

theorem receiveError_reacts (s : Session) (response : ErrorResponse) :
    s.Reacts (s.receiveError response).1 (s.receiveError response).2 := by
  rw [receiveError]
  split
  · exact reacts_of_profiles (.same rfl (.inl rfl)) (by simp)
  · split
    · exact reacts_of_profiles (.same rfl (.inl rfl)) (by simp)
    · dsimp only
      split
      · exact reacts_of_profiles (.closed rfl) (by simp [withClose])
      · exact reacts_of_profiles (.same rfl (.inl rfl)) (by simp)

theorem receive_reacts (s : Session) (message : Message) :
    s.Reacts (s.receive message).1 (s.receive message).2 := by
  rw [receive]
  split
  · exact reacts_of_profiles (.same rfl (.inl rfl)) (by simp)
  · cases message with
    | request request => exact .of_touched _ _ _ (receiveRequest_reacts _ request)
    | notification notification =>
      exact .of_touched _ _ _ (receiveNotification_reacts _ notification)
    | success response => exact .of_touched _ _ _ (receiveSuccess_reacts _ response)
    | error response => exact .of_touched _ _ _ (receiveError_reacts _ response)

/-! ### Runs -/

theorem Profiled.acted (hs : s.Profiled) (h : s.Acted actions s') : s'.Profiled := by
  cases h with
  | nothing => exact hs
  | lapsed =>
    rintro (hstate | hstate)
    · cases hstate
    · cases hstate
  | started id params hidle hparams hvalid => exact fun _ => ⟨params, hparams, hvalid⟩
  | asked => exact hs
  | notified => exact hs
  | answered => exact hs

/-- **Every call keeps it** that the profile of an initialized session was checked. -/
theorem Profiled.perform (hs : s.Profiled) (call : Call) : (s.perform call).2.Profiled := by
  cases call with
  | receive message => exact (receive_reacts s message).profiles.profiled hs
  | _ => exact hs.acted (acted_perform s rfl)

theorem Profiled.performAll (hs : s.Profiled) (calls : List Call) :
    (s.performAll calls).session.Profiled :=
  List.foldlRecOn calls Log.perform (motive := fun l => l.session.Profiled) hs fun _ hl call _ =>
    hl.perform call

omit [StringText] in
theorem profiled_endpoint (endpoint : Endpoint) : endpoint.session.Profiled := by
  cases endpoint with
  | peer params direction =>
    rintro (hstate | hstate)
    · cases hstate
    · cases hstate
  | runtime config direction =>
    rintro (hstate | hstate)
    · cases hstate
    · cases hstate

/-! ### Permissions -/

theorem permitted_of_validateFromPeer (h : s.validateFromPeer method params = .ok ()) :
    Permitted method params := by
  rw [validateFromPeer] at h
  split at h
  · next hmethod =>
    have hknown : isClientMethod method = true := by rw [hmethod]; decide
    refine .fixed (.inr (.inr hknown)) ?_
    split at h
    · exact (bind_ok_iff.mp h).elim fun _ hvalid => hvalid.1
    · split at h
      · exact h
      · cases h
  · split at h
    · next hknown =>
      split at h
      · exact .fixed (.inr (.inr hknown)) h
      · cases h
    · cases h

/-- What a session may send is permitted. -/
theorem permitted_outgoing (h : s.validateOutgoingRequest method params = .ok ()) :
    Permitted method params := by
  rw [validateOutgoingRequest] at h
  split at h
  · next hping => exact .fixed (.inl hping) h
  split at h
  · next hshutdown =>
    split at h
    · exact .fixed (.inr (.inl hshutdown)) h
    · cases h
  cases hside : s.side with
  | peer =>
    rw [hside] at h
    exact permitted_of_validateFromPeer h
  | runtime =>
    rw [hside] at h
    dsimp only at h
    rw [validateRuntimeOutgoing] at h
    split at h
    · cases h
    · next hfree =>
      have hfree : methodIsReserved method = false ∧ s.peerDeclaresMethod method = true := by
        simpa using hfree
      exact .direct hfree.1 h

/-- What an initialized session hands to its handler is permitted. -/
theorem Profiled.permitted_incoming (hs : s.Profiled) (hopen : s.state = .initialized)
    (h : s.validateIncomingRequest method params = .ok ()) : Permitted method params := by
  rw [validateIncomingRequest] at h
  cases hside : s.side with
  | runtime =>
    rw [hside] at h
    exact permitted_of_validateFromPeer h
  | peer =>
    rw [hside] at h
    dsimp only at h
    rw [validatePeerIncoming] at h
    split at h
    · cases h
    · next hdeclared =>
      have hdeclared : s.hasPeerRole .provider = true ∧ s.peerDeclaresMethod method = true := by
        simpa using hdeclared
      exact .direct (hs.declared_free hopen hdeclared.2) h

omit [Wire] [StringText] in
theorem ofResult_handles {result : Except IpcError (List Action × Session)}
    (h : ∀ actions s', result = .ok (actions, s') → .handleRequest r ∉ actions) :
    .handleRequest r ∉ (ofResult s result).1 := by
  cases result with
  | error error => exact List.not_mem_nil
  | ok outcome => exact h outcome.1 outcome.2 rfl

theorem sendRequest_handles {id : RequestId}
    (h : s.sendRequest id method params = .ok (actions, s')) : .handleRequest r ∉ actions := by
  simp only [sendRequest, ok_iff, Prod.mk.injEq] at h
  obtain ⟨_, -, _, -, _, -, _, -, rfl, -⟩ := h
  simp

/-- Only a message makes a session call its handler. -/
theorem perform_local_handles (hcall : call.isLocal = true) :
    .handleRequest r ∉ (s.perform call).1 := by
  cases call with
  | initializeSession id =>
    refine ofResult_handles fun actions s' h => ?_
    simp only [initializeSession, ok_iff, Prod.mk.injEq] at h
    obtain ⟨_, -, _, -, _, -, _, -, rfl, -⟩ := h
    simp
  | sendRequest id method params => exact ofResult_handles fun _ _ h => sendRequest_handles h
  | sendNotification method params =>
    refine ofResult_handles fun actions s' h => ?_
    simp only [sendNotification, ok_iff, Prod.mk.injEq] at h
    obtain ⟨_, -, _, -, _, -, rfl, -⟩ := h
    simp
  | completeRequest id result =>
    refine ofResult_handles fun actions s' h => ?_
    simp only [completeRequest, ok_iff, Prod.mk.injEq] at h
    obtain ⟨_, -, _, -, rfl, -⟩ := h
    simp
  | failRequest id error =>
    refine ofResult_handles fun actions s' h => ?_
    simp only [failRequest, ok_iff, Prod.mk.injEq] at h
    obtain ⟨_, -, rfl, -⟩ := h
    simp
  | tick pingId =>
    rw [perform, onTick]
    split
    · simp
    · split
      · simp
      · dsimp only
        split
        · simp
        · split
          · next outcome h =>
            obtain ⟨actions, s'⟩ := outcome
            exact sendRequest_handles h
          · simp
  | receive message => cases hcall

/-- What an initialized session accepts is permitted. -/
theorem Profiled.permitted (hs : s.Profiled) (hopen : s.state = .initialized)
    (h : s.AcceptsRequest call r) : Permitted r.method r.params := by
  rw [AcceptsRequest] at h
  by_cases hcall : call.isLocal = true
  · replace h := h.resolve_left (perform_local_handles hcall)
    have hacted := acted_perform s hcall
    generalize (s.perform call).1 = actions at h hacted
    generalize (s.perform call).2 = s' at hacted
    cases hacted with
    | nothing actions activity missed hsilent => cases hsilent _ h
    | lapsed => simp at h
    | started id params hidle => rw [hidle] at hopen; cases hopen
    | asked request missed hopen hvalid =>
      obtain rfl : r = request := by simpa using h
      exact permitted_outgoing hvalid
    | notified => simp at h
    | answered row outcome => cases outcome <;> simp [responseTo] at h
  · obtain ⟨message, rfl⟩ : ∃ message, call = .receive message := by
      cases call with
      | receive message => exact ⟨message, rfl⟩
      | _ => exact absurd rfl hcall
    have hreacts := receive_reacts s message
    rcases h with h | h
    · exact hs.permitted_incoming hopen (hreacts.handles r h).2
    · exact absurd h (hreacts.asks r)

end Session

/-! ### The check of a message -/

omit [Wire] [StringText] in
theorem checkEach_ok_iff {α : Type} {check : α → Except IpcError Unit} {as : List α} {u : Unit} :
    checkEach check as = .ok u ↔ ∀ a ∈ as, check a = .ok () := by
  induction as with
  | nil => exact iff_of_true rfl nofun
  | cons a as ih =>
    simp only [checkEach, bind_ok_iff, ih, List.forall_mem_cons]
    constructor
    · rintro ⟨_, ha, has⟩
      exact ⟨ha, has⟩
    · rintro ⟨ha, has⟩
      exact ⟨(), ha, has⟩

omit [StringText] in
/-- Parameters without keys are not those of a declared method. -/
theorem validateDirectRequest_of_validateEmpty (h : validateEmpty params = .ok ()) :
    validateDirectRequest params ≠ .ok () := by
  simp only [validateEmpty, validateKeys, ok_iff, checkEach_ok_iff, List.not_mem_nil] at h
  obtain ⟨_, hempty, -⟩ := h
  have hparams : params = [] := by
    cases params with
    | nil => rfl
    | cons entry params => exact (hempty entry.1 (.head _)).elim
  intro hvalid
  simp only [validateDirectRequest, validateKeys, ok_iff, checkEach_ok_iff, hparams] at hvalid
  obtain ⟨_, ⟨_, -, hinput⟩, -⟩ := hvalid
  cases hinput "input" (List.mem_singleton_self _)

omit [Wire] [StringText] in
/-- A method that the session takes for fixed is fixed for the check of a message as well, but for
two. -/
theorem fixedRequest_of_known
    (h : method = "ping" ∨ method = "shutdown" ∨ isClientMethod method = true) :
    method ≠ "initialize" ∧
      (fixedRequest method = true ↔ method ≠ "agents.list" ∧ method ≠ "project.reload") := by
  have hmem : method ∈
    ["ping", "shutdown", "events.list", "events.publish", "agents.list", "project.reload",
      "runtime.status", "session.start", "session.send", "session.status", "session.list",
      "session.cancel"] := by
    simpa [isClientMethod] using h
  have hall :
    ∀ method ∈ ["ping", "shutdown", "events.list", "events.publish", "agents.list",
    "project.reload",
      "runtime.status", "session.start", "session.send", "session.status", "session.list",
      "session.cancel"], method ≠ "initialize" ∧
        (fixedRequest method = true ↔ method ≠ "agents.list" ∧ method ≠ "project.reload") := by
    decide
  exact hall method hmem

omit [Wire] [StringText] in
/-- A declared method is not fixed. -/
theorem fixedRequest_of_free (h : methodIsReserved method = false) :
    method ≠ "initialize" ∧ fixedRequest method = false ∧ method ≠ "agents.list" ∧ method ≠
      "project.reload" := by
  have hfixed :
    ∀ method ∈ ["events.publish", "events.list", "runtime.status", "session.start", "session.send",
      "session.status", "session.list", "session.cancel", "ping", "shutdown"],
        methodIsReserved method = true := by
    decide
  refine ⟨?_, ?_, ?_, ?_⟩
  · rintro rfl
    cases h
  · rw [fixedRequest, decide_eq_false_iff_not]
    intro hmem
    rw [hfixed method hmem] at h
    cases h
  · rintro rfl
    cases h
  · rintro rfl
    cases h

/-- Which of the permitted requests pass the check of a message. -/
theorem Permitted.validateMessage_iff {r : Request} (h : Permitted r.method r.params) :
    validateMessage (.request r) = .ok () ↔
      r.method ≠ "agents.list" ∧ r.method ≠ "project.reload" := by
  rw [validateMessage]
  cases h with
  | fixed hknown hvalid =>
    obtain ⟨hopens, hfixed⟩ := fixedRequest_of_known hknown
    rw [if_neg hopens, ← hfixed]
    split
    · next hmethod => exact iff_of_true hvalid hmethod
    · next hmethod =>
      refine iff_of_false ?_ hmethod
      have hleft : r.method = "agents.list" ∨ r.method = "project.reload" := by
        rw [hfixed] at hmethod
        by_contra hnot
        exact hmethod (not_or.mp hnot)
      have hempty : validateEmpty r.params = .ok () := by
        rcases hleft with hmethod | hmethod
        · rw [hmethod] at hvalid
          exact hvalid
        · rw [hmethod] at hvalid
          exact hvalid
      exact validateDirectRequest_of_validateEmpty hempty
  | direct hfree hvalid =>
    obtain ⟨hopens, hfixed, hleft⟩ := fixedRequest_of_free hfree
    rw [if_neg hopens, hfixed, if_neg Bool.false_ne_true]
    exact iff_of_true hvalid hleft

/-- **What a session accepts passes the check of a message, but for two methods.** On either side
and after any calls, a request that an initialized session sends or hands to its handler passes the
check exactly if it does not ask for the agents and does not reload the project. -/
theorem validateMessage_accepted_iff (endpoint : Endpoint) (calls : List Call) (call : Call)
    (r : Request) (hopen : (endpoint.session.performAll calls).session.state = .initialized)
    (haccepts : (endpoint.session.performAll calls).session.AcceptsRequest call r) :
    validateMessage (.request r) = .ok () ↔
      r.method ≠ "agents.list" ∧ r.method ≠ "project.reload" :=
  (((Session.profiled_endpoint endpoint).performAll calls).permitted hopen
    haccepts).validateMessage_iff

end

namespace Sample

/-- The runtime is initialized by a client. -/
def opened :
    List Call := [.receive (.request ⟨.unsigned 0, "initialize", Wire.paramsToMap profile⟩)]

/-- A request for the status passes. -/
theorem status_passes : validateMessage (.request ⟨.unsigned 1, "runtime.status", []⟩) = .ok () :=
  (validateMessage_accepted_iff (.runtime (settings [.client]) .disabled) opened
    (.receive (.request ⟨.unsigned 1, "runtime.status", []⟩)) _ (by decide +kernel)
    (.inl (List.mem_singleton_self _))).mpr (by decide)

/-- A request for the agents is handed to the handler, but does not pass. -/
theorem agents_refused :
    let s := ((Endpoint.runtime (settings [.client]) .disabled).session.performAll opened).session
    s.state = .initialized ∧ s.AcceptsRequest (.receive (.request ⟨.unsigned 1, "agents.list", []⟩))
      ⟨.unsigned 1, "agents.list", []⟩ ∧
    validateMessage (.request ⟨.unsigned 1, "agents.list", []⟩) ≠ .ok () :=
  ⟨by decide +kernel, .inl (List.mem_singleton_self _), by decide +kernel⟩

end Sample

end Zeta.Ipc
