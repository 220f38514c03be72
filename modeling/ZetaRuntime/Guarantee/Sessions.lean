import ZetaRuntime.Work.Sessions
import ZetaRuntime.Guarantee.Attempts

/-!
# Sessions and their work

A session is shown as running while it has an attempt that is running. Attempts and items end by
different facts, so an attempt can be left running after the work of its session has ended. There
are two ways to get there: an attempt is started while an earlier one of its item was left running,
or an item that nobody owns is cancelled while an attempt of it was left running. In runs that do
neither, a running session has work that is open.
-/

namespace Zeta

open Outcome

variable {a : AttemptRow} {sessions : List Session} {p : Projections} {session : Session}
  {s : Store} {q : String}

/-! ### Activity -/

/-- Whether an attempt of an item is running. -/
def Store.attemptRunning (s : Store) (q : String) : Prop :=
  ∃ a ∈ s.projections.attempts, a.queueItemId = q ∧ a.status = .running

instance (s : Store) (q : String) : Decidable (s.attemptRunning q) :=
  inferInstanceAs
    (Decidable (∃ a ∈ s.projections.attempts.rows, a.queueItemId = q ∧ a.status = .running))

/-- An operation that leaves no attempt behind: it starts none beside a running one, and cancels no
item that nobody owns while an attempt of it is running. -/
def Op.Orderly (s : Store) : Op → Prop
  | .start owner _ _ _ _ _ =>
    loadRunningAttemptForClaim s.projections owner = .ok none → ¬s.attemptRunning owner.queueItemId
  | .cancelQueueItem q _ _ _ _ =>
    s.projections.queueClaims.find? q = none → ¬s.attemptRunning q
  | .cancelRun runId _ _ _ _ => ∀ row, itemForRun s runId = some row →
    s.projections.queueClaims.find? row.queueItemId = none → ¬s.attemptRunning row.queueItemId
  | _ => True

/-- What a session's activity says of its work: there is open work if it runs, and it neither runs
nor is queued if all its work has ended. -/
structure Session.Agrees (session : Session) (s : Store) : Prop where
  running : session.status = .running →
    ∃ row ∈ s.projections.queueItems, row.sessionId = some session.sessionId ∧
      row.status.terminal = false
  ended : (∀ row ∈ s.projections.queueItems, row.sessionId = some session.sessionId →
    row.status.terminal = true) → session.status = .waiting ∨ session.status = .idle

/-- The guard under which no attempt is left behind. -/
def Work.Guard.orderly : Work.Guard :=
  { Work.Guard.none with start := fun v q => ¬v.Running q, strand := False }

theorem work_running_iff : s.work.Running q ↔ s.attemptRunning q := by
  constructor
  · rintro ⟨id, a, ha, hitem, hrunning⟩
    obtain ⟨row, hrow, -, rfl⟩ := work_attempts_iff.mp ha
    exact ⟨row, hrow, hitem, hrunning⟩
  · rintro ⟨row, hrow, hitem, hrunning⟩
    exact ⟨row.attemptId, row.toAttempt, work_attempts_of_mem hrow, hitem, hrunning⟩

theorem work_claims_eq_none_iff :
    s.work.claims q = none ↔ s.projections.queueClaims.find? q = none :=
  Option.map_eq_none_iff

theorem Op.allowed_orderly {op : Op} (h : op.Orderly s) : op.Allowed .orderly s := by
  cases op with
  | start owner =>
    intro hnone v hv hrunning
    refine h hnone (work_running_iff.mp ?_)
    unfold Work.Running at hrunning ⊢
    rwa [hv] at hrunning
  | cancelQueueItem q =>
    exact fun hunowned hrunning =>
      h (work_claims_eq_none_iff.mp hunowned) (work_running_iff.mp hrunning)
  | cancelRun runId =>
    exact fun row hrow hunowned hrunning =>
      h row hrow (work_claims_eq_none_iff.mp hunowned) (work_running_iff.mp hrunning)
  | _ => simp [Op.Allowed, Work.Guard.orderly, Work.Guard.none]

/-- The catalog shows the activity of what the tables say. -/
theorem listSessions_ok [Platform] (h : listSessions s = .ok sessions)
    (hsession : session ∈ sessions) :
    ∃ queueItems attempts waits, loadQueueItems s.projections = .ok queueItems ∧
      loadAttempts s.projections = .ok attempts ∧ loadWaits s = .ok waits ∧
      session.status = (SessionSources.restrict ⟨queueItems, attempts, waits⟩
        session.sessionId).activity := by
  simp only [listSessions, projectSessions, ok_iff] at h
  obtain ⟨queueItems, hitems, attempts, hattempts, waits, hwaits, all, hall, rfl⟩ := h
  obtain ⟨shown, hshown, rfl⟩ := List.mem_map.mp hsession
  rw [List.mem_insertionSort] at hshown
  obtain ⟨sessionId, -, hsource⟩ := exists_of_mem_mapM hall hshown
  simp only [sessionFromSources, ok_iff] at hsource
  obtain ⟨_, -, rfl⟩ := hsource
  exact ⟨queueItems, attempts, waits, hitems, hattempts, hwaits, rfl⟩

theorem mem_of_loadAttempts {attempts : List AttemptRow} (h : loadAttempts p = .ok attempts)
    (ha : a ∈ attempts) : a ∈ p.attempts := by
  obtain ⟨row, hrow, hmodel⟩ := exists_of_mem_mapM h ha
  simp only [AttemptRow.intoModel, ok_iff] at hmodel
  obtain ⟨_, -, _, -, _, -, _, -, _, -, rfl⟩ := hmodel
  rw [List.mem_insertionSort, List.mem_filter] at hrow
  exact hrow.1

theorem exists_of_loadQueueItems {items : List QueueItem} (h : loadQueueItems p = .ok items)
    {item : QueueItem} (hitem : item ∈ items) :
    ∃ row ∈ p.queueItems, item = row.withClaim (p.queueClaims.find? row.queueItemId) := by
  obtain ⟨row, hrow, hmodel⟩ := exists_of_mem_mapM h hitem
  simp only [QueueItem.intoModel, ok_iff] at hmodel
  obtain ⟨_, -, _, -, _, -, _, -, _, -, rfl⟩ := hmodel
  rw [List.mem_insertionSort] at hrow
  exact ⟨row, hrow, rfl⟩

/-- The item of a running attempt is open, and of the same session. -/
theorem open_of_attemptRunning (hinv : s.work.Inv) (hactive : s.work.Active)
    (ha : a ∈ s.projections.attempts) (hrunning : a.status = .running) :
    ∃ row ∈ s.projections.queueItems, row.sessionId = a.sessionId ∧ row.status.terminal =
      false := by
  have hattempt := work_attempts_of_mem ha
  obtain ⟨-, -, it, hit, -, hsession, -⟩ := hinv.attempt _ _ hattempt
  obtain ⟨row, hrow, rfl⟩ := find?_of_work_items hit
  exact ⟨row, Table.mem_of_find? hrow, hsession.symm, hactive.running _ _ _ hattempt hrunning hit⟩

/-- If no attempt was left behind, the catalog agrees with the work. -/
theorem agrees_of_active [Platform] (hinv : s.work.Inv) (hactive : s.work.Active)
    (h : listSessions s = .ok sessions) (hsession : session ∈ sessions) : session.Agrees s := by
  obtain ⟨queueItems, attempts, waits, hitems, hattempts, -, hstatus⟩ := listSessions_ok h hsession
  have hrunning :
    (SessionSources.restrict ⟨queueItems, attempts, waits⟩ session.sessionId).running ≠ []
      → ∃ row ∈ s.projections.queueItems, row.sessionId = some session.sessionId ∧
        row.status.terminal = false := by
    intro hrunning
    obtain ⟨a, ha⟩ := List.exists_mem_of_ne_nil _ hrunning
    simp only [SessionSources.running, SessionSources.restrict, List.mem_filter,
      decide_eq_true_eq] at ha
    obtain ⟨row, hrow, hsame, hopen⟩ :=
      open_of_attemptRunning hinv hactive (mem_of_loadAttempts hattempts ha.1.1) ha.2
    exact ⟨row, hrow, hsame.trans ha.1.2, hopen⟩
  refine ⟨fun hrun => hrunning fun hnil => ?_, fun hended => ?_⟩
  · rw [hstatus, SessionSources.activity, if_neg (not_not.mpr hnil)] at hrun
    split at hrun
    · cases hrun
    · split at hrun <;> cases hrun
  · have hnil : (SessionSources.restrict ⟨queueItems, attempts, waits⟩ session.sessionId).running
        = [] := by
      by_contra hne
      obtain ⟨row, hrow, hsame, hopen⟩ := hrunning hne
      rw [hended row hrow hsame] at hopen
      cases hopen
    have hqueued : (SessionSources.restrict ⟨queueItems, attempts, waits⟩ session.sessionId).queued
        = [] := by
      -- An item is shown with the status of its row unless it is owned, and then it is open.
      by_contra hne
      obtain ⟨item, hitem⟩ := List.exists_mem_of_ne_nil _ hne
      simp only [SessionSources.queued, SessionSources.restrict, List.mem_filter, decide_eq_true_eq,
        Bool.and_eq_true, Bool.not_eq_true', queueStatusIsSessionTerminal] at hitem
      obtain ⟨⟨hmem, hsame⟩, hopen, -⟩ := hitem
      obtain ⟨row, hrow, rfl⟩ := exists_of_loadQueueItems hitems hmem
      cases hclaim : s.projections.queueClaims.find? row.queueItemId with
      | none =>
        rw [hclaim] at hsame hopen
        have hterminal := hended row hrow hsame
        simp [QueueItemRow.withClaim, QueueItemStatus.ended, hterminal] at hopen
      | some claim =>
        rw [hclaim] at hsame
        have hterminal := hended row hrow hsame
        have howned : s.work.claims row.queueItemId ≠ none := by
          rw [Ne, work_claims_eq_none_iff, hclaim]
          simp
        have hopen := (hinv.open_of_owned (work_items_of_find? (Table.find?_of_mem hrow)) howned).1
        rw [show row.toItem.status = row.status from rfl, hterminal] at hopen
        cases hopen
    rw [hstatus, SessionSources.activity, if_neg (not_not.mpr hnil), if_neg (not_not.mpr hqueued)]
    split
    · exact .inl rfl
    · exact .inr rfl

/-- In every run without forged facts that leaves no attempt behind, the activity of every session
in the catalog agrees with its work. -/
theorem listSessions_agrees [Platform] [LawfulFloatText] {ops : List Op}
    (hops : Meets (fun s op => op.Authentic ∧ op.Orderly s) .empty ops) {sessions : List Session}
    (h : listSessions (applyAll .empty ops) = .ok sessions) {session : Session}
    (hsession : session ∈ sessions) : session.Agrees (applyAll .empty ops) := by
  have hunder : Meets (Op.Under .orderly) .empty ops :=
    hops.mono fun s op hop => ⟨hop.1, Op.allowed_orderly hop.2⟩
  obtain ⟨hready, hsteps⟩ := hunder.steps ready_empty
  exact agrees_of_active hready.inv (hsteps.active (fun _ _ => id) id) h hsession

namespace Sample

/-- A worker is lost, and its item completes in the second attempt. -/
def lost : List Op := abandoned ++ [
  .complete (claim "qi_e" "u") 2000 [identity "g4", identity "g5"] (succeeding [])]

/-- What the catalog says of the activity of sessions. -/
def activities (s : Store) : Option (List SessionActivityStatus) :=
  (@listSessions platform s).toOption.map (·.map (·.status))

end Sample

open Sample in
/-- After a run with one attempt, the catalog agrees with the work. -/
theorem running_agrees :
    ∃ sessions, @listSessions platform (run running) = .ok sessions ∧
      ∀ session ∈ sessions, session.Agrees (run running) := by
  obtain ⟨sessions, h⟩ := exists_ok (x := @listSessions platform (run running)) (by decide +kernel)
  have hstart : ¬(run (running.take 3)).attemptRunning "qi_e" := by decide +kernel
  refine ⟨sessions, h, fun session hsession =>
    @listSessions_agrees platform platform_lawful running ?_ sessions h session hsession⟩
  exact ⟨⟨trivial, trivial⟩, ⟨trivial, trivial⟩, ⟨trivial, trivial⟩, ⟨trivial, fun _ => hstart⟩,
    trivial⟩

open Sample in
/-- A session all of whose work has ended, and that nobody owns work of, is shown as running. -/
theorem lost_running : activities (run lost) = some [.running] ∧
    (∀ row ∈ (run lost).projections.queueItems.rows, row.status.terminal = true) ∧
    (run lost).projections.queueClaims.rows = [] := by
  decide +kernel

/-! ### Order -/

/-- The type of the messages users send to sessions. -/
def messageType : String := "session.message.requested"

/-- Every message of a user has had its item offered. -/
def Messaged (s : Store) : Prop :=
  ∀ entry ∈ s.journal, entry.event.eventType = messageType → entry.event.source = "user" →
    ∃ agentId, entry.event.payload.text "agent_id" = some agentId ∧ s.offers entry.event.id agentId

theorem messaged_empty : Messaged .empty := by
  simp [Messaged, Store.empty]

theorem Store.offers.mono {s' : Store} {eventId agentId : String} (h : s.offers eventId agentId)
    (hjournal : ∀ entry ∈ s.journal, entry ∈ s'.journal) : s'.offers eventId agentId := by
  obtain ⟨entry, hentry, hkey⟩ := h
  exact ⟨entry, hjournal entry hentry, hkey⟩

section

variable [Platform] {s s' t : Store}

/-- Recording an event that is no message of a user. -/
theorem Recorded.messaged {event : Event} (h : Recorded s event s')
    (hevent : event.eventType = messageType → event.source ≠ "user") (hs : Messaged s) :
    Messaged s' := by
  obtain ⟨entry, -, hjournal, hback, hentry, -⟩ := h.entry
  intro stored hstored htype hsource
  rw [hjournal, List.mem_append, List.mem_singleton] at hstored
  rcases hstored with hstored | rfl
  · obtain ⟨agentId, htext, hoffers⟩ := hs stored hstored htype hsource
    exact ⟨agentId, htext, hoffers.mono fun _ h => by simp [hjournal, h]⟩
  · rw [hback.eventType_eq, hentry] at htype
    rw [hback.source_eq, hentry] at hsource
    exact absurd hsource (hevent htype)

theorem Changes.messaged {P : Event → Prop}
    (hP : ∀ event, P event → event.eventType = messageType → event.source ≠ "user")
    (h : Changes P s s') (hs : Messaged s) : Messaged s' := by
  refine h.induct (I := Messaged) (fun _ _ event hevent ht hrecorded => ?_)
    (fun t t' ht hcoord => ?_) hs
  · exact hrecorded.messaged (hP event hevent) ht
  · unfold Messaged Store.offers at ht ⊢
    rwa [hcoord.journal]

/-- After a runtime append there is an entry with the key of the event. -/
theorem exists_key_of_append {event : Event} {key : String} (hkey : event.idempotencyKey = some key)
    {outcome : AppendOutcome} (h : appendRuntimeEvent s event = .ok (outcome, s')) :
    (∀ entry ∈ s.journal, entry ∈ s'.journal) ∧
      ∃ entry ∈ s'.journal, entry.event.idempotencyKey = some key := by
  rcases appendCandidate_ok h with ⟨-, rfl, ⟨entry, hentry, hevent, -⟩, hsame⟩ | ⟨-, hrecorded⟩
  · refine ⟨fun _ h => h, entry, hentry, ?_⟩
    simp only [sameLifecycleIntention, Bool.and_eq_true, decide_eq_true_eq] at hsame
    rw [← hevent, ← hkey, hsame.1.1.1.1.2]
  · obtain ⟨entry, -, hjournal, hback, hentry, -⟩ := hrecorded.entry
    refine ⟨fun _ h => by simp [hjournal, h], entry.stored, by simp [hjournal], ?_⟩
    rw [hback.idempotencyKey_eq, hentry, hkey]

/-- A message is followed by its offer. -/
theorem messaged_submitSessionMessage (hs : Messaged s) {request : SessionMessageRequest}
    {waitIdentity requestedIdentity availableIdentity : RuntimeEventIdentity}
    {submitted : SubmittedSessionMessage}
    (h : submitSessionMessage s request waitIdentity requestedIdentity availableIdentity
      = .ok (submitted, s')) : Messaged s' := by
  have hinternal : ∀ event, Internal event → event.eventType = messageType →
      event.source ≠ "user" :=
    fun _ hevent _ => hevent.source
  simp only [submitSessionMessage, ok_iff, pair_iff] at h
  obtain ⟨_, -, _, -, _, -, retained, -, requested, cancelled, t, hrecord, available, u, happend, -,
    rfl⟩ := h
  cases retained with
  | some retained =>
    cases hrecord
    exact (changes_of_appendCandidate (internal_queueLifecycleEvent (by simp)) happend).messaged
      hinternal hs
  | none =>
    simp only [recordSessionMessage, ok_iff, pair_iff] at hrecord
    obtain ⟨wait, -, _, v, hcancel, _, x, hmessage, ⟨rfl, -⟩, rfl⟩ := hrecord
    have hv : Messaged v :=
      ((recordings_cancelSessionWait hcancel).changes fun _ h => h.routine.toInternal).messaged
        hinternal hs
    obtain ⟨rfl, hrecorded⟩ := appendSessionMessage_ok hmessage
    obtain ⟨hsub, hoffers⟩ := exists_key_of_append (key_sessionMessageAvailableEvent ..) happend
    obtain ⟨entry, -, hjournal, hback, hentry, -⟩ := hrecorded.entry
    -- The messages before the last fact have their offers after it.
    have hx : ∀ stored ∈ x.journal, stored.event.eventType = messageType →
        stored.event.source = "user" →
          ∃ agentId, stored.event.payload.text "agent_id" = some agentId ∧
          u.offers stored.event.id agentId := by
      intro stored hstored htype hsource
      rw [hjournal, List.mem_append, List.mem_singleton] at hstored
      rcases hstored with hstored | rfl
      · obtain ⟨agentId, htext, hold⟩ := hv stored hstored htype hsource
        exact ⟨agentId, htext, hold.mono fun _ h => hsub _ (by simp [hjournal, h])⟩
      · refine ⟨request.agentId, ?_, ?_⟩
        · rw [hback.text_eq, hentry]
          rfl
        · rw [hback.id_eq, hentry]
          exact hoffers
    rcases appendCandidate_ok happend with ⟨-, rfl, -⟩ | ⟨-, hoffered⟩
    · exact hx
    · obtain ⟨offer, -, hjournal', hback', hoffer, -⟩ := hoffered.entry
      intro stored hstored htype hsource
      rw [hjournal', List.mem_append, List.mem_singleton] at hstored
      rcases hstored with hstored | rfl
      · exact hx stored hstored htype hsource
      · rw [hback'.source_eq, hoffer] at hsource
        exact absurd hsource (show ("zeta" : String) ≠ "user" by decide)

/-- An operation that stores no message but through `submitSessionMessage`. -/
def Op.KeepsMessages : Op → Prop
  | .appendTrusted event => event.eventType ≠ messageType
  | .ingest event => event.eventType ≠ messageType
  | _ => True

/-- Operations keep the offers of messages. -/
theorem Messaged.apply (hs : Messaged s) (hreserved : s.projections.Unreserved) {op : Op}
    (hop : op.Authentic) (hkeeps : op.KeepsMessages) : Messaged (apply s op) := by
  refine apply_induction hs (fun _ _ => hs) fun hrebuild => ?_
  have hchanges := Op.changes hreserved hop hrebuild
  cases op with
  | submitMessage request waitIdentity requestedIdentity availableIdentity =>
    rcases commit_cases s (submitSessionMessage s request waitIdentity requestedIdentity
      availableIdentity) with heq | ⟨submitted, hok⟩
    · rwa [Zeta.apply, heq]
    · exact messaged_submitSessionMessage hs hok
  | appendTrusted event =>
    exact hchanges.messaged (fun e he htype => absurd (he ▸ htype) hkeeps) hs
  | ingest event => exact hchanges.messaged (fun e he htype => absurd (he.1 ▸ htype) hkeeps) hs
  | _ => exact hchanges.messaged (fun e he _ => he.source) hs

/-- The guard under which no message is bound to an event that was there before. -/
def Work.Guard.bound : Work.Guard := { Work.Guard.none with rebind := False }

omit [Platform] in
/-- A message that is retained has had its item offered. -/
theorem Op.allowed_bound (hs : Messaged s) (op : Op) : op.Allowed .bound s := by
  cases op with
  | submitMessage request waitIdentity requestedIdentity availableIdentity =>
    intro retained hretained hoffers
    obtain ⟨⟨entry, hentry, rfl, -⟩, hsame⟩ := retainedSessionMessage_some hretained
    simp only [sameLifecycleIntention, Bool.and_eq_true, decide_eq_true_eq] at hsame
    obtain ⟨agentId, htext, hold⟩ := hs entry hentry hsame.1.1.1.1.1.1.1.symm
      hsame.1.1.1.1.1.1.2.symm
    rw [← Map.text_eq_of_same hsame.1.1.1.1.1.2] at htext
    obtain rfl : request.agentId = agentId := Option.some.inj htext
    exact hoffers hold
  | _ => simp [Op.Allowed, Work.Guard.bound, Work.Guard.none]

/-- Claims on items of one session are on items with one cursor, and what came before them in the
session has ended. -/
structure Store.Serialised (s : Store) : Prop where
  exclusive : ∀ c ∈ s.projections.queueClaims, ∀ d ∈ s.projections.queueClaims,
    ∀ a ∈ s.projections.queueItems, ∀ b ∈ s.projections.queueItems, ∀ session,
      a.queueItemId = c.queueItemId → b.queueItemId = d.queueItemId → a.sessionId = some session →
      b.sessionId = some session → a.inputCursor = b.inputCursor
  ordered : ∀ c ∈ s.projections.queueClaims, ∀ a ∈ s.projections.queueItems,
    ∀ b ∈ s.projections.queueItems, ∀ session, a.queueItemId = c.queueItemId →
      a.sessionId = some session → b.sessionId = some session → b.inputCursor < a.inputCursor →
      b.status.terminal = true

omit [Platform] in
/-- Work that is done in order is serialised. -/
theorem serialised_of_serial (hinv : s.work.Inv) (hserial : s.work.Serial) : s.Serialised := by
  have howned : ∀ c ∈ s.projections.queueClaims, ∀ a ∈ s.projections.queueItems,
      a.queueItemId = c.queueItemId → s.work.claims a.queueItemId ≠ none := by
    intro c hc a _ hkey
    rw [Ne, work_claims_eq_none_iff, hkey, Table.find?_of_mem hc]
    simp
  have hitem : ∀ a ∈ s.projections.queueItems, s.work.items a.queueItemId = some a.toItem :=
    fun a ha => work_items_of_find? (Table.find?_of_mem ha)
  refine ⟨fun c hc d hd a ha b hb session hac hbd hsession hsession' => ?_,
    fun c hc a ha b hb session hac hsession hsession' hlt => ?_⟩
  · exact hserial.cursor_eq hinv (howned c hc a ha hac) (howned d hd b hb hbd) (hitem a ha)
      (hitem b hb)
      hsession hsession'
  · exact hserial.serial _ _ _ _ session (howned c hc a ha hac) (hitem a ha) hsession (hitem b hb)
      hsession' hlt

/-- A run in which no message comes from elsewhere binds none to an event that was there before. -/
theorem steps_bound [LawfulFloatText] (hs : Ready s) (hmessaged : Messaged s) {ops : List Op}
    (hops : ∀ op ∈ ops, op.Authentic ∧ op.KeepsMessages) :
    Ready (applyAll s ops) ∧ Messaged (applyAll s ops) ∧
      Work.Steps .bound s.work (applyAll s ops).work := by
  have hmeets : Meets (fun _ op => op.Authentic ∧ op.KeepsMessages) s ops :=
    meets_of_forall fun op hop _ => hops op hop
  refine hmeets.invariant (I := fun t => Ready t ∧ Messaged t ∧ Work.Steps .bound s.work t.work) ?_
    ⟨hs, hmessaged, .refl⟩
  rintro t op ⟨hready, hmessaged, hsteps⟩ ⟨hop, hkeeps⟩
  exact ⟨hready.apply hop, hmessaged.apply hready.history.unreserved hop hkeeps,
    hsteps.trans (Op.steps hready hop (Op.allowed_bound hmessaged op))⟩

/-- In every run without forged facts and without messages from elsewhere, work is serialised. -/
theorem serialised_of_keepsMessages [LawfulFloatText] {ops : List Op}
    (hops : ∀ op ∈ ops, op.Authentic ∧ op.KeepsMessages) : (applyAll .empty ops).Serialised := by
  obtain ⟨hready, -, hsteps⟩ := steps_bound ready_empty messaged_empty hops
  exact serialised_of_serial hready.inv (hsteps.serial id)

end

namespace Sample

/-- Two agents take one event in sessions of the same name: that of the event, and that of the agent
named after it. Both items are claimed. -/
def siblings : List Op := [
  .ingest (event "E" "task" []),
  .route "E" [⟨"a", [⟨"task", .exact⟩], .perEvent, [], none⟩, route "a/E" "task"]
    [identity "f1", identity "f2", identity "f3"],
  .claim "worker" "t" 1000 0,
  .claim "worker" "u" 1000 0]

end Sample

open Sample in
/-- A run with one claim is serialised. -/
theorem running_serialised :
    (∀ op ∈ running, op.Authentic ∧ op.KeepsMessages) ∧ (run running).Serialised := by
  have hops : ∀ op ∈ running, op.Authentic ∧ op.KeepsMessages := by
    simp [running, Op.Authentic, Op.KeepsMessages, event, messageType]
  exact ⟨hops, @serialised_of_keepsMessages platform platform_lawful running hops⟩

open Sample in
/-- Two items of one session are claimed at the same time. -/
theorem siblings_claimed :
    (∀ op ∈ siblings, op.Authentic ∧ op.KeepsMessages) ∧
      (run siblings).projections.queueClaims.rows.map (fun c => (c.queueItemId, c.claimedUntil))
        = [("qi_E_a", 1000), ("qi_E_a/E", 1000)] ∧
      (run siblings).projections.queueItems.rows.map (fun row => (row.queueItemId, row.sessionId))
        = [("qi_E_a", some "agent/a/E"), ("qi_E_a/E", some "agent/a/E")] := by
  refine ⟨by simp [siblings, Op.Authentic, Op.KeepsMessages, event, messageType], ?_⟩
  decide +kernel

end Zeta
