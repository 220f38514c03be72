import ZetaRuntime.Guarantee.Routing

/-!
# Claims, their locks, and the oldest work

Two things are asked of coordination. Locks exclude: what an item declares is held by its claim and
by no other, for as long as the claim lasts. And work gets done: when no claim is in the way, the
oldest work that is due is handed out.

Both rest on locks living and dying with claims, whatever the clock says. When the claims that
expired are gone, a lock that is there belongs to a live claim, so the insert of a lock never meets
a row that the test for expiry overlooked. And when no claim is left, no lock is.

## Main definitions

* `Store.Exclusive` — locks exclude
* `Store.Oldest` — the oldest work, with nothing in its way

## Main results

* `exclusive_of_authentic`, `progress_of_authentic` — both, in runs without forged facts
-/

namespace Zeta

open Outcome

variable {input : Event} {P : Event → Prop} {claimedUntil nowMs : Int} {ops : List Op}
  {routes : List Route} {decisions : List RouteDecision} {identities : List RuntimeEventIdentity}
  {p : Projections} {item row : QueueItemRow} {outcome : RoutingOutcome}
  {eventId token workerName : String} {leaseMs : ℕ}

section

variable [Platform] {s s' : Store}

/-! ### Locks in runs -/

theorem Recorded.locked {event : Event} (h : Recorded s event s') (hs : Locked s.projections)
    (hspares : eventKind event.eventType = .queueItem → event.SparesLocks s.projections) :
    Locked s'.projections := by
  obtain ⟨entry, -, -, -, hentry, hindex⟩ := h.entry
  rw [hentry] at hindex
  exact hs.indexEvent hindex hspares

/-- Changes that declare no lock keys keep locks with claims. -/
theorem Changes.locked
    (hP : ∀ event, P event → eventKind event.eventType = .queueItem →
      event.payload.get "lock_keys" = none) (h : Changes P s s') (hs : Locked s.projections) :
    Locked s'.projections :=
  h.induct (I := fun t => Locked t.projections)
    (fun _ _ event hevent ht hrecorded => hrecorded.locked ht fun hkind =>
      .inl (hP event hevent hkind))
    (fun _ _ ht hcoordinated => hcoordinated.locked ht) hs

/-- Claimed items are for other events than this one. -/
def Projections.ClaimsOthers (p : Projections) (eventId : String) : Prop :=
  ∀ claim ∈ p.queueClaims, ∀ row, p.queueItems.find? claim.queueItemId = some row →
    row.eventId ≠ eventId

/-- A fact about an event that no claimed item is for moves no claimed item. -/
theorem Recorded.claimsOthers {event : Event} (h : Recorded s event s') (hs : Locked s.projections)
    (hkind : eventKind event.eventType = .queueItem)
    (hevent : event.payload.text "event_id" = some eventId)
    (hothers : s.projections.ClaimsOthers eventId) :
    Locked s'.projections ∧ s'.projections.ClaimsOthers eventId := by
  have hspares : event.SparesLocks s.projections := by
    refine .inr fun claim hclaim row hrow heq => hothers claim hclaim row hrow ?_
    exact (Option.some.inj (hevent.symm.trans heq)).symm
  refine ⟨h.locked hs fun _ => hspares, fun claim hclaim row hrow => ?_⟩
  obtain ⟨entry, -, -, -, hentry, hindex⟩ := h.entry
  rw [hentry] at hindex
  obtain ⟨fact, closed, hread, hclosed, hclaims, -, hitems⟩ := hs.claimed_of_queueFact hindex hkind
  have hfact : fact.eventId = eventId :=
    Option.some.inj ((readQueueFact_reads hread).eventId.symm.trans hevent)
  rw [hclaims] at hclaim
  obtain ⟨hclaim_s, hrows⟩ := hitems claim hclaim
  obtain ⟨old, hold, -⟩ := hclosed.held claim hclaim
  obtain ⟨hold_s, hsame | ⟨heq, -⟩⟩ := hrows old hold
  · obtain rfl : row = old := Option.some.inj (hrow.symm.trans hsame)
    exact hothers claim hclaim_s row hold_s
  · exact absurd (heq.trans hfact) (hothers claim hclaim_s old hold_s)

omit [Platform] in
/-- An event that waits for its route is the event of no claimed item. -/
theorem claimsOthers_of_unrouted (hinv : s.work.Inv)
    (hrow : s.projections.queueItems.find? (pendingQueueItemId eventId) = some row)
    (hunrouted : row.toItem.Unrouted) : s.projections.ClaimsOthers eventId := by
  have hit := work_items_of_find? hrow
  intro claim hclaim other hother heq
  have howned : s.work.claims claim.queueItemId ≠ none := by
    simp [Store.work, Table.find?_of_mem hclaim]
  obtain ⟨it, hit', hstatus⟩ := hinv.owned _ howned
  have hit'' := work_items_of_find? hother
  have hevent : row.toItem.event = eventId := hinv.toShape.event_of_unrouted hit hunrouted
  have hsame := hinv.sole _ _ hit hunrouted.1 _ _ hit'' (heq.trans hevent.symm)
  rw [hsame, hit, Option.some.injEq] at hit'
  rw [← hit', hunrouted.1] at hstatus
  rcases hstatus with hstatus | hstatus <;> cases hstatus

/-- What a route call records: the facts of its decisions, about an event that waited for its route.
-/
theorem recordings_of_routeIngressEvent
    (h : routeIngressEvent s eventId routes identities = .ok (outcome, s')) :
    s' = s ∨ ∃ input decisions row, routeEvent input routes = .ok decisions ∧
      s.projections.queueItems.find? (pendingQueueItemId input.id) = some row ∧
        row.toItem.Unrouted ∧
      Recordings (fun event => ∃ identity, ∃ fields ∈ planFields input decisions,
        event = queueLifecycleEvent identity input fields) s s' := by
  simp only [routeIngressEvent, ok_iff, mapError_ok_iff] at h
  obtain ⟨_, -, entry, -, decisions, hdecisions, _, hlength, _, -, retained, -, h⟩ := h
  cases retained with
  | some events =>
    cases h
    exact .inl rfl
  | none =>
    simp only [commitRoute, ok_iff, pair_iff] at h
    obtain ⟨_, hpending, events, last, hbatch, rfl, rfl⟩ := h
    obtain ⟨row, hrow, hstatus⟩ := Option.map_eq_some_iff.mp hpending
    refine .inr ⟨entry.event, decisions, row, hdecisions, hrow, Prod.mk.inj hstatus, ?_⟩
    exact recordings_of_appendBatch (fun _ hevent => mem_lifecycleForRoute hlength hevent) hbatch

/-- Routing keeps locks with claims: what it declares is for items that nobody has claimed. -/
theorem locked_routeIngressEvent (hinv : s.work.Inv) (hs : Locked s.projections)
    (h : routeIngressEvent s eventId routes identities = .ok (outcome, s')) :
    Locked s'.projections := by
  obtain rfl | ⟨input, decisions, row, -, hrow, hunrouted, hrecordings⟩ :=
    recordings_of_routeIngressEvent h
  · exact hs
  · suffices hrun : Locked s'.projections ∧ s'.projections.ClaimsOthers input.id from hrun.1
    clear h
    induction hrecordings with
    | refl => exact ⟨hs, claimsOthers_of_unrouted hinv hrow hunrouted⟩
    | tail _ hlast ih =>
      obtain ⟨event, ⟨identity, fields, -, rfl⟩, hrecorded⟩ := hlast
      have hmoves := moves_queueLifecycleEvent identity input fields
      exact hrecorded.claimsOthers ih.1 hmoves.kind hmoves.event ih.2

theorem Op.Records.unlocked {op : Op} (hop : op.Authentic)
    (hroute : ∀ e routes ids, op ≠ .route e routes ids) {event : Event} (h : op.Records event)
    (hkind : eventKind event.eventType = .queueItem) : event.payload.get "lock_keys" = none := by
  cases op with
  | appendTrusted =>
    obtain rfl := h
    have hlifecycle : isLifecycleType event.eventType = false := hop
    simp [isLifecycleType, hkind] at hlifecycle
  | ingest => rcases eventKind_of_unreserved h.2 with hkind' | hkind' <;> simp [hkind'] at hkind
  | submitMessage =>
    rcases h with h | rfl
    · exact h.unlocked hkind
    · exact absurd hkind (by simp only [sessionMessageRequestedEvent]; decide)
  | route => exact absurd rfl (hroute _ _ _)
  | _ => exact Routine.unlocked h hkind

/-- Every operation keeps locks with claims. -/
theorem Locked.apply (h : Locked s.projections) (hs : Ready s) {op : Op} (hop : op.Authentic) :
    Locked (apply s op).projections := by
  by_cases hroute : ∃ e routes ids, op = .route e routes ids
  · obtain ⟨e, routes, ids, rfl⟩ := hroute
    rcases commit_cases s (routeIngressEvent s e routes ids) with heq | ⟨outcome, hok⟩
    · rwa [Zeta.apply, heq]
    · exact locked_routeIngressEvent hs.inv h hok
  · refine apply_induction (Q := fun s => Locked s.projections) h (fun p hreplay => ?_)
      fun hrebuild => ?_
    · have hrecovered := hs.history.recovered hreplay
      constructor <;> simp [hrecovered.noClaims, hrecovered.noLocks]
    · refine (Op.changes hs.history.unreserved hop hrebuild).locked (fun event => ?_) h
      exact Op.Records.unlocked hop fun e routes ids heq => hroute ⟨e, routes, ids, heq⟩

/-! ### Lock keys in runs -/

/-- An operation whose routes have lock keys that the table of locks accepts. -/
def Op.DeclaresLocks : Op → Prop
  | .route _ routes _ => ∀ route ∈ routes, ∀ key ∈ route.lockKeys, sqlText key = true
  | _ => True

omit [Platform] in
theorem Event.declaresLocks_of_none {event : Event} (h : event.payload.get "lock_keys" = none) :
    event.DeclaresLocks := by
  intro keys hkeys
  cases h.symm.trans hkeys

/-- Lock keys come from routes. -/
theorem lockKeys_of_routeEvent (h : routeEvent input routes = .ok decisions)
    {decision : RouteDecision} (hdecision : decision ∈ decisions) :
    ∃ route ∈ routes, route.lockKeys = decision.lockKeys := by
  have hplan {plan : List RouteDecision} (hplan : routeDecisions input routes = .ok plan) :
      ∀ d ∈ plan, ∃ route ∈ routes, route.lockKeys = d.lockKeys := by
    clear h
    induction routes generalizing plan with
    | nil =>
      cases hplan
      simp
    | cons route routes ih =>
      rw [routeDecisions] at hplan
      split at hplan
      · simp only [Route.decide, ok_iff] at hplan
        obtain ⟨_, ⟨_, -, rfl⟩, rest, hrest, rfl⟩ := hplan
        rw [List.forall_mem_cons]
        refine ⟨⟨route, .head _, rfl⟩, fun d hd => ?_⟩
        obtain ⟨other, hother, hkeys⟩ := ih hrest d hd
        exact ⟨other, .tail _ hother, hkeys⟩
      · intro d hd
        obtain ⟨other, hother, hkeys⟩ := ih hplan d hd
        exact ⟨other, .tail _ hother, hkeys⟩
  simp only [routeEvent, ok_iff] at h
  obtain ⟨plan, hroutes, rfl⟩ := h
  rcases plan with _ | ⟨d, _ | ⟨next, plan⟩⟩
  · cases hdecision
  · obtain rfl := List.mem_singleton.mp hdecision
    exact hplan hroutes d (.head _)
  · exact hplan hroutes _ hdecision

/-- A fact about the decisions of an event has the lock keys of one of the routes, or none. -/
theorem declaresLocks_queueLifecycleEvent (h : routeEvent input routes = .ok decisions)
    (hroutes : ∀ route ∈ routes, ∀ key ∈ route.lockKeys, sqlText key = true)
    {fields : QueueLifecycleFields} (hfields : fields ∈ planFields input decisions)
    (identity : RuntimeEventIdentity) :
    (queueLifecycleEvent identity input fields).DeclaresLocks := by
  have hkeys : ∀ key ∈ fields.lockKeys, sqlText key = true := by
    have hclosing (status : QueueItemStatus) :
        fields = closingFields input status → ∀ key ∈ fields.lockKeys, sqlText key = true := by
      rintro rfl
      exact List.forall_mem_nil _
    rw [planFields_of_routeEvent h] at hfields
    split at hfields
    · exact hclosing _ (List.mem_singleton.mp hfields)
    · have hdecision : fields ∈ decisions.map RouteDecision.fields →
          ∀ key ∈ fields.lockKeys, sqlText key = true := by
        intro hmem
        obtain ⟨decision, hd, rfl⟩ := List.mem_map.mp hmem
        obtain ⟨route, hroute, heq⟩ := lockKeys_of_routeEvent h hd
        exact fun key hkey => hroutes route hroute key (heq ▸ hkey)
      split at hfields
      · exact hdecision hfields
      · rcases List.mem_cons.mp hfields with heq | hmem
        · exact hclosing _ heq
        · exact hdecision hmem
  intro keys hget
  simp only [queueLifecycleEvent, Map.get_append, Map.get_cons, Map.get_nil, get_optionalField,
    get_lockKeys, String.reduceEq, if_false, true_and, Option.none_or] at hget
  split at hget
  · rw [Option.some.injEq, Value.array.injEq] at hget
    rw [← List.map_injective_iff.mpr (fun _ _ => Value.string.inj) hget]
    exact hkeys
  · cases hget

theorem Recorded.declaresLocks {event : Event} (h : Recorded s event s')
    (hs : s.projections.DeclaresLocks)
    (hevent : eventKind event.eventType = .queueItem → event.DeclaresLocks) :
    s'.projections.DeclaresLocks := by
  obtain ⟨entry, -, -, -, hentry, hindex⟩ := h.entry
  rw [hentry] at hindex
  exact DeclaresLocks.indexEvent hs hindex hevent

theorem Changes.declaresLocks
    (hP : ∀ event, P event → eventKind event.eventType = .queueItem → event.DeclaresLocks)
    (h : Changes P s s') (hs : s.projections.DeclaresLocks) : s'.projections.DeclaresLocks := by
  refine h.induct (I := fun t => t.projections.DeclaresLocks)
    (fun _ _ event hevent ht hrecorded => hrecorded.declaresLocks ht (hP event hevent))
    (fun _ _ ht hcoordinated => ?_) hs
  refine (hcoordinated.queueItems.forall_mem_iff fun row row' hrow => ?_).mp ht
  rcases hrow with rfl | ⟨-, rfl⟩ <;> rfl

/-- Every operation keeps lock keys storable. -/
theorem DeclaresLocks.apply (h : s.projections.DeclaresLocks) (hs : Ready s) {op : Op}
    (hop : op.Authentic) (hlocks : op.DeclaresLocks) : (apply s op).projections.DeclaresLocks := by
  by_cases hroute : ∃ e routes ids, op = .route e routes ids
  · obtain ⟨e, routes, ids, rfl⟩ := hroute
    rcases commit_cases s (routeIngressEvent s e routes ids) with heq | ⟨outcome, hok⟩
    · rwa [Zeta.apply, heq]
    · obtain heq | ⟨input, decisions, row, hdecisions, -, -, hrecordings⟩ :=
        recordings_of_routeIngressEvent hok
      · rwa [Zeta.apply, heq]
      · refine Changes.declaresLocks (fun event hevent _ => ?_) (hrecordings.changes fun _ => id) h
        obtain ⟨identity, fields, hfields, rfl⟩ := hevent
        exact declaresLocks_queueLifecycleEvent hdecisions hlocks hfields identity
  · refine apply_induction (Q := fun s => s.projections.DeclaresLocks) h (fun p hreplay => ?_)
      fun hrebuild => ?_
    · refine ((hs.history.recovered hreplay).queueItems.forall_mem_iff fun row row' hrow => ?_).mp h
      rw [hrow, QueueItemRow.recovered]
      split <;> rfl
    · refine (Op.changes hs.history.unreserved hop hrebuild).declaresLocks
        (fun event hevent hkind => ?_) h
      refine Event.declaresLocks_of_none (Op.Records.unlocked hop ?_ hevent hkind)
      exact fun e routes ids heq => hroute ⟨e, routes, ids, heq⟩

/-! ### Locks exclude -/

/-- Claims hold the locks of their items, each lock by one claim. -/
structure Store.Exclusive (s : Store) : Prop where
  /-- No two claims own one lock. -/
  exclusive : ∀ a ∈ s.projections.queueClaims, ∀ b ∈ s.projections.queueClaims, ∀ key,
    s.projections.holds a.claimToken key → s.projections.holds b.claimToken key → a = b
  /-- A lock belongs to a claim and has its deadline. -/
  owned : ∀ lock ∈ s.projections.locks, ∃ claim ∈ s.projections.queueClaims,
    claim.claimToken = lock.owner ∧ claim.claimedUntil = lock.expiresAt
  /-- A claimed item has a claim. -/
  claimed : ∀ row ∈ s.projections.queueItems, row.status = .claimed →
    ∃ claim ∈ s.projections.queueClaims, claim.queueItemId = row.queueItemId
  /-- A claim holds the locks that its item declares, and no others. -/
  held : ∀ claim ∈ s.projections.queueClaims, ∃ row ∈ s.projections.queueItems,
    row.queueItemId = claim.queueItemId ∧
    ∀ key, key ∈ row.lockKeys ↔ s.projections.holds claim.claimToken key

omit [Platform] in
theorem Ready.claimed [Platform] (hs : Ready s) (hrow : row ∈ s.projections.queueItems)
    (hstatus : row.status = .claimed) :
    ∃ claim ∈ s.projections.queueClaims, claim.queueItemId = row.queueItemId := by
  have hclaim := hs.inv.claimed _ _ (work_items_of_find? (Table.find?_of_mem hrow)) hstatus
  obtain ⟨claim, hclaim⟩ := Option.ne_none_iff_exists'.mp hclaim
  obtain ⟨found, hfound, -⟩ := Option.map_eq_some_iff.mp hclaim
  exact ⟨found, Table.mem_of_find? hfound, Table.key_of_find? hfound⟩

theorem Locked.exclusive (h : Locked s.projections) (hs : Ready s) : s.Exclusive where
  exclusive := by
    rintro a ha b hb key ⟨lock, hlock, hkey, howner⟩ ⟨lock', hlock', hkey', howner'⟩
    obtain rfl : lock = lock' := Table.eq_of_key_eq hlock hlock' (hkey.trans hkey'.symm)
    exact h.token a ha b hb (howner.symm.trans howner')
  owned := h.owned
  claimed _ hrow hstatus := hs.claimed hrow hstatus
  held claim hclaim := by
    obtain ⟨row, hrow, hkeys⟩ := h.held claim hclaim
    exact ⟨row, Table.mem_of_find? hrow, Table.key_of_find? hrow, hkeys⟩

section

omit [Platform]

/-- After the claims that expired are gone, those that are left have not. -/
theorem live_of_reconcileExpired {claim : QueueClaimRow}
    (h : claim ∈ (reconcileExpired p nowMs).queueClaims) :
    claim ∈ p.queueClaims ∧ nowMs < claim.claimedUntil := by
  obtain ⟨hclaim, hlive⟩ := Table.mem_deleteWhere.mp h
  exact ⟨hclaim, by simpa using hlive⟩

/-- Where the test for free locks passes, there is no row for a key that could be in the way. -/
theorem locks_absent_of_free (h : Locked p) {keys : List String}
    (hfree : locksAreAvailable (reconcileExpired p nowMs) keys nowMs = true) :
    ∀ key ∈ keys, (reconcileExpired p nowMs).locks.find? key = none :=
  fun _ hkey => locks_absent_of_available (h.reconcileExpired nowMs)
    (fun _ hclaim => (live_of_reconcileExpired hclaim).2) hfree hkey

/-- A lock that cannot be acquired though it is free has a key that the table does not accept. -/
theorem unstorable_of_takeClaim (hlease : nowMs < claimedUntil) (hvalid : lockKeysValid item = true)
    (habsent : ∀ key ∈ item.lockKeys, p.locks.find? key = none)
    (h : takeClaim p item workerName token nowMs claimedUntil =
      .error (.database "acquire queue lock")) : ∃ key ∈ item.lockKeys, sqlText key = false := by
  simp only [takeClaim, bind_error_iff] at h
  rcases h with h | ⟨q, hq, h⟩
  · simp only [insertClaim, bind_error_iff, ensure_error_iff, require_error_iff, pure_error_iff,
      DispatchError.database.injEq, String.reduceEq, and_false, exists_false, or_false] at h
  · simp only [insertClaim, ok_iff] at hq
    obtain ⟨_, -, _, -, claims, -, rfl⟩ := hq
    by_contra hnone
    push Not at hnone
    simp only [lockKeysValid, Bool.and_eq_true, decide_eq_true_eq] at hvalid
    have hstorable : Storable item.lockKeys := ⟨hvalid.1, fun key hkey => by
      simpa using hnone key hkey⟩
    obtain ⟨q', hq'⟩ := exists_foldOk_acquireLock token hlease hstorable
      (p := { p with queueClaims := claims }) habsent
    cases h.symm.trans hq'

theorem unstorable_of_claimFirst (hlease : nowMs < claimedUntil) {items : List QueueItemRow}
    (hvalid : ∀ item ∈ items, lockKeysValid item = true)
    (habsent : ∀ item ∈ items, locksAreAvailable s.projections item.lockKeys nowMs = true →
      ∀ key ∈ item.lockKeys, s.projections.locks.find? key = none)
    (h : claimFirst s workerName token nowMs claimedUntil items =
      .error (.database "acquire queue lock")) :
    ∃ item ∈ items, ∃ key ∈ item.lockKeys, sqlText key = false := by
  induction items with
  | nil => cases h
  | cons item items ih =>
    rw [List.forall_mem_cons] at hvalid habsent
    unfold claimFirst at h
    split at h
    · next hfree =>
      simp only [bind_error_iff, pure_error_iff, and_false, exists_false, or_false] at h
      exact ⟨item, .head _, unstorable_of_takeClaim hlease hvalid.1 (habsent.1 hfree) h⟩
    · obtain ⟨other, hother, hkey⟩ := ih hvalid.2 habsent.2 h
      exact ⟨other, .tail _ hother, hkey⟩

theorem lt_of_leaseDeadline (h : leaseDeadline nowMs leaseMs = .ok claimedUntil) :
    nowMs < claimedUntil := by
  simp only [leaseDeadline, ok_iff] at h
  obtain ⟨_, ⟨hpos, -⟩, _, -, rfl⟩ := h
  omega

theorem mem_of_reconcileExpired (h : row ∈ (reconcileExpired p nowMs).queueItems) :
    ∃ old ∈ p.queueItems, row = old ∨ old.status = .claimed ∧ row =
      { old with status := .available } := by
  obtain ⟨old, hold, rfl⟩ := List.mem_map.mp h
  refine ⟨old, hold, ?_⟩
  split
  · next hlost =>
    simp only [Bool.and_eq_true, decide_eq_true_eq] at hlost
    exact .inr ⟨hlost.1, rfl⟩
  · exact .inl rfl

/-- A claim that fails at a lock fails at a key that the table does not accept. -/
theorem unstorable_of_claimNextQueueItem (hs : Locked s.projections)
    (h : claimNextQueueItem s workerName token leaseMs nowMs =
      .error (.database "acquire queue lock")) :
    ∃ row ∈ s.projections.queueItems, ∃ key ∈ row.lockKeys, sqlText key = false := by
  simp only [claimNextQueueItem, bind_error_iff, ensure_error_iff, reduceCtorEq, and_false,
    false_or] at h
  obtain ⟨_, -, h⟩ := h
  rcases h with h | ⟨claimedUntil, hdeadline, _, -, h⟩
  · simp only [leaseDeadline, bind_error_iff, ensure_error_iff, pure_error_iff, reduceCtorEq,
      and_false, exists_false, or_false] at h
  rcases h with h | ⟨candidates, hcandidates, h⟩
  · simp only [claimCandidates, bind_error_iff, ensure_error_iff, pure_error_iff, reduceCtorEq,
      and_false, exists_false, or_false] at h
  have hvalid : ∀ item ∈ candidates, lockKeysValid item = true := by
    simp only [claimCandidates, ok_iff] at hcandidates
    obtain ⟨_, hvalid, rfl⟩ := hcandidates
    exact List.all_eq_true.mp hvalid
  obtain ⟨item, hitem, key, hkey, hbad⟩ := unstorable_of_claimFirst (lt_of_leaseDeadline hdeadline)
    hvalid (fun _ _ hfree => locks_absent_of_free hs hfree) h
  obtain ⟨row, hrow, rfl | ⟨-, rfl⟩⟩ :=
    mem_of_reconcileExpired (mem_of_claimCandidates hcandidates hitem).1
  · exact ⟨item, hrow, key, hkey, hbad⟩
  · exact ⟨row, hrow, key, hkey, hbad⟩

end

theorem locked_applyAll [LawfulFloatText] (hops : ∀ op ∈ ops, op.Authentic) :
    Ready (applyAll .empty ops) ∧ Locked (applyAll .empty ops).projections := by
  have hmeets : Meets (fun _ op => op.Authentic) .empty ops :=
    meets_of_forall fun op hop _ => hops op hop
  exact hmeets.invariant (I := fun t => Ready t ∧ Locked t.projections)
    (fun t op ht hop => ⟨ht.1.apply hop, ht.2.apply ht.1 hop⟩) ⟨ready_empty, locked_empty⟩

/-- In a run without forged facts, locks exclude. A claim is never in the way of another that found
its locks free: there is no row for such a lock, and a claim that fails at a lock fails at a key
that the table does not accept. -/
theorem exclusive_of_authentic [LawfulFloatText] {ops : List Op} (hops : ∀ op ∈ ops, op.Authentic) :
    (applyAll .empty ops).Exclusive ∧
    (∀ nowMs, ∀ keys : List String,
      locksAreAvailable (reconcileExpired (applyAll .empty ops).projections nowMs) keys nowMs =
        true →
      ∀ key ∈ keys, (reconcileExpired (applyAll .empty ops).projections nowMs).locks.find? key =
        none) ∧
    ∀ workerName token leaseMs nowMs,
      claimNextQueueItem (applyAll .empty ops) workerName token leaseMs nowMs
        = .error (.database "acquire queue lock") →
      ∃ row ∈ (applyAll .empty ops).projections.queueItems, ∃ key ∈ row.lockKeys,
        sqlText key = false := by
  obtain ⟨hready, hlocked⟩ := locked_applyAll hops
  exact ⟨hlocked.exclusive hready, fun _ _ hfree => locks_absent_of_free hlocked hfree,
    fun _ _ _ _ hfails => unstorable_of_claimNextQueueItem hlocked hfails⟩

/-! ### The oldest work is claimed -/

/-- No live claim, no unbound event and no request is in the way of an item that is due, and there
is no older work. -/
structure Store.Oldest (s : Store) (nowMs : Int) (row : QueueItemRow) : Prop where
  expired : ∀ claim ∈ s.projections.queueClaims, claim.claimedUntil ≤ nowMs
  bound : ∀ other ∈ s.projections.queueItems, ¬(other.targetAgent = "" ∧ other.status = .pending)
  wanted : ∀ other ∈ s.projections.queueItems, other.cancelRequestedEventId = none
  mem : row ∈ s.projections.queueItems
  oldest : ∀ other ∈ s.projections.queueItems, other.status.terminal = false →
    row.inputCursor ≤ other.inputCursor
  available : row.status = .available
  due : row.availableAt.getD row.updatedAt ≤ nowMs

section

omit [Platform]

/-- The oldest item that is due is claimable when the claims that expired are gone. -/
theorem Store.Oldest.claimable (h : s.Oldest nowMs row) :
    row ∈ (reconcileExpired s.projections nowMs).queueItems ∧
      claimable (reconcileExpired s.projections nowMs) nowMs row = true := by
  have hmem : row ∈ (reconcileExpired s.projections nowMs).queueItems := by
    refine List.mem_map.mpr ⟨row, h.mem, ?_⟩
    simp [h.available]
  refine ⟨hmem, ?_⟩
  simp only [Zeta.claimable, h.available, h.wanted row h.mem, Bool.and_eq_true, decide_eq_true_eq,
    List.all_eq_true, Bool.or_eq_true, Bool.not_eq_true', decide_true, true_and, and_true]
  refine ⟨⟨⟨h.due, fun claim hclaim => ?_⟩, fun other hother => ?_⟩, .inr fun other hother => ?_⟩
  · obtain ⟨hclaim, hlive⟩ := live_of_reconcileExpired hclaim
    exact absurd (h.expired claim hclaim) (not_le.mpr hlive)
  · obtain ⟨old, hold, rfl | ⟨-, rfl⟩⟩ := mem_of_reconcileExpired hother
    · have hbound := h.bound other hold
      simp only [Bool.and_eq_false_iff, decide_eq_false_iff_not]
      tauto
    · simp
  · have hcursor : other.status.terminal = false → row.inputCursor ≤ other.inputCursor := by
      obtain ⟨old, hold, rfl | ⟨hclaimed, rfl⟩⟩ := mem_of_reconcileExpired hother
      · exact h.oldest other hold
      · exact fun _ => h.oldest old hold (by rw [hclaimed]; rfl)
    cases hterminal : other.status.terminal with
    | true => simp [QueueItemRow.blocksSession, hterminal]
    | false => simp [not_lt.mpr (hcursor hterminal)]

/-- Where there is no claim and no lock, a claim is taken. -/
theorem exists_takeClaim (hlease : nowMs < claimedUntil) (hitem : sqlText item.queueItemId = true)
    (hworker : sqlText workerName = true) (htoken : sqlText token = true)
    (hclaims : ∀ claim, claim ∉ p.queueClaims) (hlocks : ∀ lock, lock ∉ p.locks)
    (hkeys : Storable item.lockKeys) :
    ∃ p', takeClaim p item workerName token nowMs claimedUntil = .ok p' := by
  have hnone : p.queueClaims.find? item.queueItemId = none :=
    Table.find?_eq_none_iff.mpr fun claim hclaim => absurd hclaim (hclaims claim)
  obtain ⟨claims, hinsert⟩ := Table.exists_insert? (t := p.queueClaims)
    (r := ⟨item.queueItemId, workerName, token, nowMs, claimedUntil⟩) hnone
  have hinserted : insertClaim ⟨item.queueItemId, workerName, token, nowMs, claimedUntil⟩ p
      = .ok { p with queueClaims := claims } := by
    simp only [insertClaim, ok_iff]
    exact ⟨(), ⟨hitem, hworker, htoken, hlease⟩, (), fun claim hclaim =>
      absurd hclaim (hclaims claim), claims, hinsert, rfl⟩
  obtain ⟨p', hacquire⟩ := exists_foldOk_acquireLock token hlease hkeys
    (p := { p with queueClaims := claims })
    (fun key _ => Table.find?_eq_none_iff.mpr fun lock hlock => absurd hlock (hlocks lock))
  exact ⟨p', by rw [takeClaim, hinserted, ok_bind, hacquire]⟩

theorem sqlText_queueItemId (hinv : s.work.Inv) (hrow : row ∈ s.projections.queueItems) :
    sqlText row.queueItemId = true := by
  rcases hinv.named _ _ (work_items_of_find? (Table.find?_of_mem hrow)) with hname | hname
  · rw [hname, pendingQueueItemId, sqlText, String.toList_append]
    rfl
  · rw [hname, queueItemId, sqlText, String.append_assoc, String.append_assoc, String.toList_append]
    rfl

/-- What is claimable is offered, if all lock keys can be read. -/
theorem exists_claimCandidates (hvalid : ∀ item ∈ p.queueItems, lockKeysValid item = true)
    (hrow : row ∈ p.queueItems) (hclaimable : claimable p nowMs row = true) :
    ∃ candidates, claimCandidates p nowMs = .ok candidates ∧ row ∈ candidates := by
  refine ⟨(p.queueItems.rows.filter (claimable p nowMs)).insertionSort QueueItemRow.claimsBefore,
    ?_, ?_⟩
  · simp only [claimCandidates, ok_iff, and_true, exists_const]
    refine List.all_eq_true.mpr fun item hitem => ?_
    rw [List.mem_insertionSort, List.mem_filter] at hitem
    exact hvalid item hitem.1
  · rw [List.mem_insertionSort, List.mem_filter]
    exact ⟨hrow, hclaimable⟩

end

/-- The first item offered is claimed, where there is no claim and no lock. -/
theorem exists_claimNextQueueItem (hready : Ready s) (hlocked : Locked s.projections)
    (hlocks : s.projections.DeclaresLocks) (h : s.Oldest nowMs row)
    (hworker : sqlText workerName = true) (htoken : sqlText token = true)
    (hlease : leaseDeadline nowMs leaseMs = .ok claimedUntil) :
    ∃ claim s', claimNextQueueItem s workerName token leaseMs nowMs = .ok (some claim, s') := by
  obtain ⟨hmem, hclaimable⟩ := h.claimable
  have hclaims : ∀ claim, claim ∉ (reconcileExpired s.projections nowMs).queueClaims := by
    intro claim hclaim
    obtain ⟨hclaim, hlive⟩ := live_of_reconcileExpired hclaim
    exact absurd (h.expired claim hclaim) (not_le.mpr hlive)
  have hfree : ∀ lock, lock ∉ (reconcileExpired s.projections nowMs).locks := by
    intro lock hlock
    obtain ⟨claim, hclaim, -⟩ := (hlocked.reconcileExpired nowMs).owned lock hlock
    exact hclaims claim hclaim
  have hkept : ∀ item ∈ (reconcileExpired s.projections nowMs).queueItems,
      Storable item.lockKeys ∧ sqlText item.queueItemId = true := by
    intro item hitem
    obtain ⟨old, hold, rfl | ⟨-, rfl⟩⟩ := mem_of_reconcileExpired hitem
    · exact ⟨hlocks item hold, sqlText_queueItemId hready.inv hold⟩
    · have hid := sqlText_queueItemId hready.inv hold
      exact ⟨hlocks old hold, hid⟩
  have hvalid : ∀ item ∈ (reconcileExpired s.projections nowMs).queueItems,
      lockKeysValid item = true := by
    intro item hitem
    obtain ⟨hnodup, htext⟩ := (hkept item hitem).1
    simp only [lockKeysValid, Bool.and_eq_true, decide_eq_true_eq]
    exact ⟨hnodup, fun hempty => absurd (htext _ hempty) (by decide)⟩
  obtain ⟨candidates, hcandidates, hrow⟩ := exists_claimCandidates hvalid hmem hclaimable
  obtain ⟨first, rest, rfl⟩ := List.exists_cons_of_ne_nil (List.ne_nil_of_mem hrow)
  have hfirst := (mem_of_claimCandidates hcandidates (.head _)).1
  obtain ⟨hstorable, hid⟩ := hkept first hfirst
  obtain ⟨p', htake⟩ := exists_takeClaim (lt_of_leaseDeadline hlease) hid hworker htoken hclaims
    hfree
    hstorable
  have havailable : locksAreAvailable (reconcileExpired s.projections nowMs) first.lockKeys nowMs =
      true := by
    simp only [locksAreAvailable, List.all_eq_true]
    exact fun _ _ lock hlock => absurd hlock (hfree lock)
  have hname : workerName ≠ "" := by
    rintro rfl
    cases hworker
  refine ⟨⟨first.queueItemId, workerName, token, claimedUntil⟩, { s with projections := p' }, ?_⟩
  simp only [claimNextQueueItem, ok_iff]
  refine ⟨(), hname, claimedUntil, hlease, (), fun claim hclaim => absurd hclaim (hclaims claim), _,
    hcandidates, ?_⟩
  simp only [claimFirst, havailable, if_true, htake, ok_bind]
  rfl

theorem declaresLocks_applyAll [LawfulFloatText] (hops : ∀ op ∈ ops, op.Authentic)
    (hlocks : ∀ op ∈ ops, op.DeclaresLocks) : (applyAll .empty ops).projections.DeclaresLocks := by
  have hmeets : Meets (fun _ op => op.Authentic ∧ op.DeclaresLocks) .empty ops :=
    meets_of_forall fun op hop _ => ⟨hops op hop, hlocks op hop⟩
  refine (hmeets.invariant (I := fun t => Ready t ∧ t.projections.DeclaresLocks)
    (fun t op ht hop => ⟨ht.1.apply hop.1, DeclaresLocks.apply ht.2 ht.1 hop.1 hop.2⟩)
    ⟨ready_empty, ?_⟩).2
  simp [Projections.DeclaresLocks, Store.empty, Projections.empty]

/-- In a run without forged facts a claimed item has a claim. If moreover the routes have lock keys
that can be stored, the oldest work is claimed when it is due and nothing is in its way. -/
theorem progress_of_authentic [LawfulFloatText] {ops : List Op} (hops : ∀ op ∈ ops, op.Authentic)
    (hlocks : ∀ op ∈ ops, op.DeclaresLocks) :
    (∀ row ∈ (applyAll .empty ops).projections.queueItems, row.status = .claimed →
      ∃ claim ∈ (applyAll .empty ops).projections.queueClaims,
        claim.queueItemId = row.queueItemId) ∧
    ∀ nowMs row, (applyAll .empty ops).Oldest nowMs row → ∀ workerName token leaseMs claimedUntil,
      sqlText workerName = true → sqlText token = true →
      leaseDeadline nowMs leaseMs = .ok claimedUntil →
      ∃ claim s', claimNextQueueItem (applyAll .empty ops) workerName token leaseMs nowMs
        = .ok (some claim, s') := by
  obtain ⟨hready, hlocked⟩ := locked_applyAll hops
  refine ⟨fun row hrow hstatus => hready.claimed hrow hstatus, ?_⟩
  intro nowMs row holdest workerName token leaseMs claimedUntil hworker htoken hlease
  exact exists_claimNextQueueItem hready hlocked (declaresLocks_applyAll hops hlocks) holdest
    hworker
    htoken hlease

end

namespace Sample

/-- An agent with one lock takes an event. -/
def offered (lockKey : String) : List Op := [
  .ingest (event "e" "task" []),
  .route "e" [⟨"a", [⟨"task", .exact⟩], .shared, [lockKey], none⟩] [identity "f1"]]

/-- A worker claims the item. -/
def locking : List Op := offered "L" ++ [.claim "worker" "t" 1000 0]

/-- Another agent takes another event. -/
def noted : List Op := [
  .ingest (event "d" "note" []),
  .route "d" [route "b" "note"] [identity "g1"]]

/-- The other agent publishes that the first has its item claimed, under another lock. -/
def forgingClaim : List Op := [
  .claim "worker" "u" 1000 0,
  .start (claim "qi_d" "u") 0 (identity "g2") (identity "g3") "1970-01-01T00:00:00Z" none,
  .complete (claim "qi_d" "u") 0 [identity "h1", identity "h2", identity "h3"]
    (succeeding [.publish "p" "runtime.queue_item.claimed"
      [("queue_item_id", .string "qi_e"), ("event_id", .string "e"), ("target_agent", .string "a"),
        ("status", .string "claimed"), ("lock_keys", .array [.string "M"])] none 0])]

theorem locking_authentic : ∀ op ∈ locking, op.Authentic := by
  simp [locking, offered, Op.Authentic]

end Sample

open Sample in
/-- The lock of the item is held by its claim. -/
theorem locking_exclusive :
    (run locking).Exclusive ∧
      (run locking).projections.locks.rows.map (fun lock => (lock.lockKey, lock.owner)) =
      [("L", "t")] :=
  ⟨(@exclusive_of_authentic platform platform_lawful _ locking_authentic).1, by decide +kernel⟩

open Sample in
/-- The claimed item declares another lock than its claim holds. -/
theorem forgingClaim_not_exclusive : ¬(run (locking ++ noted ++ forgingClaim)).Exclusive := by
  intro h
  obtain ⟨⟨claim, hclaim, hitem⟩, hdeclared, hlocks⟩ :
      (∃ claim ∈ (run (locking ++ noted ++ forgingClaim)).projections.queueClaims.rows,
        claim.queueItemId = "qi_e") ∧
      (∀ row ∈ (run (locking ++ noted ++ forgingClaim)).projections.queueItems.rows,
        row.queueItemId = "qi_e" → row.lockKeys = ["M"]) ∧
      ∀ lock ∈ (run (locking ++ noted ++ forgingClaim)).projections.locks.rows,
        lock.lockKey ≠ "M" := by
    decide +kernel
  obtain ⟨row, hrow, hid, hkeys⟩ := h.held claim hclaim
  have hmem : "M" ∈ row.lockKeys := by
    rw [hdeclared row hrow (hid.trans hitem)]
    exact List.mem_singleton_self _
  obtain ⟨lock, hlock, hkey, -⟩ := (hkeys "M").mp hmem
  exact hlocks lock hlock hkey

open Sample in
/-- After its claim expired, the item is claimed again, though the rows of claim and lock are there.
-/
theorem locking_claims :
    ∃ row claim s', (run locking).Oldest 2000 row ∧
      claimNextQueueItem (run locking) "worker" "u" 1000 2000 = .ok (some claim, s') := by
  obtain ⟨row, hrows, hrow⟩ := List.map_eq_singleton_iff.mp
    (show (run locking).projections.queueItems.rows.map (fun row =>
      (row.status, row.availableAt.getD row.updatedAt, row.cancelRequestedEventId)) =
        [(.available, 0, none)] by
      decide +kernel)
  simp only [Prod.mk.injEq] at hrow
  obtain ⟨hstatus, hdue, hwanted⟩ := hrow
  have hall {P : QueueItemRow → Prop} (hP : P row) :
      ∀ other ∈ (run locking).projections.queueItems, P other := by
    intro other hother
    rw [Table.mem_def, hrows] at hother
    rwa [List.mem_singleton.mp hother]
  have holdest : (run locking).Oldest 2000 row := {
    expired := show ∀ claim ∈ (run locking).projections.queueClaims.rows,
      claim.claimedUntil ≤ 2000 by
      decide +kernel
    bound := hall (by simp [hstatus])
    wanted := hall hwanted
    mem := by
      rw [Table.mem_def, hrows]
      exact List.mem_singleton_self _
    oldest := hall fun _ => le_rfl
    available := hstatus
    due := by
      rw [hdue]
      decide }
  have hlocks : ∀ op ∈ locking, op.DeclaresLocks := by
    have hkey : sqlText "L" = true := by decide
    simp [locking, offered, Op.DeclaresLocks, hkey]
  obtain ⟨claim, s', hclaim⟩ := (@progress_of_authentic platform platform_lawful _ locking_authentic
    hlocks).2 2000 row holdest "worker" "u" 1000 3000 (by decide) (by decide) (by decide)
  exact ⟨row, claim, s', holdest, hclaim⟩

open Sample in
/-- A published fact makes an item claimed that has no claim. And an item that is due is not
claimed, because its lock key begins with a character that the table's check for empty keys stops
at. -/
theorem forgingClaim_starves :
    ((∃ row ∈ (run (noted ++ offered "L" ++ forgingClaim)).projections.queueItems.rows,
        row.queueItemId = "qi_e" ∧ row.status = .claimed) ∧
      (run (noted ++ offered "L" ++ forgingClaim)).projections.queueClaims.rows = []) ∧
    (run (offered "\x00L")).projections.queueItems.rows.map (fun row =>
      (row.status, row.availableAt.getD row.updatedAt, row.cancelRequestedEventId, row.lockKeys))
        = [(.available, 0, none, ["\x00L"])] ∧
    (run (offered "\x00L")).projections.queueClaims.rows = [] ∧
    (claimNextQueueItem (run (offered "\x00L")) "worker" "u" 1000 2000).map (fun _ => ())
      = .error (.database "acquire queue lock") := by
  decide +kernel

end Zeta
