import ZetaRuntime.Dispatch.Coordination

/-!
# Locks and the claims that hold them

A lock belongs to the claim whose token it names, and lives and dies with it: claiming writes both,
renewing extends both, and whatever deletes a claim deletes its locks. So a lock row expires when
its claim does, and the test for expiry that precedes a claim is as good as the test for existence
that the insert makes.

What a claimed item declares could only change by a fact that declares lock keys for it. `Locked`
therefore comes with the condition under which a fact keeps it: it declares none, or it is about an
event that no claimed item is for.
-/

namespace Zeta

open Outcome

variable {event : Event} {claimedUntil nowMs : Int} {keys : List String} {p p' : Projections}
  {fact : QueueFact}

/-- Whether a token holds a lock. -/
def Projections.holds (p : Projections) (token lockKey : String) : Prop :=
  ∃ lock ∈ p.locks, lock.lockKey = lockKey ∧ lock.owner = token

/-- Claims hold the locks of their items, and nothing else holds a lock. -/
structure Locked (p : Projections) : Prop where
  /-- A token names one claim. -/
  token : ∀ a ∈ p.queueClaims, ∀ b ∈ p.queueClaims, a.claimToken = b.claimToken → a = b
  /-- A lock is held by a claim, and expires with it. -/
  owned : ∀ lock ∈ p.locks, ∃ claim ∈ p.queueClaims,
    claim.claimToken = lock.owner ∧ claim.claimedUntil = lock.expiresAt
  /-- A claim is on an item, and holds the locks that the item declares. -/
  held : ∀ claim ∈ p.queueClaims, ∃ row, p.queueItems.find? claim.queueItemId = some row ∧
    ∀ key, key ∈ row.lockKeys ↔ p.holds claim.claimToken key

theorem locked_empty : Locked .empty := by
  constructor <;> simp [Projections.empty]

namespace Locked

variable {p p' : Projections}

/-- What matters of the items is what the claimed ones declare. -/
theorem congr_items (h : Locked p) (hclaims : p'.queueClaims = p.queueClaims)
    (hlocks : p'.locks = p.locks)
    (hitems : ∀ claim ∈ p.queueClaims, ∀ row, p.queueItems.find? claim.queueItemId = some row →
      ∃ row', p'.queueItems.find? claim.queueItemId = some row' ∧ row'.lockKeys = row.lockKeys) :
    Locked p' := by
  refine ⟨by rw [hclaims]; exact h.token, by rw [hclaims, hlocks]; exact h.owned, ?_⟩
  rw [hclaims]
  intro claim hclaim
  obtain ⟨row, hrow, hkeys⟩ := h.held claim hclaim
  obtain ⟨row', hrow', hsame⟩ := hitems claim hclaim row hrow
  refine ⟨row', hrow', fun key => ?_⟩
  rw [hsame, hkeys, Projections.holds, Projections.holds, hlocks]

/-- Rows may change in what is not declared. -/
theorem updateItems (h : Locked p) {selected : QueueItemRow → Bool}
    {f : QueueItemRow → QueueItemRow} {hf : ∀ row, (f row).queueItemId = row.queueItemId}
    (hkeys : ∀ row, (f row).lockKeys = row.lockKeys) :
    Locked { p with queueItems := p.queueItems.updateWhere selected f hf } := by
  refine h.congr_items rfl rfl fun claim _ row hrow => ?_
  refine ⟨if selected row then f row else row, ?_, ?_⟩
  · exact (Table.find?_updateWhere _ _ _ hf _).trans (by rw [hrow]; rfl)
  · split
    · exact hkeys row
    · rfl

theorem unclaimItems (h : Locked p) (lost : QueueItemRow → Bool) : Locked (p.unclaimItems lost) :=
  h.updateItems fun _ => rfl

/-- Locks go with the claims that hold them. -/
theorem deleteClaimsWhere (h : Locked p) (dead : QueueClaimRow → Bool) :
    Locked (p.deleteClaimsWhere dead) := by
  have hkept : ∀ claim ∈ p.queueClaims, dead claim = false → ∀ lock ∈ p.locks,
      lock.owner = claim.claimToken → lock ∈ (p.deleteClaimsWhere dead).locks := by
    intro claim hclaim halive lock hlock howner
    refine Table.mem_deleteWhere.mpr ⟨hlock, ?_⟩
    rw [List.any_eq_false]
    intro other hother hdead
    simp only [Bool.and_eq_true, decide_eq_true_eq] at hdead
    obtain rfl := h.token other hother claim hclaim (hdead.2.trans howner)
    rw [halive] at hdead
    cases hdead.1
  refine ⟨fun a ha b hb =>
    h.token a (Table.mem_deleteWhere.mp ha).1 b (Table.mem_deleteWhere.mp hb).1,
    fun lock hlock => ?_, fun claim hclaim => ?_⟩
  · obtain ⟨hlock, halive⟩ := Table.mem_deleteWhere.mp hlock
    obtain ⟨claim, hclaim, htoken, huntil⟩ := h.owned lock hlock
    refine ⟨claim, Table.mem_deleteWhere.mpr ⟨hclaim, ?_⟩, htoken, huntil⟩
    rw [List.any_eq_false] at halive
    have hdead := halive claim hclaim
    simp only [htoken, decide_true, Bool.and_true] at hdead
    exact Bool.eq_false_iff.mpr hdead
  · obtain ⟨hclaim, halive⟩ := Table.mem_deleteWhere.mp hclaim
    obtain ⟨row, hrow, hkeys⟩ := h.held claim hclaim
    refine ⟨row, hrow, fun key => (hkeys key).trans ⟨?_, ?_⟩⟩
    · rintro ⟨lock, hlock, hkey, howner⟩
      exact ⟨lock, hkept claim hclaim halive lock hlock howner, hkey, howner⟩
    · rintro ⟨lock, hlock, hkey, howner⟩
      exact ⟨lock, (Table.mem_deleteWhere.mp hlock).1, hkey, howner⟩

theorem reconcileExpired (h : Locked p) (nowMs : Int) : Locked (reconcileExpired p nowMs) :=
  (h.unclaimItems _).deleteClaimsWhere _

/-- A lock and its claim are extended together. -/
theorem extendClaim (h : Locked p) {claim : QueueClaim}
    (hcurrent : claimIsCurrentIn p claim nowMs = true) (claimedUntil : Int) :
    Locked (p.extendClaim claim nowMs claimedUntil) := by
  simp only [claimIsCurrentIn, List.any_eq_true, Bool.and_eq_true, decide_eq_true_eq,
    QueueClaim.names] at hcurrent
  obtain ⟨current, hmem, ⟨⟨hitem, hworker⟩, htoken⟩, huntil⟩ := hcurrent
  have hrow : ∀ row ∈ p.queueClaims,
    ((claim.names row && decide (nowMs < row.claimedUntil)) = true ↔
      row.claimToken = claim.token) := by
    intro row hrow
    constructor
    · intro hnames
      simp only [QueueClaim.names, Bool.and_eq_true, decide_eq_true_eq] at hnames
      exact hnames.1.2
    · intro heq
      obtain rfl := h.token row hrow current hmem (heq.trans htoken.symm)
      simp [QueueClaim.names, hitem, hworker, htoken, huntil]
  refine ⟨?_, ?_, ?_⟩
  · intro a' ha' b' hb' heq
    obtain ⟨a, ha, rfl⟩ := List.mem_map.mp ha'
    obtain ⟨b, hb, rfl⟩ := List.mem_map.mp hb'
    have hsame : a.claimToken = b.claimToken := by
      revert heq
      split <;> split <;> exact id
    rw [h.token a ha b hb hsame]
  · intro lock' hlock'
    obtain ⟨lock, hlock, rfl⟩ := List.mem_map.mp hlock'
    obtain ⟨owner, howner, htoken', huntil'⟩ := h.owned lock hlock
    refine ⟨_, List.mem_map.mpr ⟨owner, howner, rfl⟩, ?_⟩
    by_cases hown : lock.owner = claim.token
    · rw [if_pos ((hrow owner howner).mpr (htoken'.trans hown)), if_pos (decide_eq_true hown)]
      exact ⟨htoken', rfl⟩
    · have hother : ¬(claim.names owner && decide (nowMs < owner.claimedUntil)) = true :=
        fun hnames => hown (htoken'.symm.trans ((hrow owner howner).mp hnames))
      rw [if_neg hother, if_neg (by simpa using hown)]
      exact ⟨htoken', huntil'⟩
  · intro row' hrow'
    obtain ⟨row, hmem', rfl⟩ := List.mem_map.mp hrow'
    obtain ⟨item, hitem, hkeys⟩ := h.held row hmem'
    have hlocks : ∀ key, p.holds row.claimToken key ↔
        (p.extendClaim claim nowMs claimedUntil).holds row.claimToken key := by
      intro key
      constructor
      · rintro ⟨lock, hlock, hkey, howner⟩
        refine ⟨_, List.mem_map.mpr ⟨lock, hlock, rfl⟩, ?_⟩
        split <;> exact ⟨hkey, howner⟩
      · rintro ⟨lock', hlock', hkey, howner⟩
        obtain ⟨lock, hlock, rfl⟩ := List.mem_map.mp hlock'
        refine ⟨lock, hlock, ?_⟩
        revert hkey howner
        split <;> exact fun hkey howner => ⟨hkey, howner⟩
    split <;> exact ⟨item, hitem, fun key => (hkeys key).trans (hlocks key)⟩

end Locked

/-! ### Claiming -/

/-- Acquiring locks adds a row for each key, if there is none. -/
theorem foldOk_acquireLock {owner : String}
    (h : foldOk (acquireLock owner nowMs claimedUntil) p keys = .ok p') :
    ∃ locks, p' = { p with locks } ∧ ∀ lock, lock ∈ locks ↔
      lock ∈ p.locks ∨ ∃ key ∈ keys, lock = ⟨key, owner, nowMs, claimedUntil⟩ := by
  induction keys generalizing p with
  | nil =>
    obtain rfl : p = p' := Except.ok.inj h
    exact ⟨p.locks, rfl, by simp⟩
  | cons key keys ih =>
    simp only [foldOk_cons, ok_iff, acquireLock] at h
    obtain ⟨_, ⟨_, -, inserted, hinsert, rfl⟩, hrest⟩ := h
    obtain ⟨locks, rfl, hlocks⟩ := ih hrest
    refine ⟨locks, rfl, fun lock => ?_⟩
    rw [hlocks, Table.mem_of_insert? hinsert, List.exists_mem_cons_iff, or_assoc]

/-- Lock keys that the table of locks accepts together. -/
def Storable (keys : List String) : Prop := keys.Nodup ∧ ∀ key ∈ keys, sqlText key = true

/-- Locks that are not there are acquired. -/
theorem exists_foldOk_acquireLock (owner : String) (hlease : nowMs < claimedUntil)
    (hkeys : Storable keys) (habsent : ∀ key ∈ keys, p.locks.find? key = none) :
    ∃ p', foldOk (acquireLock owner nowMs claimedUntil) p keys = .ok p' := by
  induction keys generalizing p with
  | nil => exact ⟨p, rfl⟩
  | cons key keys ih =>
    obtain ⟨hnodup, htext⟩ := hkeys
    obtain ⟨hnew, hnodup⟩ := List.nodup_cons.mp hnodup
    rw [List.forall_mem_cons] at htext habsent
    obtain ⟨locks, hinsert⟩ : ∃ locks, p.locks.insert? ⟨key, owner, nowMs, claimedUntil⟩ =
        some locks :=
      Table.exists_insert? habsent.1
    have hstep : acquireLock owner nowMs claimedUntil p key = .ok { p with locks } := by
      simp only [acquireLock, ensure_of (And.intro htext.1 hlease), hinsert, ok_bind, require_some]
      rfl
    rw [foldOk_cons, hstep, ok_bind]
    refine ih ⟨hnodup, htext.2⟩ fun other hother => ?_
    rw [Table.find?_of_insert? hinsert, if_neg]
    · exact habsent.2 other hother
    · rintro rfl
      exact hnew hother

/-- A claim is written with the locks of its item. -/
theorem Locked.takeClaim (h : Locked p) {item : QueueItemRow} (hitem : item ∈ p.queueItems)
    {workerName token : String}
    (htake : takeClaim p item workerName token nowMs claimedUntil = .ok p') : Locked p' := by
  simp only [Zeta.takeClaim, insertClaim, ok_iff] at htake
  obtain ⟨_, ⟨_, -, _, hfresh, claims, hinsert, rfl⟩, hacquire⟩ := htake
  obtain ⟨locks, rfl, hlocks⟩ := foldOk_acquireLock hacquire
  have hmem := fun claim => Table.mem_of_insert? (x := claim) hinsert
  have hfree : ∀ lock ∈ p.locks, lock.owner ≠ token := by
    intro lock hlock heq
    obtain ⟨claim, hclaim, hown, -⟩ := h.owned lock hlock
    exact hfresh claim hclaim (hown.trans heq)
  refine ⟨?_, ?_, ?_⟩
  · intro a ha b hb heq
    rcases (hmem a).mp ha with ha | rfl
    · rcases (hmem b).mp hb with hb | rfl
      · exact h.token a ha b hb heq
      · exact absurd heq (hfresh a ha)
    · rcases (hmem b).mp hb with hb | rfl
      · exact absurd heq.symm (hfresh b hb)
      · rfl
  · intro lock hlock
    rcases (hlocks lock).mp hlock with hold | ⟨key, -, rfl⟩
    · obtain ⟨claim, hclaim, hown⟩ := h.owned lock hold
      exact ⟨claim, (hmem claim).mpr (.inl hclaim), hown⟩
    · exact ⟨_, (hmem _).mpr (.inr rfl), rfl, rfl⟩
  · intro claim hclaim
    rcases (hmem claim).mp hclaim with hold | rfl
    · obtain ⟨row, hrow, hkeys⟩ := h.held claim hold
      refine ⟨row, hrow, fun key => (hkeys key).trans ⟨?_, ?_⟩⟩
      · rintro ⟨lock, hlock, hkey, howner⟩
        exact ⟨lock, (hlocks lock).mpr (.inl hlock), hkey, howner⟩
      · rintro ⟨lock, hlock, hkey, howner⟩
        rcases (hlocks lock).mp hlock with hlock | ⟨key', -, rfl⟩
        · exact ⟨lock, hlock, hkey, howner⟩
        · exact absurd howner.symm (hfresh claim hold)
    · refine ⟨item, Table.find?_of_mem hitem, fun key => ⟨fun hkey => ?_, ?_⟩⟩
      · exact ⟨_, (hlocks _).mpr (.inr ⟨key, hkey, rfl⟩), rfl, rfl⟩
      · rintro ⟨lock, hlock, rfl, howner⟩
        rcases (hlocks lock).mp hlock with hlock | ⟨key', hkey', rfl⟩
        · exact absurd howner (hfree lock hlock)
        · exact hkey'

/-- Locks that are free now are not there, once the claims that expired are gone. -/
theorem locks_absent_of_available (h : Locked p)
    (hlive : ∀ claim ∈ p.queueClaims, nowMs < claim.claimedUntil)
    (hfree : locksAreAvailable p keys nowMs = true) {key : String} (hkey : key ∈ keys) :
    p.locks.find? key = none := by
  refine Table.find?_eq_none_iff.mpr fun lock hlock heq => ?_
  obtain ⟨claim, hclaim, -, huntil⟩ := h.owned lock hlock
  simp only [locksAreAvailable, List.all_eq_true, Bool.not_eq_true', Bool.and_eq_false_imp,
    decide_eq_true_eq, decide_eq_false_iff_not] at hfree
  exact hfree key hkey lock hlock heq (huntil ▸ hlive claim hclaim)

/-! ### Facts -/

/-- A fact leaves the lock keys of claimed items alone: it declares none, or it is about an event
that no claimed item is for. -/
def Event.SparesLocks (event : Event) (p : Projections) : Prop :=
  event.payload.get "lock_keys" = none ∨
    ∀ claim ∈ p.queueClaims, ∀ row, p.queueItems.find? claim.queueItemId = some row →
      event.payload.text "event_id" ≠ some row.eventId

theorem QueueFact.lockKeys_eq [FloatText] (h : readQueueFact event = .ok fact) :
    optionalPayloadStringArray event "lock_keys" = .ok fact.lockKeys := by
  simp only [readQueueFact, ok_iff] at h
  obtain ⟨_, -, _, -, _, -, _, -, _, -, _, -, _, -, _, -, keys, hkeys, _, -, _, -, rfl⟩ := h
  exact hkeys

theorem lockKeys_of_readQueueFact [FloatText] (h : readQueueFact event = .ok fact)
    (hnone : event.payload.get "lock_keys" = none) : fact.lockKeys = none := by
  have hkeys := QueueFact.lockKeys_eq h
  rw [optionalPayloadStringArray, hnone] at hkeys
  exact (Except.ok.inj hkeys).symm

theorem Locked.deleteQueueItem (h : Locked p) (queueItemId : String) :
    Locked (p.deleteQueueItem queueItemId) := by
  refine (h.deleteClaimsWhere fun claim => claim.queueItemId = queueItemId).congr_items rfl rfl ?_
  intro claim hclaim row hrow
  obtain ⟨-, hother⟩ := Table.mem_deleteWhere.mp hclaim
  refine ⟨row, ?_, rfl⟩
  have hkey := Table.key_of_find? hrow
  change (p.queueItems.deleteWhere _).find? _ = _
  rw [Table.find?_deleteWhere, show p.queueItems.find? claim.queueItemId = some row from hrow]
  have hne : row.queueItemId ≠ queueItemId := by
    rw [hkey]
    simpa using hother
  simp [Option.filter, hne]

section

variable [Platform] {journal : List JournalEntry} {event : Event} {p p' : Projections}

/-- What a queue fact does to a claimed item: nothing, or it is about the event of the item. -/
theorem Locked.claimed_of_queueFact (h : Locked p) (hindex : indexEvent journal event p = .ok p')
    (hkind : eventKind event.eventType = .queueItem) :
    ∃ fact closed, readQueueFact event = .ok fact ∧ Locked closed ∧
      p'.queueClaims = closed.queueClaims ∧ p'.locks = closed.locks ∧
      ∀ claim ∈ closed.queueClaims, claim ∈ p.queueClaims ∧
        ∀ row, closed.queueItems.find? claim.queueItemId = some row →
          p.queueItems.find? claim.queueItemId = some row ∧
          (p'.queueItems.find? claim.queueItemId = some row ∨ row.eventId = fact.eventId ∧
            ∃ cursor,
              p'.queueItems.find? claim.queueItemId = some (fact.row cursor (some row))) := by
  simp only [indexEvent, hkind, indexQueueItem_ok_iff] at hindex
  obtain ⟨fact, hread, closed, hclosed, hidentity, -, -, -, cursor, -, -, rfl⟩ := hindex
  have hlocked : Locked closed ∧ ∀ claim ∈ closed.queueClaims, claim ∈ p.queueClaims := by
    rcases closePendingRouteBarrier_ok_iff.mp hclosed with ⟨-, rfl⟩ | ⟨-, -, rfl⟩
    · exact ⟨h, fun _ => id⟩
    · exact ⟨h.deleteQueueItem _, fun claim hclaim => (Table.mem_deleteWhere.mp hclaim).1⟩
  refine ⟨fact, closed, hread, hlocked.1, rfl, rfl, fun claim hclaim =>
    ⟨hlocked.2 claim hclaim, fun row hrow => ⟨?_, ?_⟩⟩⟩
  · rcases find?_of_closePendingRouteBarrier hclosed claim.queueItemId with hsame | ⟨-, -, hnone⟩
    · exact hsame.symm.trans hrow
    · exact absurd (hrow.symm.trans hnone) (by simp)
  · have hkey : (fact.row cursor (closed.queueItems.find? fact.queueItemId)).queueItemId
        = fact.queueItemId := by
      cases closed.queueItems.find? fact.queueItemId <;> rfl
    rw [Projections.upsertQueueItem, Table.find?_upsert, hkey]
    split
    · next heq =>
      rw [← heq] at hrow
      rw [hrow] at hidentity ⊢
      exact .inr ⟨(hidentity row rfl).1, cursor, rfl⟩
    · exact .inl hrow

theorem Locked.queueFact (h : Locked p) (hkind : eventKind event.eventType = .queueItem)
    (hindex : indexEvent journal event p = .ok p') (hspares : event.SparesLocks p) : Locked p' := by
  obtain ⟨fact, closed, hread, hclosed, hclaims, hlocks, hitems⟩ := h.claimed_of_queueFact hindex
    hkind
  refine hclosed.congr_items hclaims hlocks fun claim hclaim row hrow => ?_
  obtain ⟨hclaim_p, hrows⟩ := hitems claim hclaim
  obtain ⟨hrow_p, hsame | ⟨hevent, cursor, hmoved⟩⟩ := hrows row hrow
  · exact ⟨row, hsame, rfl⟩
  · refine ⟨_, hmoved, ?_⟩
    rcases hspares with hnone | hother
    · rw [QueueFact.row, lockKeys_of_readQueueFact hread hnone]
      rfl
    · exact absurd ((readQueueFact_reads hread).eventId.trans (by rw [hevent]))
        (hother claim hclaim_p row hrow_p)

/-- A fact that leaves the lock keys of claimed items alone keeps locks with claims. -/
theorem Locked.indexEvent (h : Locked p) (hindex : Zeta.indexEvent journal event p = .ok p')
    (hspares : eventKind event.eventType = .queueItem → event.SparesLocks p) : Locked p' := by
  cases hkind : eventKind event.eventType with
  | queueItem => exact h.queueFact hkind hindex (hspares hkind)
  | cancelRequested =>
    simp only [Zeta.indexEvent, hkind, indexQueueItemCancelRequested, ok_iff] at hindex
    obtain ⟨_, -, _, -, _, -, _, -, _, -, _, -, _, -, rfl⟩ := hindex
    exact h.updateItems fun _ => rfl
  | attempt =>
    simp only [Zeta.indexEvent, hkind, indexAttempt_ok_iff] at hindex
    obtain ⟨fact, -, happlies⟩ := hindex
    have hwritten (row : AttemptRow) : Locked (p.upsertAttempt row) :=
      h.congr_items rfl rfl fun _ _ row hrow => ⟨row, hrow, rfl⟩
    rw [happlies.result, raiseAttemptCount]
    split
    · exact (hwritten _).updateItems fun _ => rfl
    · exact hwritten _
  | ingress =>
    simp only [Zeta.indexEvent, hkind, indexPendingQueueItem_ok_iff] at hindex
    obtain ⟨cursor, -, -, -, -, ⟨-, rfl⟩ | ⟨hnone, -, rfl⟩⟩ := hindex
    · exact h
    · refine h.congr_items rfl rfl fun claim _ row hrow => ⟨row, ?_, rfl⟩
      rw [Table.find?_upsert, if_neg]
      · exact hrow
      · rintro heq
        rw [← heq] at hrow
        exact absurd (hrow.symm.trans hnone) (by simp)
  | effect | wait | deferredPublication =>
    have hframe := indexEvent_frame hindex
    rw [hkind] at hframe
    obtain ⟨_, rfl⟩ := hframe
    exact h.congr_items rfl rfl fun _ _ row hrow => ⟨row, hrow, rfl⟩
  | unprojected =>
    have hframe := indexEvent_frame hindex
    rw [hkind] at hframe
    obtain rfl : p' = p := hframe
    exact h

/-! ### What items declare -/

/-- The lock keys of every item can be stored. -/
def Projections.DeclaresLocks (p : Projections) :
    Prop := ∀ row ∈ p.queueItems, Storable row.lockKeys

/-- The lock keys of a fact are texts that the table of locks accepts. -/
def Event.DeclaresLocks (event : Event) : Prop :=
  ∀ keys : List String, event.payload.get "lock_keys" = some (.array (keys.map .string)) →
    ∀ key ∈ keys, sqlText key = true

omit [Platform] in
theorem storable_nil : Storable [] := ⟨List.nodup_nil, by simp⟩

theorem QueueFact.storable (h : readQueueFact event = .ok fact) (hevent : event.DeclaresLocks)
    {kept : List String} (hkept : Storable kept) : Storable (fact.lockKeys.getD kept) := by
  have hkeys := QueueFact.lockKeys_eq h
  cases hlocks : fact.lockKeys with
  | none => exact hkept
  | some keys =>
    rw [hlocks] at hkeys
    obtain ⟨hget, hnodup⟩ := optionalPayloadStringArray_some hkeys
    exact ⟨hnodup, hevent keys hget⟩

/-- A fact whose lock keys can be stored leaves items whose lock keys can be stored. -/
theorem DeclaresLocks.indexEvent (h : p.DeclaresLocks)
    (hindex : Zeta.indexEvent journal event p = .ok p')
    (hevent : eventKind event.eventType = .queueItem → event.DeclaresLocks) : p'.DeclaresLocks := by
  intro row hrow
  rcases mem_of_indexEvent hindex hrow with ⟨old, hold, _, _, _, _, rfl⟩ | ⟨cursor, rfl⟩ |
    ⟨hkind, fact, cursor, previous, hread, hprevious, -, rfl⟩
  · exact h old hold
  · exact storable_nil
  · cases previous with
    | none => exact QueueFact.storable hread (hevent hkind) storable_nil
    | some old => exact QueueFact.storable hread (hevent hkind) (h old (hprevious old rfl))

end

end Zeta
