import Mathlib.Data.List.ReduceOption
import ZetaRuntime.Guarantee.Cancellation
import ZetaRuntime.Guarantee.Names
import ZetaRuntime.Guarantee.Sessions

/-!
# One routing decision

An event is routed once. The facts of a decision are recorded together while the unbound item of the
event is pending, and from then on it is not. A later call compares the facts it would record with
those under the same keys: if they are all there and say the same, it returns them.

That is not quite the comparison of two decisions. A fan-out to some of the agents of an earlier
fan-out has all its facts there, and is taken for a repetition of it.

## Main results

* `Settled.retains_iff` — when a later decision is taken for a repetition
* `records_of_routeIngressEvent`, `Records.settled` — a decision is recorded, and stays the only one
* `decidedOnce_of_routed` — an event is routed once
-/

namespace Zeta

open Outcome

variable {candidate : Event} {candidates retained : List Event} {fields' : QueueLifecycleFields}
  {outcome : RoutingOutcome} {key : String}

variable {input : Event} {entry : JournalEntry} {journal : List JournalEntry} {d : RouteDecision}

/-! ### The facts of a decision -/

/-- What is said about the unbound item when it is not bound. -/
def closingFields (input : Event) (status : QueueItemStatus) : QueueLifecycleFields where
  queueItemId := pendingQueueItemId input.id
  targetAgent := ""
  status := status
  sessionId := none
  projectRevision := none
  lockKeys := []

/-- What is said about the item of an agent. -/
def RouteDecision.fields (decision : RouteDecision) : QueueLifecycleFields where
  queueItemId := decision.queueItemId
  targetAgent := decision.agentId
  status := .available
  sessionId := some decision.sessionId
  projectRevision := decision.projectRevision
  lockKeys := decision.lockKeys

/-- What the facts of a decision say, in journal order. -/
def planFields (input : Event) : List RouteDecision → List QueueLifecycleFields
  | [] => [closingFields input .unhandled]
  | [decision] => [{ decision.fields with queueItemId := pendingQueueItemId input.id }]
  | decisions => closingFields input .completed :: decisions.map RouteDecision.fields

/-- How many identities a decision needs. -/
def planLength (decisions : List RouteDecision) : ℕ :=
  if decisions.length > 1 then decisions.length + 1 else 1

theorem length_planFields (input : Event) (decisions : List RouteDecision) :
    (planFields input decisions).length = planLength decisions := by
  match decisions with
  | [] | [_] => rfl
  | _ :: _ :: _ => simp [planFields, planLength]

theorem lifecycleForRoute_eq (input : Event) {decisions : List RouteDecision}
    {identities : List RuntimeEventIdentity} (h : identities.length = planLength decisions) :
    lifecycleForRoute input decisions identities
      = List.zipWith (fun identity => queueLifecycleEvent identity input) identities
        (planFields input decisions) := by
  match decisions, identities with
  | [], [_] | [_], [_] => rfl
  | first :: second :: decisions, identity :: identities =>
    rw [lifecycleForRoute, planFields, List.zipWith_cons_cons, List.zipWith_map_right]
    · rfl
    · simp
    · simp
    · simp
    · simp
  | [], [] | [_], [] | _ :: _ :: _, [] => simp [planLength] at h
  | [], _ :: _ :: _ | [_], _ :: _ :: _ => simp [planLength] at h

/-! ### Facts in the journal -/

theorem plain_queueLifecycleEvent [FloatText] (identity : RuntimeEventIdentity) (input : Event)
    (fields : QueueLifecycleFields) :
    ∀ p ∈ (queueLifecycleEvent identity input fields).payload, p.2.Plain := by
  have hoptional : ∀ key text, ∀ p ∈ optionalField key text, p.2.Plain := by
    rintro key (_ | text) p hp
    · cases hp
    · rw [List.mem_singleton.mp hp]
      exact Value.plain_string text
  intro p hp
  simp only [queueLifecycleEvent, List.mem_append] at hp
  rcases hp with ((hp | hp) | hp) | hp
  · simp only [List.mem_cons, List.not_mem_nil, or_false] at hp
    rcases hp with rfl | rfl | rfl | rfl <;> exact Value.plain_string _
  · exact hoptional _ _ p hp
  · exact hoptional _ _ p hp
  · split at hp
    · cases hp
    · rw [List.mem_singleton.mp hp]
      exact Value.plain_texts _

theorem get_lockKeys (locks : List String) (k : String) :
    Map.get (if locks = [] then [] else [("lock_keys", Value.array (locks.map Value.string))]) k
      = if "lock_keys" = k ∧ locks ≠ [] then some (.array (locks.map Value.string)) else none := by
  by_cases hlocks : locks = []
  · simp [hlocks]
  · simp [hlocks]

/-- Facts that say the same are about the same. -/
theorem fields_eq_of_get {identity identity' : RuntimeEventIdentity} {fields : QueueLifecycleFields}
    (hstatus : fields.status = fields'.status)
    (h : ∀ key, (queueLifecycleEvent identity input fields).payload.get key =
      (queueLifecycleEvent identity' input fields').payload.get key) : fields = fields' := by
  simp only [queueLifecycleEvent, Map.get_append, Map.get_cons, Map.get_nil, get_optionalField,
    get_lockKeys] at h
  have hitem : fields.queueItemId = fields'.queueItemId := by
    simpa using h "queue_item_id"
  have hagent : fields.targetAgent = fields'.targetAgent := by
    simpa using h "target_agent"
  have hsession : fields.sessionId = fields'.sessionId := by
    have hmap := h "session_id"
    simp only [String.reduceEq, if_false, if_true, false_and, Option.none_or,
      Option.or_none] at hmap
    exact Option.map_injective (fun _ _ => Value.string.inj) hmap
  have hrevision : fields.projectRevision = fields'.projectRevision := by
    have hmap := h "project_revision"
    simp only [String.reduceEq, if_false, if_true, false_and, Option.none_or,
      Option.or_none] at hmap
    exact Option.map_injective (fun _ _ => Value.string.inj) hmap
  have hlocks : fields.lockKeys = fields'.lockKeys := by
    have hif := h "lock_keys"
    simp only [String.reduceEq, if_false, true_and, Option.none_or] at hif
    have hinj : Function.Injective (List.map Value.string) :=
      List.map_injective_iff.mpr fun _ _ => Value.string.inj
    split at hif <;> split at hif <;> simp_all [hinj.eq_iff]
  obtain ⟨q, a, status, session, revision, locks⟩ := fields
  simp_all

theorem depthFields_le {m : Map} {n : ℕ} (h : ∀ p ∈ m, p.2.depth ≤ n) :
    Value.depthFields m ≤ n := by
  induction m with
  | nil => exact n.zero_le
  | cons field m ih =>
    obtain ⟨hfield, hm⟩ := List.forall_mem_cons.mp h
    exact Nat.max_le.mpr ⟨hfield, ih hm⟩

theorem depth_texts (texts : List String) : (Value.array (texts.map .string)).depth = 1 := by
  have hzero : Value.depthList (texts.map .string) = 0 := by
    induction texts with
    | nil => rfl
    | cons text texts ih => simpa [Value.depthList, Value.depth] using ih
  rw [Value.depth, hzero]

/-- The facts of a decision can be read. -/
theorem readable_queueLifecycleEvent (identity : RuntimeEventIdentity) (input : Event)
    (fields : QueueLifecycleFields) :
    readable (Map.sortKeys (queueLifecycleEvent identity input fields).payload) = true := by
  have hdepth : Value.depthFields (Map.sortKeys (queueLifecycleEvent identity input fields).payload)
      ≤ 1 := by
    refine depthFields_le fun p hp => ?_
    have hp := (Map.sortKeys_perm _).mem_iff.mp hp
    simp only [queueLifecycleEvent, List.mem_append, List.mem_cons, List.not_mem_nil,
      or_false] at hp
    rcases hp with (((rfl | rfl | rfl | rfl) | hp) | hp) | hp
    all_goals try exact Nat.zero_le 1
    · cases hsession : fields.sessionId <;> simp_all [optionalField, Value.depth]
    · cases hrevision : fields.projectRevision <;> simp_all [optionalField, Value.depth]
    · split at hp
      · cases hp
      · rw [List.mem_singleton.mp hp, depth_texts]
  exact decide_eq_true (Nat.lt_of_le_of_lt (Nat.succ_le_succ hdepth) (by decide))

section

variable [Platform]

/-- What an entry that holds a fact of a decision repeats. -/
theorem JournalEntry.Holds.repeats_iff {identity : RuntimeEventIdentity}
    {fields : QueueLifecycleFields} (h : entry.Holds (queueLifecycleEvent identity input fields))
    (identity' : RuntimeEventIdentity) :
    sameLifecycleIntention (queueLifecycleEvent identity' input fields') entry.event = true ↔
      fields' = fields := by
  have hplain := plain_queueLifecycleEvent identity input fields
  have hplain' := plain_queueLifecycleEvent identity' input fields'
  have hsorted : ∀ p ∈ Map.sortKeys (queueLifecycleEvent identity input fields).payload,
      p.2.Plain :=
    fun p hp => hplain p ((Map.sortKeys_perm _).mem_iff.mp hp)
  obtain ⟨-, cursor, bytes, hbytes, hevent⟩ := h
  obtain rfl : Map.sortKeys _ = bytes := Except.ok.inj
    ((canonicalPayload_of_plain hplain).symm.trans hbytes)
  have htwice : Map.sortKeys (Map.sortKeys (queueLifecycleEvent identity input fields).payload)
      = Map.sortKeys (queueLifecycleEvent identity input fields).payload :=
    Map.sortKeys_of_sorted (Map.pairwise_sortKeys _)
  rw [hevent]
  simp only [sameLifecycleIntention, Bool.and_eq_true, decide_eq_true_eq,
    Map.same_iff_of_plain hplain' hsorted, htwice]
  constructor
  · rintro ⟨⟨⟨⟨⟨⟨⟨htype, -⟩, hpayload⟩, -⟩, -⟩, -⟩, -⟩, -⟩
    have hdisplay : fields'.status.display = fields.status.display := by
      simpa [queueLifecycleEvent] using htype
    have hstatus : fields'.status = fields.status := by
      simpa using congrArg QueueItemStatus.fromStr hdisplay
    have hget : ∀ key, (queueLifecycleEvent identity' input fields').payload.get key
        = (queueLifecycleEvent identity input fields).payload.get key := by
      intro key
      rw [← Map.get_sortKeys, hpayload, Map.get_sortKeys]
    exact fields_eq_of_get hstatus hget
  · rintro rfl
    exact ⟨⟨⟨⟨⟨⟨⟨rfl, rfl⟩, rfl⟩, rfl⟩, rfl⟩, rfl⟩, rfl⟩, rfl⟩

/-- An entry that holds a fact of a decision can be read. -/
theorem JournalEntry.Holds.readable {identity : RuntimeEventIdentity}
    {fields : QueueLifecycleFields} (h : entry.Holds (queueLifecycleEvent identity input fields)) :
    Zeta.readable entry.payloadBytes = true := by
  obtain ⟨hpayload, cursor, bytes, hbytes, hevent⟩ := h
  obtain rfl : Map.sortKeys _ = bytes :=
    Except.ok.inj
      ((canonicalPayload_of_plain (plain_queueLifecycleEvent identity input fields)).symm.trans
      hbytes)
  rw [← hpayload, hevent]
  exact readable_queueLifecycleEvent identity input fields

/-! ### Looking a decision up -/

/-- In a sound journal, the entry with a key is the one a lookup finds. -/
theorem entryByIdempotencyKey_of_mem (hs : Sound journal) (hentry : entry ∈ journal)
    (hkey : entry.event.idempotencyKey = some key) (hread : readable entry.payloadBytes = true) :
    entryByIdempotencyKey journal key = .ok (some entry) := by
  have hfind : journal.find? (fun other => other.event.idempotencyKey = some key) = some entry := by
    cases hfound : journal.find? fun other => other.event.idempotencyKey = some key with
    | none => exact absurd (decide_eq_true hkey) (List.find?_eq_none.mp hfound entry hentry)
    | some other =>
      have hother : other.event.idempotencyKey = some key := by simpa using List.find?_some hfound
      rw [hs.eq_of_key (List.mem_of_find?_eq_some hfound) hentry hother hkey]
  rw [entryByIdempotencyKey, hfind]
  exact decodeFound_ok_iff.mpr ⟨rfl, by rintro _ ⟨⟩; exact hread⟩

end

theorem retainedRoutingEvent_ok_iff (hkey : candidate.idempotencyKey = some key)
    {found : Option Event} :
    retainedRoutingEvent journal candidate = .ok found ↔
      ∃ entry, entryByIdempotencyKey journal key = .ok entry ∧
        (∀ retained ∈ entry, sameLifecycleIntention candidate retained.event = true) ∧
        entry.map (·.event) = found := by
  simp [retainedRoutingEvent, hkey, bind_ok_iff, require]

theorem retainedEvents_spec {found : List (Option Event)}
    (h : retainedEvents journal candidates = .ok found) :
    found.reduceOption.length ≤ candidates.length ∧
      (found.reduceOption = [] → ∀ c ∈ candidates, retainedRoutingEvent journal c = .ok none) ∧
      (found.reduceOption.length = candidates.length →
        ∀ c ∈ candidates, ∃ event, retainedRoutingEvent journal c = .ok (some event)) := by
  induction candidates generalizing found with
  | nil =>
    obtain rfl : [] = found := Except.ok.inj h
    simp
  | cons candidate candidates ih =>
    simp only [retainedEvents, ok_iff] at h
    obtain ⟨event, hevent, rest, hrest, rfl⟩ := h
    obtain ⟨hlength, hnone, hall⟩ := ih hrest
    cases event with
    | none =>
      rw [List.reduceOption_cons_of_none, List.forall_mem_cons, List.length_cons]
      refine ⟨by omega, fun hempty => ⟨hevent, hnone hempty⟩, fun heq => ?_⟩
      omega
    | some event =>
      rw [List.reduceOption_cons_of_some, List.forall_mem_cons, List.length_cons, List.length_cons]
      refine ⟨by omega, fun hempty => absurd hempty (List.cons_ne_nil _ _), fun heq => ?_⟩
      exact List.forall_mem_cons.mpr ⟨⟨event, hevent⟩, hall (by omega)⟩

/-- A decision counts as recorded if all its facts are retained, and as new if none is. -/
theorem retainedRoutingEvents_ok {events : Option (List Event)}
    (h : retainedRoutingEvents journal candidates = .ok events) :
    (events = none ∧ ∀ c ∈ candidates, retainedRoutingEvent journal c = .ok none) ∨
      events.isSome = true ∧ ∀ c ∈ candidates, ∃ event,
        retainedRoutingEvent journal c = .ok (some event) := by
  simp only [retainedRoutingEvents, bind_ok_iff] at h
  obtain ⟨found, hfound, h⟩ := h
  obtain ⟨-, hnone, hall⟩ := retainedEvents_spec hfound
  split at h
  · next hempty => exact .inl ⟨(Except.ok.inj h).symm, hnone hempty⟩
  · simp only [ok_iff] at h
    obtain ⟨_, hlength, rfl⟩ := h
    exact .inr ⟨rfl, hall hlength⟩

theorem retainedEvents_of_forall
    (h : ∀ c ∈ candidates, ∃ event, retainedRoutingEvent journal c = .ok (some event)) :
    ∃ events : List Event, retainedEvents journal candidates = .ok (events.map some) ∧
      events.length = candidates.length ∧
      ∀ event ∈ events, ∃ c ∈ candidates, retainedRoutingEvent journal c = .ok (some event) := by
  induction candidates with
  | nil => exact ⟨[], rfl, rfl, by simp⟩
  | cons candidate candidates ih =>
    obtain ⟨⟨event, hevent⟩, hrest⟩ := List.forall_mem_cons.mp h
    obtain ⟨events, hevents, hlength, hfrom⟩ := ih hrest
    refine ⟨event :: events, ?_, by simp [hlength], ?_⟩
    · rw [retainedEvents, hevent, ok_bind, hevents, ok_bind]
      rfl
    · refine List.forall_mem_cons.mpr
        ⟨⟨candidate, .head _, hevent⟩, fun other hother => ?_⟩
      obtain ⟨c, hc, hcother⟩ := hfrom other hother
      exact ⟨c, .tail _ hc, hcother⟩

/-- A decision whose facts are all retained is found. -/
theorem retainedRoutingEvents_of_forall (hne : candidates ≠ [])
    (h : ∀ c ∈ candidates, ∃ event, retainedRoutingEvent journal c = .ok (some event)) :
    ∃ events, retainedRoutingEvents journal candidates = .ok (some events) ∧
      ∀ event ∈ events, ∃ c ∈ candidates, retainedRoutingEvent journal c = .ok (some event) := by
  obtain ⟨events, hevents, hlength, hfrom⟩ := retainedEvents_of_forall h
  have hreduce : (events.map some).reduceOption = events := by
    simp [List.reduceOption, List.filterMap_map]
  have hsome : events ≠ [] := by
    rintro rfl
    exact hne (List.length_eq_zero_iff.mp hlength.symm)
  refine ⟨events, ?_, hfrom⟩
  rw [retainedRoutingEvents, hevents, ok_bind, hreduce, if_neg hsome]
  simp [ensure, hlength]

/-! ### Comparing decisions -/

section

variable [Platform] {input : Event} {routes routes' : List Route}
  {decisions again : List RouteDecision}

/-- A decision for one agent takes over the unbound item. -/
theorem queueItemId_of_single {decision : RouteDecision}
    (h : routeEvent input routes = .ok [decision]) :
    decision.queueItemId = pendingQueueItemId input.id := by
  simp only [routeEvent, ok_iff] at h
  obtain ⟨all, -, hall⟩ := h
  rcases all with _ | ⟨only, _ | ⟨next, all⟩⟩
  · cases hall
  · rw [bindSingle, List.singleton_inj] at hall
    rw [← hall]
  · cases hall

omit [Platform] in
theorem RouteDecision.fields_inj {e : RouteDecision} : d.fields = e.fields ↔ d = e := by
  constructor
  · intro h
    simp only [RouteDecision.fields, QueueLifecycleFields.mk.injEq, Option.some.injEq,
      true_and] at h
    obtain ⟨hitem, hagent, hsession, hrevision, hlocks⟩ := h
    cases d; cases e
    simp_all
  · rintro rfl
    rfl

omit [Platform] in
theorem RouteDecision.fields_ne_closing (d : RouteDecision) (status : QueueItemStatus) :
    d.fields ≠ closingFields input status := by
  simp [RouteDecision.fields, closingFields]

/-- The facts of a decision, if it is one for the event. -/
theorem planFields_of_routeEvent (h : routeEvent input routes = .ok decisions) :
    planFields input decisions = if decisions = [] then [closingFields input .unhandled]
      else if decisions.length = 1 then decisions.map RouteDecision.fields
      else closingFields input .completed :: decisions.map RouteDecision.fields := by
  match decisions, h with
  | [], _ => rfl
  | [decision], h =>
    have hitem := queueItemId_of_single h
    simp [planFields, RouteDecision.fields, hitem]
  | _ :: _ :: _, _ => simp [planFields]

theorem mem_planFields_iff (h : routeEvent input routes = .ok decisions) :
    d.fields ∈ planFields input decisions ↔ d ∈ decisions := by
  have hmap : d.fields ∈ decisions.map RouteDecision.fields ↔ d ∈ decisions := by
    simp [RouteDecision.fields_inj]
  rw [planFields_of_routeEvent h]
  split
  · next hnil => simp [hnil, RouteDecision.fields_ne_closing]
  · split
    · exact hmap
    · simp [RouteDecision.fields_ne_closing, RouteDecision.fields_inj]

theorem unhandled_mem_planFields_iff (h : routeEvent input routes = .ok decisions) :
    closingFields input .unhandled ∈ planFields input decisions ↔ decisions = [] := by
  have hmap : closingFields input .unhandled ∉ decisions.map RouteDecision.fields := by
    simp [RouteDecision.fields_ne_closing]
  rw [planFields_of_routeEvent h]
  split
  · next hnil => simp [hnil]
  · next hne =>
    split
    · simp [hne, hmap]
    · have hstatus : closingFields input .unhandled ≠ closingFields input .completed := by
        simp [closingFields]
      simp only [List.mem_cons, hstatus, hmap, hne, or_self]

/-- Whether everything a decision says has been said by another. -/
def Repeats (again decisions : List RouteDecision) : Prop :=
  (again = [] ∧ decisions = []) ∨ again ≠ [] ∧ again ⊆ decisions

/-- The facts of a decision are among those of another if and only if it repeats it. -/
theorem planFields_subset_iff (h : routeEvent input routes = .ok decisions)
    (h' : routeEvent input routes' = .ok again) :
    planFields input again ⊆ planFields input decisions ↔ Repeats again decisions := by
  constructor
  · intro hsub
    by_cases hnil : again = []
    · have hclosed : closingFields input .unhandled ∈ planFields input decisions :=
        hsub ((unhandled_mem_planFields_iff h').mpr hnil)
      exact .inl ⟨hnil, (unhandled_mem_planFields_iff h).mp hclosed⟩
    · exact .inr
        ⟨hnil, fun d hd => (mem_planFields_iff h).mp (hsub ((mem_planFields_iff h').mpr hd))⟩
  · rintro (⟨rfl, rfl⟩ | ⟨hne, hsub⟩)
    · exact List.Subset.refl _
    · have hoffers : again.map RouteDecision.fields ⊆ planFields input decisions := by
        intro fields hfields
        obtain ⟨d, hd, rfl⟩ := List.mem_map.mp hfields
        exact (mem_planFields_iff h).mpr (hsub hd)
      rw [planFields_of_routeEvent h', if_neg hne]
      split
      · exact hoffers
      · next hlength =>
        refine List.cons_subset.mpr ⟨?_, hoffers⟩
        -- The other decision is for several agents too: the items are not the unbound one.
        obtain ⟨d, rest, rfl⟩ := List.exists_cons_of_ne_nil hne
        have hd := hsub (.head _)
        have hitem := queueItemId_of_routeEvent h' hlength (.head _)
        have hmany : decisions.length ≠ 1 := by
          intro hone
          obtain ⟨only, rfl⟩ := List.length_eq_one_iff.mp hone
          rw [← List.mem_singleton.mp hd] at h
          exact queueItemId_ne_pendingQueueItemId _ _ (hitem.symm.trans (queueItemId_of_single h))
        rw [planFields_of_routeEvent h, if_neg (List.ne_nil_of_mem hd), if_neg hmany]
        exact .head _

/-! ### Later calls -/

/-- The store `t` after a decision was recorded between `s` and `s'`: its facts are among the
entries that were added then, and no other fact offers an item of the event or leaves it unhandled.
-/
structure Settled (s s' t : Store) (input : Event) (decisions : List RouteDecision) : Prop where
  sound : Sound t.journal
  found : ∃ entry, entryByEventId t.journal input.id = .ok (some entry) ∧ entry.event = input
  kept : ∀ entry ∈ s.added s', entry ∈ t.journal
  routed : ∀ it, t.work.items (pendingQueueItemId input.id) = some it → ¬it.Unrouted
  holds : ∀ fields ∈ planFields input decisions, ∃ entry ∈ s.added s', ∃ identity,
    entry.Holds (queueLifecycleEvent identity input fields)
  only : ∀ entry ∈ t.journal, ∀ identity fields,
    fields.status = .available ∨ fields.status = .unhandled →
    sameLifecycleIntention (queueLifecycleEvent identity input fields) entry.event = true →
    fields ∈ planFields input decisions

variable {s s' t : Store} {identities : List RuntimeEventIdentity}

/-- The identities that a call with a decision takes. -/
def Fit (identities : List RuntimeEventIdentity) (decisions : List RouteDecision) : Prop :=
  identities.length = planLength decisions ∧
    validateDistinctRuntimeIdentities identities [] = .ok ()

omit [Platform] in
/-- The events of a plan are its facts under the identities given. -/
theorem mem_lifecycleForRoute (h : identities.length = planLength decisions)
    (hc : candidate ∈ lifecycleForRoute input decisions identities) :
    ∃ identity, ∃ fields ∈ planFields input decisions,
      candidate = queueLifecycleEvent identity input fields := by
  rw [lifecycleForRoute_eq input h, ← List.map_uncurry_zip_eq_zipWith] at hc
  obtain ⟨⟨identity, fields⟩, hmem, rfl⟩ := List.mem_map.mp hc
  exact ⟨identity, fields, (List.of_mem_zip hmem).2, rfl⟩

omit [Platform] in
theorem exists_mem_lifecycleForRoute (h : identities.length = planLength decisions)
    {fields : QueueLifecycleFields} (hfields : fields ∈ planFields input decisions) :
    ∃ identity, queueLifecycleEvent identity input fields
      ∈ lifecycleForRoute input decisions identities := by
  rw [lifecycleForRoute_eq input h, ← List.map_uncurry_zip_eq_zipWith]
  have hsnd : ((identities.zip (planFields input decisions)).map Prod.snd)
      = planFields input decisions :=
    List.map_snd_zip (by rw [h, length_planFields])
  rw [← hsnd] at hfields
  obtain ⟨⟨identity, _⟩, hmem, rfl⟩ := List.mem_map.mp hfields
  exact ⟨identity, List.mem_map.mpr ⟨_, hmem, rfl⟩⟩

/-- A later call that returns returns retained facts. -/
theorem Settled.ok (h : Settled s s' t input decisions) {t' : Store}
    (hok : routeIngressEvent t input.id routes' identities = .ok (outcome, t')) :
    t' = t ∧ ∃ again, routeEvent input routes' = .ok again ∧ Fit identities again ∧
      ∀ c ∈ lifecycleForRoute input again identities, ∃ event,
        retainedRoutingEvent t.journal c = .ok (some event) := by
  obtain ⟨entry, hentry, rfl⟩ := h.found
  simp only [routeIngressEvent, ok_iff, hentry, mapError_ok_iff, Except.ok.injEq, exists_eq_left',
    Option.some.injEq] at hok
  obtain ⟨again, hagain, _, hlength, _, hdistinct, retained, hretained, hcommit⟩ := hok
  rcases retainedRoutingEvents_ok hretained with ⟨rfl, -⟩ | ⟨hsome, hall⟩
  · -- Nothing is pending any more.
    simp only [commitRoute, ok_iff] at hcommit
    obtain ⟨_, hpending, -⟩ := hcommit
    obtain ⟨row, hrow, hstatus⟩ := Option.map_eq_some_iff.mp hpending
    exact absurd (Prod.mk.inj hstatus) (h.routed _ (work_items_of_find? hrow))
  · obtain ⟨events, rfl⟩ := Option.isSome_iff_exists.mp hsome
    cases hcommit
    exact ⟨rfl, again, hagain, ⟨hlength, hdistinct⟩, hall⟩

/-- A fact of the decision is found where it was added. -/
theorem Settled.retains (h : Settled s s' t input decisions) {fields : QueueLifecycleFields}
    (hfields : fields ∈ planFields input decisions) (identity : RuntimeEventIdentity) :
    ∃ entry ∈ s.added s',
      retainedRoutingEvent t.journal (queueLifecycleEvent identity input fields)
        = .ok (some entry.event) := by
  obtain ⟨entry, hentry, first, hholds⟩ := h.holds fields hfields
  have hkey : entry.event.idempotencyKey
      = some (queueItemIdempotencyKey input.id fields.targetAgent fields.status) := by
    obtain ⟨-, cursor, hback⟩ := hholds
    exact hback.idempotencyKey_eq
  refine ⟨entry, hentry, (retainedRoutingEvent_ok_iff rfl).mpr ⟨some entry, ?_, ?_, rfl⟩⟩
  · exact entryByIdempotencyKey_of_mem h.sound (h.kept entry hentry) hkey hholds.readable
  · rintro _ ⟨⟩
    exact (hholds.repeats_iff identity).mpr rfl

/-- A retained fact that offers an item or leaves the event unhandled is one of the decision. -/
theorem Settled.mem_of_retained (h : Settled s s' t input decisions) {fields : QueueLifecycleFields}
    (hstatus : fields.status = .available ∨ fields.status = .unhandled)
    {identity : RuntimeEventIdentity} {event : Event}
    (hretained : retainedRoutingEvent t.journal (queueLifecycleEvent identity input fields)
      = .ok (some event)) : fields ∈ planFields input decisions := by
  obtain ⟨found, hfound, hsame, hevent⟩ := (retainedRoutingEvent_ok_iff rfl).mp hretained
  obtain ⟨entry, rfl, -⟩ := Option.map_eq_some_iff.mp hevent
  have hentry : entry ∈ t.journal := by
    obtain ⟨hfind, -⟩ := decodeFound_ok_iff.mp hfound
    exact List.mem_of_find?_eq_some hfind.symm
  exact h.only entry hentry identity fields hstatus (hsame entry rfl)

/-- All facts of a later decision are retained if and only if it repeats the one recorded. -/
theorem Settled.retains_iff (h : Settled s s' t input decisions)
    (hdecisions : routeEvent input routes = .ok decisions)
    (hagain : routeEvent input routes' = .ok again) (hfit : Fit identities again) :
    (∀ c ∈ lifecycleForRoute input again identities, ∃ event,
      retainedRoutingEvent t.journal c = .ok (some event)) ↔ Repeats again decisions := by
  constructor
  · intro hall
    have hmem : ∀ fields ∈ planFields input again,
        fields.status = .available ∨ fields.status = .unhandled →
        fields ∈ planFields input decisions := by
      intro fields hfields hstatus
      obtain ⟨identity, hc⟩ := exists_mem_lifecycleForRoute hfit.1 hfields
      obtain ⟨event, hevent⟩ := hall _ hc
      exact h.mem_of_retained hstatus hevent
    by_cases hnil : again = []
    · refine .inl ⟨hnil, (unhandled_mem_planFields_iff hdecisions).mp (hmem _ ?_ (.inr rfl))⟩
      exact (unhandled_mem_planFields_iff hagain).mpr hnil
    · refine .inr ⟨hnil, fun d hd => (mem_planFields_iff hdecisions).mp (hmem _ ?_ (.inl rfl))⟩
      exact (mem_planFields_iff hagain).mpr hd
  · intro hrepeats c hc
    obtain ⟨identity, fields, hfields, rfl⟩ := mem_lifecycleForRoute hfit.1 hc
    have hsub := (planFields_subset_iff hdecisions hagain).mpr hrepeats
    obtain ⟨entry, -, hretained⟩ := h.retains (hsub hfields) identity
    exact ⟨entry.event, hretained⟩

/-- Two decisions for the same agents, in the same way. -/
def SameDecision (again decisions : List RouteDecision) : Prop := ∀ d, d ∈ again ↔ d ∈ decisions

/-- A decision for some of the agents of another. -/
def PartOf (again decisions : List RouteDecision) : Prop :=
  again ≠ [] ∧ again ⊆ decisions ∧ ¬decisions ⊆ again

omit [Platform] in
theorem repeats_iff :
    Repeats again decisions ↔ SameDecision again decisions ∨ PartOf again decisions := by
  constructor
  · rintro (⟨rfl, rfl⟩ | ⟨hne, hsub⟩)
    · exact .inl fun _ => Iff.rfl
    · by_cases hsup : decisions ⊆ again
      · exact .inl fun d => ⟨fun hd => hsub hd, fun hd => hsup hd⟩
      · exact .inr ⟨hne, hsub, hsup⟩
  · rintro (hsame | ⟨hne, hsub, -⟩)
    · by_cases hnil : again = []
      · subst hnil
        exact .inl ⟨rfl, List.eq_nil_iff_forall_not_mem.mpr fun d hd => by
          simpa using (hsame d).mpr hd⟩
      · exact .inr ⟨hnil, fun d hd => (hsame d).mp hd⟩
    · exact .inr ⟨hne, hsub⟩

/-- What becomes of calls for an event in the store `t`, after a decision was recorded between `s`
and `s'`. -/
structure DecidedOnce (s s' t : Store) (input : Event) (decisions : List RouteDecision) : Prop where
  /-- No call records anything. -/
  unchanged : ∀ routes identities, apply t (.route input.id routes identities) = t
  /-- A call with the same decision returns facts that were recorded for it. -/
  repeated : ∀ routes identities again, routeEvent input routes = .ok again → Fit identities again →
    SameDecision again decisions → ∃ events,
      routeIngressEvent t input.id routes identities = .ok (⟨again, events⟩, t) ∧
        ∀ event ∈ events, ∃ entry ∈ s.added s', event = entry.event
  /-- A call with another decision fails, unless it is for some of the agents. -/
  different : ∀ routes identities again, routeEvent input routes = .ok again →
    ¬SameDecision again decisions → ¬PartOf again decisions →
    ∃ error, routeIngressEvent t input.id routes identities = .error error

/-- A call with a decision that repeats the one recorded returns its facts. -/
theorem Settled.ok_of_repeats (h : Settled s s' t input decisions)
    (hdecisions : routeEvent input routes = .ok decisions)
    (hagain : routeEvent input routes' = .ok again) (hfit : Fit identities again)
    (hrepeats : Repeats again decisions) :
    ∃ events, routeIngressEvent t input.id routes' identities = .ok (⟨again, events⟩, t) ∧
      ∀ event ∈ events, ∃ entry ∈ s.added s', event = entry.event := by
  have hne : lifecycleForRoute input again identities ≠ [] := by
    have hpos : 0 < planLength again := by
      unfold planLength
      split <;> omega
    rw [lifecycleForRoute_eq input hfit.1, ← List.length_pos_iff, List.length_zipWith,
      length_planFields, hfit.1, Nat.min_self]
    exact hpos
  obtain ⟨events, hevents, hfrom⟩ := retainedRoutingEvents_of_forall hne
    ((h.retains_iff hdecisions hagain hfit).mpr hrepeats)
  refine ⟨events, ?_, fun event hevent => ?_⟩
  · obtain ⟨entry, hentry, rfl⟩ := h.found
    simp only [routeIngressEvent, ok_iff, hentry, mapError_ok_iff, Except.ok.injEq, exists_eq_left',
      Option.some.injEq]
    exact ⟨again, hagain, (), hfit.1, (), hfit.2, some events, hevents, rfl⟩
  · obtain ⟨c, hc, hretained⟩ := hfrom event hevent
    obtain ⟨identity, fields, hfields, rfl⟩ := mem_lifecycleForRoute hfit.1 hc
    have hsub := (planFields_subset_iff hdecisions hagain).mpr hrepeats
    obtain ⟨entry, hentry, hfound⟩ := h.retains (hsub hfields) identity
    rw [hfound, Except.ok.injEq, Option.some.injEq] at hretained
    exact ⟨entry, hentry, hretained.symm⟩

theorem Settled.decidedOnce (h : Settled s s' t input decisions)
    (hdecisions : routeEvent input routes = .ok decisions) :
    DecidedOnce s s' t input decisions where
  unchanged routes' identities := by
    change commit t (routeIngressEvent t input.id routes' identities) = t
    rcases commit_cases t (routeIngressEvent t input.id routes' identities) with heq
      | ⟨outcome, hok⟩
    · exact heq
    · exact (h.ok hok).1
  repeated routes' identities again hagain hfit hsame :=
    h.ok_of_repeats hdecisions hagain hfit (repeats_iff.mpr (.inl hsame))
  different routes' identities again hagain hsame hpart := by
    cases hcall : routeIngressEvent t input.id routes' identities with
    | error error => exact ⟨error, rfl⟩
    | ok r =>
      obtain ⟨-, again', hagain', hfit, hall⟩ := h.ok hcall
      obtain rfl : again = again' := Except.ok.inj (hagain.symm.trans hagain')
      rcases repeats_iff.mp ((h.retains_iff hdecisions hagain hfit).mp hall) with hyes | hyes
      · exact absurd hyes hsame
      · exact absurd hyes hpart

/-! ### The call that records a decision -/

/-- A batch leaves an entry for each of its events. -/
theorem entry_of_appendBatch {events : List Event}
    (h : appendBatch sameLogicalEvent s events = .ok (retained, s')) {event : Event}
    (hevent : event ∈ events) :
    ∃ entry ∈ s'.journal, entry.Holds event ∨ sameLogicalEvent event entry.event = true := by
  induction events generalizing s retained with
  | nil => cases hevent
  | cons first events ih =>
    simp only [appendBatch, ok_iff, pair_iff] at h
    obtain ⟨outcome, v, hfirst, rest, last, hrest, -, rfl⟩ := h
    rcases List.mem_cons.mp hevent with rfl | hevent
    · obtain ⟨entries, hjournal, -⟩ :=
        (changes_of_appendBatch (P := fun _ => True) (fun _ _ => trivial) hrest).added_spec
      have hkeeps : ∀ entry ∈ v.journal, entry ∈ last.journal := by
        intro entry hentry
        rw [hjournal]
        exact List.mem_append_left _ hentry
      rcases appendCandidate_ok hfirst with ⟨-, rfl, ⟨entry, hentry, hretained, -, -⟩, hsame⟩
        | ⟨-, hrec⟩
      · exact ⟨entry, hkeeps entry hentry, .inr (hretained ▸ hsame)⟩
      · obtain ⟨entry, hadded, hholds⟩ := hrec.holds
        exact ⟨entry, hkeeps entry (hadded ▸ List.mem_append_right _ (.head _)),
          .inl hholds⟩
    · exact ih hrest hevent

omit [Platform] in
theorem fact_queueLifecycleEvent (identity : RuntimeEventIdentity) (input : Event)
    (fields : QueueLifecycleFields) :
    (queueLifecycleEvent identity input fields).fact = some (.queue fields.queueItemId input.id
      fields.status (some (queueItemIdempotencyKey input.id fields.targetAgent fields.status))) :=
  (moves_queueLifecycleEvent identity input fields).fact_eq

theorem JournalEntry.Holds.fact_eq {event : Event} (h : entry.Holds event) :
    entry.event.fact = event.fact := by
  obtain ⟨-, cursor, hback⟩ := h
  exact hback.fact_eq

omit [Platform] in
theorem sameLifecycleIntention_of_sameLogicalEvent {a b : Event} (h : sameLogicalEvent a b = true) :
    sameLifecycleIntention a b = true := by
  simp only [sameLogicalEvent, Bool.and_eq_true, decide_eq_true_eq] at h
  simp only [sameLifecycleIntention, Bool.and_eq_true, decide_eq_true_eq]
  tauto

/-- What a batch adds about an event that nothing was logged about. -/
structure Records (s s' : Store) (input : Event) (decisions : List RouteDecision) : Prop where
  journal : s'.journal = s.journal ++ s.added s'
  unlogged : ∀ entry ∈ s.journal, ∀ fact ∈ entry.event.fact, fact.event ≠ input.id
  added : ∀ entry ∈ s.added s', ∃ identity, ∃ fields ∈ planFields input decisions,
    entry.Holds (queueLifecycleEvent identity input fields)
  holds : ∀ fields ∈ planFields input decisions, ∃ entry ∈ s.added s', ∃ identity,
    entry.Holds (queueLifecycleEvent identity input fields)

theorem records_of_appendBatch (hfit : identities.length = planLength decisions)
    (hunlogged : ∀ entry ∈ s.journal, ∀ fact ∈ entry.event.fact, fact.event ≠ input.id)
    (h : appendBatch sameLogicalEvent s (lifecycleForRoute input decisions identities) =
      .ok (retained, s')) : Records s s' input decisions := by
  obtain ⟨entries, hjournal, hentries⟩ := (changes_of_appendBatch
    (P := (· ∈ lifecycleForRoute input decisions identities)) (fun _ => id) h).added_spec
  have hadded : s.added s' = entries := by rw [Store.added, hjournal, List.drop_left]
  have hfrom : ∀ entry ∈ s.added s', ∃ identity, ∃ fields ∈ planFields input decisions,
      entry.Holds (queueLifecycleEvent identity input fields) := by
    intro entry hentry
    obtain ⟨event, hevent, hholds⟩ := hentries entry (hadded ▸ hentry)
    obtain ⟨identity, fields, hfields, rfl⟩ := mem_lifecycleForRoute hfit hevent
    exact ⟨identity, fields, hfields, hholds⟩
  refine ⟨hadded ▸ hjournal, hunlogged, hfrom, fun fields hfields => ?_⟩
  obtain ⟨identity, hc⟩ := exists_mem_lifecycleForRoute hfit hfields
  obtain ⟨entry, hentry, hsays⟩ := entry_of_appendBatch h hc
  have hfact : entry.event.fact = (queueLifecycleEvent identity input fields).fact := by
    rcases hsays with hholds | hsame
    · exact hholds.fact_eq
    · exact (fact_eq_of_sameLogicalEvent hsame).symm
  have hnew : entry ∈ s.added s' := by
    rw [hjournal, ← hadded] at hentry
    refine (List.mem_append.mp hentry).resolve_left fun hold => ?_
    exact hunlogged entry hold _ (hfact.trans (fact_queueLifecycleEvent identity input fields)) rfl
  rcases hsays with hholds | hsame
  · exact ⟨entry, hnew, identity, hholds⟩
  · obtain ⟨identity', fields', -, hholds⟩ := hfrom entry hnew
    obtain rfl := (hholds.repeats_iff identity).mp
      (sameLifecycleIntention_of_sameLogicalEvent hsame)
    exact ⟨entry, hnew, identity', hholds⟩

omit [Platform] in
/-- A longer journal has the same entry for an event. -/
theorem entryByEventId_of_isPrefix {journal' : List JournalEntry} (h : journal <+: journal')
    {id : String} (hentry : entryByEventId journal id = .ok (some entry)) :
    entryByEventId journal' id = .ok (some entry) := by
  obtain ⟨new, rfl⟩ := h
  obtain ⟨hfind, hread⟩ := decodeFound_ok_iff.mp hentry
  have hfound : (journal ++ new).find? (fun entry => entry.event.id = id) = some entry := by
    rw [List.find?_append, ← hfind, Option.some_or]
  rw [entryByEventId, hfound]
  exact decodeFound_ok_iff.mpr ⟨rfl, by rwa [← hfind] at hread⟩

/-- The decision that was recorded stays the only one. -/
theorem Records.settled (h : Records s s' input decisions) (hs' : Ready s') (ht : Ready t)
    (hjournal : s'.journal <+: t.journal) (hsteps : Work.Steps .bound s'.work t.work)
    (hfound : ∃ entry, entryByEventId s.journal input.id = .ok (some entry) ∧ entry.event = input) :
    Settled s s' t input decisions := by
  have hmem' : ∀ entry ∈ s.added s', entry ∈ s'.journal := by
    intro entry hentry
    rw [h.journal]
    exact List.mem_append_right _ hentry
  have hmem : ∀ entry ∈ s'.journal, entry ∈ t.journal := fun entry hentry => hjournal.subset hentry
  have hlogged : ∃ fact ∈ s'.work.log, fact.event = input.id := by
    have hpos : 0 < (planFields input decisions).length := by
      rw [length_planFields]
      unfold planLength
      split <;> omega
    obtain ⟨fields, hfields⟩ := List.exists_mem_of_length_pos hpos
    obtain ⟨entry, hentry, identity, hholds⟩ := h.holds fields hfields
    exact ⟨_, mem_log_of_fact (hmem' entry hentry)
      (hholds.fact_eq.trans (fact_queueLifecycleEvent identity input fields)), rfl⟩
  obtain ⟨⟨fact, hfact, hevent⟩, hoffers, hcloses⟩ := hsteps.decided id hs'.inv hlogged
  refine ⟨ht.history.sound, ?_, fun entry hentry => hmem entry (hmem' entry hentry), ?_, h.holds,
    ?_⟩
  · obtain ⟨entry, hentry, hinput⟩ := hfound
    exact ⟨entry, entryByEventId_of_isPrefix (List.IsPrefix.trans ⟨_, h.journal.symm⟩ hjournal)
      hentry, hinput⟩
  · intro it hit hunrouted
    refine ht.inv.unlogged _ it hit hunrouted.1 fact hfact ?_
    rw [hevent, ht.inv.toShape.event_of_unrouted hit hunrouted]
  · intro entry hentry identity fields hstatus hsame
    have hfields := (fact_eq_of_sameLifecycleIntention hsame).symm.trans
      (fact_queueLifecycleEvent identity input fields)
    have hlog' : .queue fields.queueItemId input.id fields.status
        (some (queueItemIdempotencyKey input.id fields.targetAgent fields.status)) ∈
          s'.work.log := by
      have hlog := mem_log_of_fact hentry hfields
      rcases hstatus with hstatus | hstatus
      · rw [hstatus] at hlog ⊢
        exact hoffers _ _ hlog
      · rw [hstatus] at hlog ⊢
        exact hcloses _ _ hlog
    -- The fact was there after the call, under the same key, so it is the same entry.
    obtain ⟨other, hother, hfact'⟩ := entry_of_mem_log hlog'
    obtain rfl : other = entry := ht.history.sound.eq_of_key (hmem other hother) hentry
      (Event.key_of_fact hfact') (Event.key_of_fact hfields)
    rw [h.journal] at hother
    have hadded : other ∈ s.added s' := (List.mem_append.mp hother).resolve_left fun hold =>
      h.unlogged other hold _ hfact' rfl
    obtain ⟨first, fields', hfields', hholds⟩ := h.added other hadded
    obtain rfl := (hholds.repeats_iff identity).mp hsame
    exact hfields'

/-- A call that changes the store records its decision. -/
theorem records_of_routeIngressEvent (hs : Ready s) {eventId : String}
    (h : routeIngressEvent s eventId routes identities = .ok (outcome, s')) (hnew : s' ≠ s) :
    ∃ entry, entryByEventId s.journal eventId = .ok (some entry) ∧ entry.event.id = eventId ∧
      routeEvent entry.event routes = .ok outcome.decisions ∧
      Records s s' entry.event outcome.decisions := by
  simp only [routeIngressEvent, ok_iff, mapError_ok_iff] at h
  obtain ⟨_, hentry, entry, rfl, decisions, hdecisions, _, hlength, _, -, retained, -, h⟩ := h
  have hid : entry.event.id = eventId := by
    obtain ⟨hfind, -⟩ := decodeFound_ok_iff.mp hentry
    simpa using List.find?_some hfind.symm
  cases retained with
  | some events =>
    cases h
    exact absurd rfl hnew
  | none =>
    simp only [commitRoute, ok_iff, pair_iff] at h
    obtain ⟨_, hpending, events, last, hbatch, rfl, rfl⟩ := h
    obtain ⟨row, hrow, hstatus⟩ := Option.map_eq_some_iff.mp hpending
    have hit := work_items_of_find? hrow
    have hunrouted : row.toItem.Unrouted := Prod.mk.inj hstatus
    refine ⟨entry, hentry, hid, hdecisions, records_of_appendBatch hlength ?_ hbatch⟩
    intro other hother fact hfact hevent
    refine hs.inv.unlogged _ _ hit hunrouted.1 fact (mem_log_of_fact hother hfact) ?_
    rw [hevent, hs.inv.toShape.event_of_unrouted hit hunrouted]

/-- A call whose templates cannot be rendered changes nothing. After a call that recorded a
decision, in a run without forged facts and without messages from elsewhere, no call for the event
records anything: it returns the facts of that decision if its own is the same, and fails if it is
another that is not for some of the agents. -/
theorem decidedOnce_of_routed [LawfulFloatText] :
    (∀ (s : Store) (entry : JournalEntry) (routes : List Route)
        (identities : List RuntimeEventIdentity) (error : SessionError),
      entryByEventId s.journal entry.event.id = .ok (some entry) →
      routeEvent entry.event routes = .error error →
      routeIngressEvent s entry.event.id routes identities = .error (.session error) ∧
        apply s (.route entry.event.id routes identities) = s) ∧
    ∀ (ops later : List Op), (∀ op ∈ ops ++ later, op.Authentic ∧ op.KeepsMessages) →
      ∀ (eventId : String) (routes : List Route) (identities : List RuntimeEventIdentity)
        (outcome : RoutingOutcome) (s' : Store),
      routeIngressEvent (applyAll .empty ops) eventId routes identities = .ok (outcome, s') →
      s' ≠ applyAll .empty ops →
      ∃ entry, entryByEventId (applyAll .empty ops).journal eventId = .ok (some entry) ∧
        entry.event.id = eventId ∧ routeEvent entry.event routes = .ok outcome.decisions ∧
        DecidedOnce (applyAll .empty ops) s' (applyAll s' later) entry.event outcome.decisions := by
  refine ⟨fun s entry routes identities error hentry herror => ?_, ?_⟩
  · have hcall : routeIngressEvent s entry.event.id routes identities =
        .error (.session error) := by
      simp only [routeIngressEvent, hentry, ok_bind, require, herror, Except.mapError]
      rfl
    exact ⟨hcall, by rw [apply, hcall]; rfl⟩
  · intro ops later hops eventId routes identities outcome s' hcall hnew
    rw [List.forall_mem_append] at hops
    obtain ⟨hs, hmessaged, -⟩ := steps_bound ready_empty messaged_empty hops.1
    have happly : apply (applyAll .empty ops) (.route eventId routes identities) = s' := by
      rw [apply, hcall]
      rfl
    obtain ⟨hs', hmessaged', -⟩ : Ready s' ∧ Messaged s' ∧ True := by
      rw [← happly]
      exact ⟨hs.apply trivial, hmessaged.apply hs.history.unreserved trivial trivial, trivial⟩
    obtain ⟨ht, -, hsteps⟩ := steps_bound hs' hmessaged' hops.2
    obtain ⟨entry, hentry, hid, hdecisions, hrecords⟩ := records_of_routeIngressEvent hs hcall hnew
    have hjournal : s'.journal <+: (applyAll s' later).journal :=
      ⟨_, (journal_applyAll hs' fun op hop => (hops.2 op hop).1).symm⟩
    refine ⟨entry, hentry, hid, hdecisions, ?_⟩
    exact (hrecords.settled hs' ht hjournal hsteps
      ⟨entry, by rw [hid]; exact hentry, rfl⟩).decidedOnce
      hdecisions

end

namespace Sample

/-- An event for three agents. -/
def fannedOut : List Op := [.ingest (event "E" "task" [])]

/-- The routes of the three. -/
def three : List Route := [route "a" "task", route "b" "task", route "c" "task"]

/-- Identities for their facts. -/
def four : List RuntimeEventIdentity := [identity "f1", identity "f2", identity "f3", identity "f4"]

/-- A platform on which no template can be rendered. -/
@[reducible] def unrendering : Platform :=
  { platform with renderEventTemplate := fun text _ => .error (.malformedTemplate text) }

/-- A route whose session depends on a template. -/
def templated : Route := ⟨"a", [⟨"task", .exact⟩], .template "\x7b", [], none⟩

end Sample

open Sample in
/-- A call with a template that cannot be rendered fails, and after a decision for three agents the
event stays decided. -/
theorem fannedOut_decidedOnce :
    (∃ error, @routeIngressEvent unrendering (run fannedOut) "E" [templated] four
      = .error (.session error)) ∧
    ∃ (outcome : RoutingOutcome) (s' : Store) (entry : JournalEntry),
      @routeIngressEvent platform (run fannedOut) "E" three four = .ok (outcome, s') ∧
      s' ≠ run fannedOut ∧ entry.event.id = "E" ∧
      @DecidedOnce platform (run fannedOut) s' s' entry.event outcome.decisions := by
  constructor
  · obtain ⟨entry, hjournal, hentry⟩ := List.map_eq_singleton_iff.mp
      (show (run fannedOut).journal.map (fun entry => (entry.event.id, entry.event.eventType,
        readable entry.payloadBytes)) = [("E", "task", true)] by decide +kernel)
    simp only [Prod.mk.injEq] at hentry
    obtain ⟨hid, htype, hread⟩ := hentry
    have hfound : entryByEventId (run fannedOut).journal entry.event.id = .ok (some entry) := by
      rw [hjournal, entryByEventId, List.find?_cons_of_pos (by simp)]
      exact decodeFound_ok_iff.mpr ⟨rfl, by rintro _ ⟨⟩; exact hread⟩
    have herror : @routeEvent unrendering entry.event [templated]
        = .error (.malformedTemplate "\x7b") := by
      simp [routeEvent, routeDecisions, templated, Route.matches, EventPattern.matches, htype,
        Route.decide, SessionRule.resolve, Except.map]
      rfl
    have hcall := ((@decidedOnce_of_routed unrendering platform_lawful).1 (run fannedOut) entry
      [templated] four _ hfound herror).1
    exact ⟨_, hid ▸ hcall⟩
  · have hops : ∀ op ∈ fannedOut ++ [], op.Authentic ∧ op.KeepsMessages := by
      simp [fannedOut, Op.Authentic, Op.KeepsMessages, event, messageType]
    cases hcall : @routeIngressEvent platform (run fannedOut) "E" three four with
    | error error =>
      have hok : (@routeIngressEvent platform (run fannedOut) "E" three four).toBool = true := by
        decide +kernel
      rw [hcall] at hok
      cases hok
    | ok r =>
      obtain ⟨outcome, s'⟩ := r
      have hnew : s' ≠ run fannedOut := by
        rintro rfl
        have hlength : (@routeIngressEvent platform (run fannedOut) "E" three four).map
            (·.2.journal.length) = .ok 5 := by
          decide +kernel
        have hone : (run fannedOut).journal.length = 1 := by decide +kernel
        simp [hcall, Except.map, hone] at hlength
      obtain ⟨entry, -, hid, -, hdecided⟩ := (@decidedOnce_of_routed platform platform_lawful).2
        fannedOut [] hops "E" three four outcome s' hcall hnew
      exact ⟨outcome, s', entry, rfl, hnew, hid, hdecided⟩

open Sample in
/-- After a decision for three agents, one for two of them is taken for a repetition: the call
returns their facts. -/
theorem fannedOut_part_accepted : let s := run (fannedOut ++ [.route "E" three four])
    s.projections.queueItems.rows.map (·.targetAgent) = ["a", "b", "c"] ∧
      ((@routeIngressEvent platform s "E" (three.take 2)
        [identity "g1", identity "g2", identity "g3"]).map fun r =>
          (r.1.decisions.map (·.agentId), r.1.events.map (·.id))) =
        .ok (["a", "b"], ["f1", "f2", "f3"]) := by
  decide +kernel

end Zeta
