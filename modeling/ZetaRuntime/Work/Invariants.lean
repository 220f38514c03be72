import ZetaRuntime.Work.Machine

/-!
# What holds of work in every run

`Inv` collects the facts about work that hold in every run, whatever guards a run meets. They come
in three groups: what items, claims and attempts there can be; that what is in the log is reflected
in the state; and that the keys of numbered facts are used once. The last two are what makes a
repeated append harmless: a fact an operation is about to record is not in the log yet, because the
state would show it.

Two lemmas say what a step can do to an item (`Step.keeps`) and to an attempt
(`Step.keeps_attempt`), and one says what it can log (`Step.logs`). Most fields follow from these or
by going through the rules.
-/

namespace Zeta.Work

variable {it : Item} {q x : String}

/-- What items, claims and attempts there can be. -/
structure Shape (w : Work) : Prop where
  /-- Items have the cursors of their events. -/
  known : ∀ q it, w.items q = some it → w.cursors it.event = some it.cursor
  /-- Items are named after their events, and after their agents unless routing bound them. -/
  named : ∀ q it, w.items q = some it →
    q = pendingQueueItemId it.event ∨ q = queueItemId it.event it.agent
  /-- Two of the statuses are never used. -/
  plain : ∀ q it, w.items q = some it → it.status ≠ .failed ∧ it.status ≠ .retryScheduled
  /-- A pending item is as its arrival left it. -/
  unbound : ∀ q it, w.items q = some it → it.status = .pending →
    it = Item.unbound it.event it.cursor ∧ q = pendingQueueItemId it.event
  /-- A pending item is the only one for its event. -/
  sole : ∀ q it, w.items q = some it → it.status = .pending →
    ∀ x other, w.items x = some other → other.event = it.event → x = q
  /-- Only available and claimed items are owned. -/
  owned : ∀ q, w.claims q ≠ none →
    ∃ it, w.items q = some it ∧ (it.status = .available ∨ it.status = .claimed)
  /-- Claimed items are owned. -/
  claimed : ∀ q it, w.items q = some it → it.status = .claimed → w.claims q ≠ none
  /-- An attempt belongs to an item that is there, under the name its number gives it. -/
  attempt : ∀ id a, w.attempts id = some a → id = attemptId a.item a.number ∧ 1 ≤ a.number ∧
    ∃ it, w.items a.item = some it ∧ a.event = it.event ∧ a.session = it.session ∧
      a.number ≤ it.attempts ∧ it.agent ≠ ""
  /-- There is an attempt for every number up to the count. -/
  numbered : ∀ q it, w.items q = some it → ∀ n, 1 ≤ n → n ≤ it.attempts →
    w.attempts (attemptId q n) ≠ none

/-- The state shows what the log says. -/
structure Reflected (w : Work) : Prop where
  /-- Nothing has been logged about a pending item. -/
  unlogged : ∀ q it, w.items q = some it → it.status = .pending →
    ∀ fact ∈ w.log, fact.event ≠ it.event
  /-- Facts are about known events. -/
  logKnown : ∀ fact ∈ w.log, ∃ c, w.cursors fact.event = some c
  /-- The item a fact is about is there, unless it had no agent. -/
  kept : ∀ fact ∈ w.log, (∃ it, w.items fact.item = some it ∧ it.event = fact.event) ∨
    fact.item = pendingQueueItemId fact.event ∨ fact.item = queueItemId fact.event ""
  /-- After a terminal fact an item has ended. -/
  ended : ∀ q e status key, .queue q e status key ∈ w.log → status.terminal = true →
    ∀ it, w.items q = some it → it.event = e → it.status.terminal = true
  /-- After a request an item is marked. -/
  requested : ∀ q e, .requested q e ∈ w.log →
    ∀ it, w.items q = some it → it.event = e → it.cancelRequested = true
  /-- An item under its own name was made available. -/
  offered : ∀ q it, w.items q = some it → q = queueItemId it.event it.agent → it.openFact q ∈ w.log
  /-- Facts about attempts are reflected in them. -/
  attemptLog : ∀ id q e status, .attempt id q e status ∈ w.log →
    ∃ a, w.attempts id = some a ∧ a.item = q ∧ a.event = e ∧ (status ≠ .running → a.status = status)

/-- The numbers in the keys of facts are those of attempts that were counted. -/
structure Keyed (w : Work) : Prop where
  /-- A numbered claim is one of the attempts that were counted. -/
  started : ∀ q it n, w.items q = some it →
    .queue q it.event .claimed
      (some (queueItemAttemptIdempotencyKey it.event it.agent .claimed n)) ∈ w.log →
    n ≤ it.attempts
  /-- A numbered offer follows the failure of the attempt before. -/
  retried : ∀ q it n, w.items q = some it →
    .queue q it.event .available
      (some (queueItemAttemptIdempotencyKey it.event it.agent .available (n + 1))) ∈ w.log →
    ∃ a, w.attempts (attemptId q n) = some a ∧ a.status = .failed

/-- What holds of work in every run. -/
structure Inv (w : Work) : Prop extends Shape w, Reflected w, Keyed w

theorem inv_empty : Inv empty := by
  refine ⟨?_, ?_, ?_⟩ <;> constructor <;> simp [empty]

variable {G : Guard} {w w' : Work}

/-! ### What a step can do -/

/-- What a step leaves of an item it does not remove. -/
structure Evolves (it it' : Item) : Prop where
  event : it'.event = it.event
  cursor : it'.cursor = it.cursor
  agent : it.status ≠ .pending → it'.agent = it.agent
  session : it.status ≠ .pending → it'.session = it.session
  revision : it.status ≠ .pending → it'.revision = it.revision
  attempts : it.attempts ≤ it'.attempts
  requested : it.cancelRequested = true → it'.cancelRequested = true
  terminal : it.status.terminal = true → it' = it

theorem Evolves.refl (it : Item) : Evolves it it :=
  ⟨rfl, rfl, fun _ => rfl, fun _ => rfl, fun _ => rfl, le_rfl, id, fun _ => rfl⟩

/-- Changing one item lets every item evolve if the changed one does. -/
theorem evolves_update {items : String → Option Item} {i i' : Item} (hx : items x = some i)
    (hi : Evolves i i') (hq : items q = some it) :
    ∃ it', Function.update items x (some i') q = some it' ∧ Evolves it it' := by
  by_cases hqx : q = x
  · subst hqx
    obtain rfl : i = it := Option.some.inj (hx.symm.trans hq)
    exact ⟨i', Function.update_self .., hi⟩
  · exact ⟨it, by rw [Function.update_of_ne hqx, hq], .refl it⟩

theorem Item.evolves_unclaim (it : Item) : Evolves it it.unclaim := by
  unfold Item.unclaim
  split
  · rename_i h
    exact ⟨rfl, rfl, fun _ => rfl, fun _ => rfl, fun _ => rfl, le_rfl, id,
      by simp [h, QueueItemStatus.terminal]⟩
  · exact .refl it

/-- A fan-out leaves the other items alone. -/
theorem fanItems_of_fresh {opened : String → Option Item}
    (fresh : ∀ i, opened x = some i → w.items x = none) (hit : w.items x = some it) (hne : x ≠ q) :
    w.fanItems q opened x = some it := by
  refine fanItems_eq_some_iff.mpr ⟨hne, .inr ⟨?_, hit⟩⟩
  by_contra hsome
  obtain ⟨i, hi⟩ := Option.ne_none_iff_exists'.mp hsome
  simp [fresh i hi] at hit

/-- An item with a claim on it has not ended. -/
theorem Shape.open_of_owned (hinv : Shape w) (hit : w.items q = some it)
    (hclaim : w.claims q ≠ none) : it.status.terminal = false ∧ it.status ≠ .pending := by
  obtain ⟨i, hi, hstatus⟩ := hinv.owned q hclaim
  obtain rfl : i = it := Option.some.inj (hi.symm.trans hit)
  rcases hstatus with h | h <;> simp [h, QueueItemStatus.terminal]

/-- A step keeps an item and lets it evolve, or removes it; only an unbound item is removed. -/
theorem Step.keeps (hinv : Shape w) (h : Step G w w') (hit : w.items q = some it) :
    (∃ it', w'.items q = some it' ∧ Evolves it it') ∨ w'.items q = none ∧ it.agent = "" := by
  cases h with
  | note | claim => exact .inl ⟨it, hit, .refl it⟩
  | @arrive e c new free =>
    have hne : q ≠ pendingQueueItemId e := by rintro rfl; simp [free] at hit
    exact .inl ⟨it, (Function.update_of_ne hne ..).trans hit, .refl it⟩
  | unhandled found unrouted =>
    refine .inl (evolves_update found ?_ hit)
    constructor <;> simp [unrouted.1, QueueItemStatus.terminal]
  | bind found unrouted =>
    refine .inl (evolves_update found ?_ hit)
    constructor <;> simp [unrouted.1, QueueItemStatus.terminal]
  | @fanOut x i opened opens key cursors found unrouted grows fresh facts =>
    by_cases hqx : q = x
    · subst hqx
      obtain rfl : i = it := Option.some.inj (found.symm.trans hit)
      exact .inr ⟨if_pos rfl, unrouted.2⟩
    · exact .inl ⟨it, fanItems_of_fresh (fun j hj => (fresh q j hj).1) hit hqx, .refl it⟩
  | @discard x i found agent allowed =>
    by_cases hqx : q = x
    · subst hqx
      obtain rfl : i = it := Option.some.inj (found.symm.trans hit)
      exact .inr ⟨Function.update_self .., agent⟩
    · exact .inl ⟨it, (Function.update_of_ne hqx ..).trans hit, .refl it⟩
  | @«open» x i cursors origin known grows free opened =>
    have hne : q ≠ x := by rintro rfl; simp [free] at hit
    exact .inl ⟨it, (Function.update_of_ne hne ..).trans hit, .refl it⟩
  | @lose dead owned =>
    refine .inl ⟨if dead q then it.unclaim else it, loseItems_eq_some_iff.mpr ⟨it, hit, rfl⟩, ?_⟩
    split
    · exact it.evolves_unclaim
    · exact .refl it
  | start found owned status =>
    refine .inl (evolves_update found ?_ hit)
    constructor <;> simp [status, QueueItemStatus.terminal]
  | finish found owned =>
    refine .inl (evolves_update found ?_ hit)
    constructor <;> simp [(hinv.open_of_owned found owned).1]
  | request found owned =>
    refine .inl (evolves_update found ?_ hit)
    constructor <;> simp [(hinv.open_of_owned found owned).1]
  | cancel found unowned openItem =>
    refine .inl (evolves_update found ?_ hit)
    constructor <;> simp [openItem]
  | abandon found unowned openItem =>
    refine .inl (evolves_update found ?_ hit)
    constructor <;> simp [openItem]

/-- The item of an attempt is kept. -/
theorem Step.keeps_attempted (hinv : Shape w) (h : Step G w w') (id : String) (a : Attempt)
    (ha : w.attempts id = some a) :
    ∃ it', w'.items a.item = some it' ∧ a.event = it'.event ∧ a.session = it'.session ∧
      a.number ≤ it'.attempts ∧ it'.agent ≠ "" := by
  obtain ⟨-, hpos, it, hit, hevent, hsession, hnumber, hagent⟩ := hinv.attempt id a ha
  have hrouted : it.status ≠ .pending := by
    intro hpending
    have := (hinv.unbound _ it hit hpending).1
    rw [this] at hagent
    exact hagent rfl
  rcases h.keeps hinv hit with ⟨it', hit', hev⟩ | ⟨-, hnone⟩
  · exact ⟨it', hit', hevent.trans hev.event.symm, hsession.trans (hev.session hrouted).symm,
      hnumber.trans hev.attempts, by rwa [hev.agent hrouted]⟩
  · exact absurd hnone hagent

/-- Known events stay known. -/
theorem Step.grows (h : Step G w w') : Grows w.cursors w'.cursors := by
  cases h <;> grind [Function.update_apply]

/-- A fact a step logs is about an item that is there afterwards, or about the one it closed. -/
theorem Step.logs (hinv : Shape w) (h : Step G w w') {fact : Fact} (hfact : fact ∈ w'.log) :
    fact ∈ w.log ∨ (∃ it, w'.items fact.item = some it ∧ it.event = fact.event) ∨
      fact.item = pendingQueueItemId fact.event := by
  have := hinv.unbound
  cases h with
  | @fanOut x i opened opens key cursors found unrouted grows fresh facts =>
    rcases List.mem_append.mp hfact with hold | hnew
    · exact .inl hold
    rcases List.mem_cons.mp hnew with rfl | hopen
    · exact .inr (.inr (hinv.unbound x i found unrouted.1).2)
    · obtain ⟨y, j, hj, rfl⟩ := (facts fact).mp hopen
      have hne : y ≠ x := by
        rintro rfl
        simp [(fresh y j hj).1] at found
      exact .inr (.inl ⟨j, fanItems_eq_some_iff.mpr ⟨hne, .inl hj⟩, rfl⟩)
  | _ => grind [Function.update_apply]

/-- A step keeps an attempt and what it says, and leaves it alone once it has ended. -/
theorem Step.keeps_attempt (h : Step G w w') {id : String} {a : Attempt}
    (ha : w.attempts id = some a) :
    ∃ a', w'.attempts id = some a' ∧ (a'.item = a.item ∧ a'.event = a.event ∧
      a'.number = a.number ∧ a'.session = a.session) ∧ (a.status ≠ .running → a' = a) := by
  cases h <;> grind [Function.update_apply]

/-! ### Steps keep the invariant -/

theorem Step.shape_known (hinv : Shape w) (h : Step G w w') :
    ∀ q it, w'.items q = some it → w'.cursors it.event = some it.cursor := by
  have := hinv.known
  cases h <;> grind [Function.update_apply]

theorem Step.shape_named (hinv : Shape w) (h : Step G w w') :
    ∀ q it, w'.items q = some it →
    q = pendingQueueItemId it.event ∨ q = queueItemId it.event it.agent := by
  have := hinv.named
  have := hinv.unbound
  cases h <;> grind [Function.update_apply]

theorem Step.shape_plain (hinv : Shape w) (h : Step G w w') :
    ∀ q it, w'.items q = some it → it.status ≠ .failed ∧ it.status ≠ .retryScheduled := by
  have := hinv.plain
  cases h <;> grind [Function.update_apply]

theorem Step.shape_unbound (hinv : Shape w) (h : Step G w w') :
    ∀ q it, w'.items q = some it → it.status = .pending →
    it = Item.unbound it.event it.cursor ∧ q = pendingQueueItemId it.event := by
  have := hinv.unbound
  have := hinv.owned
  cases h <;> grind [Function.update_apply]

theorem Step.shape_sole (hinv : Shape w) (h : Step G w w') :
    ∀ q it, w'.items q = some it → it.status = .pending →
    ∀ x other, w'.items x = some other → other.event = it.event → x = q := by
  -- New items are for new events, except those of a fan-out, which removes the pending one.
  have := hinv.unbound
  have := hinv.owned
  have := hinv.sole
  have := hinv.known
  cases h <;> grind [Function.update_apply]

theorem Step.shape_owned (hinv : Shape w) (h : Step G w w') :
    ∀ q, w'.claims q ≠ none →
    ∃ it, w'.items q = some it ∧ (it.status = .available ∨ it.status = .claimed) := by
  have := hinv.owned
  cases h with
  | @fanOut x i opened opens key cursors found unrouted grows fresh facts =>
    intro q hq
    have hne : q ≠ x := by rintro rfl; simp at hq
    obtain ⟨it, hit, hstatus⟩ := hinv.owned q (by simpa [hne] using hq)
    exact ⟨it, fanItems_of_fresh (fun j hj => (fresh q j hj).1) hit hne, hstatus⟩
  | _ => grind [Function.update_apply]

theorem Step.shape_claimed (hinv : Shape w) (h : Step G w w') :
    ∀ q it, w'.items q = some it → it.status = .claimed → w'.claims q ≠ none := by
  have := hinv.owned
  have := hinv.claimed
  cases h <;> grind [Function.update_apply]

theorem Step.shape_attempt (hinv : Shape w) (h : Step G w w') :
    ∀ id a, w'.attempts id = some a → id = attemptId a.item a.number ∧ 1 ≤ a.number ∧
    ∃ it, w'.items a.item = some it ∧ a.event = it.event ∧ a.session = it.session ∧
      a.number ≤ it.attempts ∧ it.agent ≠ "" := by
  have hkeeps := fun id a => h.keeps_attempted hinv id a
  have := hinv.attempt
  intro id a ha
  cases h <;> grind [Function.update_apply]

theorem Step.shape_numbered (hinv : Shape w) (h : Step G w w') :
    ∀ q it, w'.items q = some it → ∀ n, 1 ≤ n → n ≤ it.attempts →
    w'.attempts (attemptId q n) ≠ none := by
  have := hinv.numbered
  have := hinv.unbound
  cases h <;> grind [Function.update_apply]

/-- A step keeps the shape. -/
theorem Step.shape (hinv : Shape w) (h : Step G w w') : Shape w' where
  known := h.shape_known hinv
  named := h.shape_named hinv
  plain := h.shape_plain hinv
  unbound := h.shape_unbound hinv
  sole := h.shape_sole hinv
  owned := h.shape_owned hinv
  claimed := h.shape_claimed hinv
  attempt := h.shape_attempt hinv
  numbered := h.shape_numbered hinv

theorem Step.reflected_unlogged (hinv : Inv w) (h : Step G w w') :
    ∀ q it, w'.items q = some it → it.status = .pending →
    ∀ fact ∈ w'.log, fact.event ≠ it.event := by
  have := hinv.unbound
  have := hinv.owned
  have := hinv.sole
  have := hinv.known
  have := hinv.logKnown
  have := hinv.unlogged
  cases h <;> grind [Function.update_apply]

theorem Step.reflected_logKnown (hinv : Inv w) (h : Step G w w') :
    ∀ fact ∈ w'.log, ∃ c, w'.cursors fact.event = some c := by
  have := hinv.logKnown
  have := hinv.known
  cases h <;> grind [Function.update_apply]

theorem Step.reflected_kept (hinv : Inv w) (h : Step G w w') :
    ∀ fact ∈ w'.log, (∃ it, w'.items fact.item = some it ∧ it.event = fact.event) ∨
    fact.item = pendingQueueItemId fact.event ∨ fact.item = queueItemId fact.event "" := by
  intro fact hfact
  rcases h.logs hinv.toShape hfact with hold | hpresent | hclosed
  · rcases hinv.kept fact hold with ⟨it, hit, hevent⟩ | hname
    · rcases h.keeps hinv.toShape hit with ⟨it', hit', hev⟩ | ⟨-, hagent⟩
      · exact .inl ⟨it', hit', hev.event.trans hevent⟩
      · have hname := hinv.named _ it hit
        rw [hevent, hagent] at hname
        exact .inr hname
    · exact .inr hname
  · exact .inl hpresent
  · exact .inr (.inl hclosed)

theorem Step.reflected_ended (hinv : Inv w) (h : Step G w w') :
    ∀ q e status key, .queue q e status key ∈ w'.log → status.terminal = true →
    ∀ it, w'.items q = some it → it.event = e → it.status.terminal = true := by
  -- An item that is opened was not there before, so by `kept` no fact is about it.
  have := hinv.ended
  have := hinv.unlogged
  have := hinv.logKnown
  have := hinv.kept
  have := hinv.owned
  have hname := queueItemId_ne_pendingQueueItemId
  have hagent := @queueItemId_ne_of_agent_ne_empty
  cases h <;> grind [Function.update_apply, QueueItemStatus.terminal]

theorem Step.reflected_requested (hinv : Inv w) (h : Step G w w') :
    ∀ q e, .requested q e ∈ w'.log →
    ∀ it, w'.items q = some it → it.event = e → it.cancelRequested = true := by
  have := hinv.requested
  have := hinv.unlogged
  have := hinv.logKnown
  have := hinv.kept
  have hname := queueItemId_ne_pendingQueueItemId
  have hagent := @queueItemId_ne_of_agent_ne_empty
  cases h <;> grind [Function.update_apply]

theorem Step.reflected_offered (hinv : Inv w) (h : Step G w w') :
    ∀ q it, w'.items q = some it → q = queueItemId it.event it.agent → it.openFact q ∈ w'.log := by
  -- Routing binds only items with a pending name.
  have := hinv.offered
  have := hinv.unbound
  have hname := queueItemId_ne_pendingQueueItemId
  cases h <;> grind [Function.update_apply]

theorem Step.reflected_attemptLog (hinv : Inv w) (h : Step G w w') :
    ∀ id q e status, .attempt id q e status ∈ w'.log →
    ∃ a, w'.attempts id = some a ∧ a.item = q ∧ a.event = e ∧
      (status ≠ .running → a.status = status) := by
  intro id q e status hfact
  by_cases hold : .attempt id q e status ∈ w.log
  · obtain ⟨a, ha, hitem, hevent, hstatus⟩ := hinv.attemptLog id q e status hold
    obtain ⟨a', ha', ⟨hitem', hevent', -, -⟩, hended⟩ := h.keeps_attempt ha
    refine ⟨a', ha', hitem'.trans hitem, hevent'.trans hevent, fun hne => ?_⟩
    have hstatus := hstatus hne
    rw [hended (by rwa [hstatus]), hstatus]
  · have := hinv.attempt
    cases h with
    | start =>
      simp only [List.mem_append, hold, List.mem_cons, Fact.attempt.injEq, reduceCtorEq,
        List.not_mem_nil, false_or, or_false] at hfact
      obtain ⟨rfl, rfl, rfl, rfl⟩ := hfact
      exact ⟨_, Function.update_self .., rfl, rfl, fun hne => absurd rfl hne⟩
    | _ => grind [Function.update_apply]

/-- A step is reflected. -/
theorem Step.reflected (hinv : Inv w) (h : Step G w w') : Reflected w' where
  unlogged := h.reflected_unlogged hinv
  logKnown := h.reflected_logKnown hinv
  kept := h.reflected_kept hinv
  ended := h.reflected_ended hinv
  requested := h.reflected_requested hinv
  offered := h.reflected_offered hinv
  attemptLog := h.reflected_attemptLog hinv

theorem Step.keyed_started (hinv : Inv w) (h : Step G w w') :
    ∀ q it n, w'.items q = some it →
    .queue q it.event .claimed
      (some (queueItemAttemptIdempotencyKey it.event it.agent .claimed n)) ∈ w'.log →
    n ≤ it.attempts := by
  have := hinv.started
  have := hinv.unlogged
  have := hinv.logKnown
  have := hinv.kept
  have hname := queueItemId_ne_pendingQueueItemId
  have hagent := @queueItemId_ne_of_agent_ne_empty
  have hkey := @queueItemAttemptIdempotencyKey_inj
  cases h <;> grind [Function.update_apply]

theorem Step.keyed_retried (hinv : Inv w) (h : Step G w w') :
    ∀ q it n, w'.items q = some it →
    .queue q it.event .available
      (some (queueItemAttemptIdempotencyKey it.event it.agent .available (n + 1))) ∈ w'.log →
    ∃ a, w'.attempts (attemptId q n) = some a ∧ a.status = .failed := by
  have := hinv.retried
  have := hinv.attempt
  have := hinv.unlogged
  have := hinv.logKnown
  have := hinv.kept
  have hname := queueItemId_ne_pendingQueueItemId
  have hagent := @queueItemId_ne_of_agent_ne_empty
  have hkey := @queueItemAttemptIdempotencyKey_inj
  have hplain := @queueItemAttemptIdempotencyKey_ne
  cases h <;> grind [Function.update_apply]

/-- A step uses the next number. -/
theorem Step.keyed (hinv : Inv w) (h : Step G w w') : Keyed w' where
  started := h.keyed_started hinv
  retried := h.keyed_retried hinv

/-- A step keeps the invariant. -/
theorem Step.inv (hinv : Inv w) (h : Step G w w') : Inv w' :=
  ⟨h.shape hinv.toShape, h.reflected hinv, h.keyed hinv⟩

/-- Several steps. -/
abbrev Steps (G : Guard) : Work → Work → Prop := Relation.ReflTransGen (Step G)

/-- Runs keep whatever steps keep of states that satisfy the invariant. -/
theorem Steps.induct {P : Work → Prop} (hstep : ∀ v v', Inv v → P v → Step G v v' → P v')
    (h : Steps G w w') (hinv : Inv w) (hw : P w) : Inv w' ∧ P w' := by
  induction h with
  | refl => exact ⟨hinv, hw⟩
  | tail _ hlast ih => exact ⟨hlast.inv ih.1, hstep _ _ ih.1 ih.2 hlast⟩

/-- Runs keep the invariant. -/
theorem Steps.inv (h : Steps G w w') (hinv : Inv w) : Inv w' :=
  (h.induct (P := fun _ => True) (fun _ _ _ _ _ => trivial) hinv trivial).1

end Zeta.Work
