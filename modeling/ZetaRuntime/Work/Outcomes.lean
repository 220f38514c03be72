import ZetaRuntime.Work.Invariants

/-!
# Outcomes, cancellation and retries

Properties of the log of work. An item gets at most one terminal fact, and with it at most one
completed attempt. Every attempt is started by one fact. And once the cancellation of an open item
has been requested, the log has nothing more about it but the start of an attempt, its end as
cancelled, and the end of the item as cancelled; nobody new comes to own it.

A limit of attempts bounds those that end, when all failures are reported with the same limit: at an
open item, attempts from the limit on are running. It does not bound those that start. An attempt
whose owner is gone is not counted as a failure, and the next owner starts another. The log then
claims the item twice in a row, which it does in no other case.

Facts name an item by its name and its input event. The name alone would not do: the names of items
without an agent can be those of items of other events.
-/

namespace Zeta.Work

variable {G : Guard} {w w' : Work}

variable {a : Attempt} {fact : Fact} {it : Item} {log new : List Fact} {e id q : String} {limit : ℕ}

/-! ### Counting facts -/

/-- Whether a fact ends an item. -/
@[grind] def Fact.settles (q e : String) : Fact → Bool
  | .queue item event status _ => item = q ∧ event = e ∧ status.terminal
  | _ => false

/-- Whether a fact says that an attempt at an item has completed. -/
@[grind] def Fact.completes (q e : String) : Fact → Bool
  | .attempt _ item event status => item = q ∧ event = e ∧ status = .completed
  | _ => false

/-- Whether a fact says that an attempt was started. -/
@[grind] def Fact.starts (id : String) : Fact → Bool
  | .attempt id' _ _ status => id' = id ∧ status = .running
  | _ => false

/-- The facts that open the items of a fan-out are not counted. -/
theorem countP_opens {opened : String → Option Item} {opens : List Fact} {P : Fact → Bool}
    (facts : ∀ fact, fact ∈ opens ↔ ∃ x i, opened x = some i ∧ fact = i.openFact x)
    (hP : ∀ (x : String) (i : Item), P (i.openFact x) = false) : opens.countP P = 0 := by
  refine List.countP_eq_zero.mpr fun fact hfact => ?_
  obtain ⟨x, i, -, rfl⟩ := (facts fact).mp hfact
  simp [hP x i]

/-- A step ends at most one item, which was open, and completes an attempt only with its item. -/
theorem Step.settles (hinv : Inv w) (h : Step G w w') (q e : String) :
    ∃ new, w'.log = w.log ++ new ∧ new.countP (·.settles q e) ≤ 1 ∧
      new.countP (·.completes q e) ≤ new.countP (·.settles q e) ∧
      (new.countP (·.settles q e) ≠ 0 →
        ∃ it, w.items q = some it ∧ it.event = e ∧ it.status.terminal = false) := by
  have := hinv.owned
  cases h with
  | note | arrive | discard | claim | lose => exact ⟨[], by simp, by simp, by simp, by simp⟩
  | fanOut found unrouted grows fresh facts =>
    have := countP_opens (P := (·.settles q e)) facts (by grind [QueueItemStatus.terminal])
    have := countP_opens (P := (·.completes q e)) facts (by grind)
    refine ⟨_, rfl, ?_⟩
    grind [QueueItemStatus.terminal]
  | cancel =>
    refine ⟨_, List.append_assoc .., ?_⟩
    grind [QueueItemStatus.terminal]
  | _ =>
    refine ⟨_, rfl, ?_⟩
    grind [QueueItemStatus.terminal]

/-- A step logs one start for an attempt it adds, and none for any other. -/
theorem Step.starts (h : Step G w w') (id : String) :
    ∃ new, w'.log = w.log ++ new ∧
      new.countP (·.starts id) = if w.attempts id = none ∧ w'.attempts id ≠ none then 1 else 0 := by
  cases h with
  | note | arrive | discard | claim | lose => exact ⟨[], by simp, by simp⟩
  | fanOut found unrouted grows fresh facts =>
    have := countP_opens (P := (·.starts id)) facts (by grind)
    refine ⟨_, rfl, ?_⟩
    grind
  | cancel =>
    refine ⟨_, List.append_assoc .., ?_⟩
    grind
  | _ =>
    refine ⟨_, rfl, ?_⟩
    grind [Function.update_apply]

/-- An open item has not been settled. -/
theorem Inv.unsettled (hinv : Inv w) (hit : w.items q = some it) (hevent : it.event = e)
    (hopen : it.status.terminal = false) : w.log.countP (·.settles q e) = 0 := by
  refine List.countP_eq_zero.mpr fun fact hfact hsettles => ?_
  cases fact with
  | queue q' e' status key =>
    simp only [Fact.settles, decide_eq_true_eq] at hsettles
    obtain ⟨rfl, rfl, hterminal⟩ := hsettles
    simp [hinv.ended q' e' status key hfact hterminal it hit hevent] at hopen
  | requested | attempt => simp [Fact.settles] at hsettles

/-- An item ends at most once, and at most one of its attempts completes. -/
theorem Steps.settled (h : Steps G empty w) (q e : String) :
    w.log.countP (·.settles q e) ≤ 1 ∧ w.log.countP (·.completes q e) ≤ 1 := by
  have hcount : w.log.countP (·.settles q e) ≤ 1 ∧
      w.log.countP (·.completes q e) ≤ w.log.countP (·.settles q e) := by
    refine (h.induct (P := fun v => v.log.countP (·.settles q e) ≤ 1 ∧
      v.log.countP (·.completes q e) ≤ v.log.countP (·.settles q e))
      (fun v v' hinv hv hstep => ?_) inv_empty (by simp [empty])).2
    obtain ⟨new, hlog, hone, hcompletes, hopen⟩ := hstep.settles hinv q e
    rw [hlog, List.countP_append, List.countP_append]
    by_cases hzero : new.countP (·.settles q e) = 0
    · omega
    · obtain ⟨it, hit, hevent, hstatus⟩ := hopen hzero
      have := hinv.unsettled hit hevent hstatus
      omega
  omega

/-- Every attempt has exactly one fact that starts it. -/
theorem Steps.started (h : Steps G empty w) (ha : w.attempts id = some a) :
    w.log.countP (·.starts id) = 1 := by
  have hcount : w.log.countP (·.starts id) = if w.attempts id = none then 0 else 1 := by
    refine (h.induct (P := fun v => v.log.countP (·.starts id) =
      if v.attempts id = none then 0 else 1) (fun v v' hinv hv hstep => ?_) inv_empty
      (by simp [empty])).2
    obtain ⟨new, hlog, hnew⟩ := hstep.starts id
    rw [hlog, List.countP_append, hv, hnew]
    cases hattempt : v.attempts id with
    | none => by_cases hattempt' : v'.attempts id = none <;> simp [hattempt']
    | some a =>
      obtain ⟨a', ha', -⟩ := hstep.keeps_attempt hattempt
      simp [ha']
  rw [hcount, if_neg (by simp [ha])]

/-- The attempts of an item have the numbers up to its count. -/
theorem Inv.attempt_number_iff (hinv : Inv w) (hit : w.items q = some it) (n : ℕ) :
    (∃ id a, w.attempts id = some a ∧ a.item = q ∧ a.number = n) ↔
      1 ≤ n ∧ n ≤ it.attempts := by
  constructor
  · rintro ⟨id, a, ha, rfl, rfl⟩
    obtain ⟨-, hpos, it', hit', -, -, hle, -⟩ := hinv.attempt id a ha
    obtain rfl : it' = it := Option.some.inj (hit'.symm.trans hit)
    exact ⟨hpos, hle⟩
  · rintro ⟨hpos, hle⟩
    obtain ⟨a, ha⟩ := Option.ne_none_iff_exists'.mp (hinv.numbered q it hit n hpos hle)
    obtain ⟨hitem, hnumber⟩ := attemptId_inj (hinv.attempt _ a ha).1
    exact ⟨_, a, ha, hitem.symm, hnumber.symm⟩

/-! ### Cancellation -/

/-- An item that is open and whose cancellation was requested, or what became of it. -/
structure Doomed (q e : String) (w : Work) : Prop where
  known : ∃ c, w.cursors e = some c
  routed : ∀ x it, w.items x = some it → it.event = e → it.status ≠ .pending
  marked : ∀ it, w.items q = some it → it.event = e →
    it.cancelRequested = true ∧ (it.status.terminal = true → it.status = .cancelled)
  kept : (∃ it, w.items q = some it ∧ it.event = e) ∨
    q = pendingQueueItemId e ∨ q = queueItemId e ""

/-- The facts that may still be logged about an item that is to be cancelled. -/
@[grind] def Fact.Spares : Fact → Prop
  | .queue _ _ status _ => status = .claimed ∨ status = .cancelled
  | .attempt _ _ _ status => status = .running ∨ status = .cancelled
  | .requested _ _ => True

/-- A request dooms an open item. -/
theorem Inv.doomed (hinv : Inv w) (hit : w.items q = some it)
    (hrequested : it.cancelRequested = true) (hopen : it.status.terminal = false) :
    Doomed q it.event w where
  known := ⟨_, hinv.known q it hit⟩
  routed x other hother hevent hpending := by
    have hx := hinv.sole x other hother hpending q it hit hevent.symm
    subst hx
    obtain rfl : other = it := Option.some.inj (hother.symm.trans hit)
    rw [(hinv.unbound q other hother hpending).1] at hrequested
    simp [Item.unbound] at hrequested
  marked other hother _ := by
    obtain rfl : it = other := Option.some.inj (hit.symm.trans hother)
    exact ⟨hrequested, fun hterminal => by simp [hterminal] at hopen⟩
  kept := .inl ⟨it, hit, rfl⟩

section

variable {q e : String}

/-- A doomed item stays doomed. -/
theorem Step.doomed (hinv : Inv w) (hw : Doomed q e w) (h : Step G w w') : Doomed q e w' where
  known := by
    obtain ⟨c, hc⟩ := hw.known
    exact ⟨c, h.grows e c hc⟩
  routed := by
    have := hw.known
    have := hw.routed
    have := hinv.owned
    cases h <;> grind [Function.update_apply]
  marked := by
    have := hw.known
    have := hw.routed
    have := hw.marked
    have := hw.kept
    have := hinv.owned
    have hname := queueItemId_ne_pendingQueueItemId
    have hagent := @queueItemId_ne_of_agent_ne_empty
    cases h <;> grind [Function.update_apply, QueueItemStatus.terminal]
  kept := by
    rcases hw.kept with ⟨it, hit, hevent⟩ | hname
    · rcases h.keeps hinv.toShape hit with ⟨it', hit', hev⟩ | ⟨-, hagent⟩
      · exact .inl ⟨it', hit', hev.event.trans hevent⟩
      · have hname := hinv.named _ it hit
        rw [hevent, hagent] at hname
        exact .inr hname
    · exact .inr hname

/-- A step logs little about a doomed item. -/
theorem Step.spares (hinv : Inv w) (hw : Doomed q e w) (h : Step G w w') :
    ∃ new, w'.log = w.log ++ new ∧
      ∀ fact ∈ new, fact.item = q → fact.event = e → fact.Spares := by
  have := hw.known
  have := hw.routed
  have := hw.marked
  have := hw.kept
  have := hinv.owned
  have hname := queueItemId_ne_pendingQueueItemId
  have hagent := @queueItemId_ne_of_agent_ne_empty
  cases h with
  | note | arrive | discard | claim | lose => exact ⟨[], by simp, by simp⟩
  | cancel =>
    refine ⟨_, List.append_assoc .., ?_⟩
    grind
  | _ =>
    refine ⟨_, rfl, ?_⟩
    grind [Function.update_apply]

/-- Nobody new comes to own a doomed item. -/
theorem Step.claims_of_doomed (hinv : Inv w) (hw : Doomed q e w) (h : Step G w w')
    (hit : w'.items q = some it) (hevent : it.event = e) (hclaim : w'.claims q ≠ none) :
    w'.claims q = w.claims q ∧ ∃ old, w.items q = some old ∧ old.event = e := by
  have hclaims : w'.claims q = w.claims q := by
    have := hw.known
    have := hw.routed
    have := hw.marked
    have := hw.kept
    have := hinv.owned
    cases h <;> grind [Function.update_apply]
  obtain ⟨old, hold, -⟩ := hinv.owned q (hclaims ▸ hclaim)
  refine ⟨hclaims, old, hold, ?_⟩
  rcases h.keeps hinv.toShape hold with ⟨it', hit', hev⟩ | ⟨hnone, -⟩
  · obtain rfl : it' = it := Option.some.inj (hit'.symm.trans hit)
    exact hev.event.symm.trans hevent
  · simp [hnone] at hit

/-- After a request nothing is logged about an item but what leads to its cancellation, and an owner
it has is the one it had. -/
theorem Steps.doomed (h : Steps G w w') (hinv : Inv w) (hw : Doomed q e w) :
    Doomed q e w' ∧
    (∃ new, w'.log = w.log ++ new ∧
      ∀ fact ∈ new, fact.item = q → fact.event = e → fact.Spares) ∧
    ∀ it, w'.items q = some it → it.event = e → w'.claims q ≠ none → w'.claims q = w.claims q := by
  have hrun := h.induct (P := fun v => Doomed q e v ∧
    (∃ new, v.log = w.log ++ new ∧
      ∀ fact ∈ new, fact.item = q → fact.event = e → fact.Spares) ∧
    ∀ it, v.items q = some it → it.event = e → v.claims q ≠ none → v.claims q = w.claims q)
    (fun v v' hv ⟨hdoomed, ⟨new, hlog, hnew⟩, hclaims⟩ hstep => ?_) hinv
    ⟨hw, ⟨[], by simp, by simp⟩, fun _ _ _ _ => rfl⟩
  · exact hrun.2
  · obtain ⟨new', hlog', hnew'⟩ := hstep.spares hv hdoomed
    refine ⟨hstep.doomed hv hdoomed, ⟨new ++ new', by rw [hlog', hlog, List.append_assoc], ?_⟩, ?_⟩
    · intro fact hfact
      rcases List.mem_append.mp hfact with hfact | hfact
      · exact hnew fact hfact
      · exact hnew' fact hfact
    · intro it hit hevent hclaim
      obtain ⟨hsame, old, hold, hevent'⟩ := hstep.claims_of_doomed hv hdoomed hit hevent hclaim
      rw [hsame, hclaims old hold hevent' (hsame ▸ hclaim)]

end

/-! ### The bound on attempts -/

/-- An item has ended if one of its attempts has that was not to be followed by another. -/
def Final (q : String) (limit : ℕ) (w : Work) : Prop :=
  ∀ id a it, w.attempts id = some a → a.item = q → w.items q = some it →
    a.status = .completed ∨ a.status = .cancelled ∨ a.status = .failed ∧ limit ≤ a.number →
    it.status.terminal = true

theorem final_empty (q : String) (limit : ℕ) : Final q limit empty := by
  simp [Final, empty]

/-- A step keeps an item ended by its last attempt, if failures are reported with one limit. -/
theorem Step.final (hlimit : ∀ n, G.limit q n → n = limit) (hinv : Inv w) (hw : Final q limit w)
    (h : Step G w w') : Final q limit w' := by
  unfold Final at hw ⊢
  have := hinv.attempt
  have := hinv.unbound
  have := hinv.owned
  cases h <;> grind [Function.update_apply, QueueItemStatus.terminal]

theorem Steps.final (hlimit : ∀ n, G.limit q n → n = limit) (h : Steps G empty w) :
    Final q limit w :=
  (h.induct (fun _ _ hinv hv hstep => hstep.final hlimit hinv hv) inv_empty
    (final_empty q limit)).2

/-- At an item that is open, the attempts from the limit on are still running. -/
theorem Final.running (hw : Final q limit w) (hit : w.items q = some it)
    (hopen : it.status.terminal = false) (ha : w.attempts id = some a) (hitem : a.item = q)
    (hnumber : limit ≤ a.number) : a.status = .running := by
  have hended := hw id a it ha hitem hit
  rw [hopen] at hended
  cases hstatus : a.status <;> simp_all

/-! ### Repeated claims -/

/-- Whether an item is claimed according to the facts, after one more of them. -/
def Fact.claims (q : String) (before : Bool) : Fact → Bool
  | .queue item _ status _ => if item = q then status = .claimed else before
  | _ => before

/-- Whether the last word of the facts about an item is that it is claimed. -/
def claimedBy (q : String) (log : List Fact) : Bool := log.foldl (Fact.claims q) false

/-- No item is claimed while the facts say that it is claimed. -/
def Unrepeated (log : List Fact) : Prop :=
  ∀ earlier later q e key, log = earlier ++ .queue q e .claimed key :: later →
    claimedBy q earlier = false

theorem claimedBy_append (q : String) (log new : List Fact) :
    claimedBy q (log ++ new) = new.foldl (Fact.claims q) (claimedBy q log) :=
  List.foldl_append

/-- Only a claim makes an item claimed. -/
theorem claimedBy_of_append (hnew : ∀ e key, .queue q e .claimed key ∉ new)
    (h : claimedBy q (log ++ new) = true) : claimedBy q log = true := by
  induction new generalizing log with
  | nil => rwa [List.append_nil] at h
  | cons fact new ih =>
    rw [List.append_cons] at h
    have hlast := ih (fun e key hmem => hnew e key (.tail _ hmem)) h
    rw [claimedBy_append, List.foldl_cons, List.foldl_nil] at hlast
    cases fact with
    | queue item event status key =>
      simp only [Fact.claims] at hlast
      split at hlast
      · rename_i hitem
        obtain rfl : status = .claimed := by simpa using hlast
        subst hitem
        exact absurd (.head _) (hnew event key)
      · exact hlast
    | requested | attempt => exact hlast

theorem unrepeated_append_singleton :
    Unrepeated (log ++ [fact]) ↔ Unrepeated log ∧
      ∀ q e key, fact = .queue q e .claimed key → claimedBy q log = false := by
  constructor
  · intro h
    refine ⟨fun earlier later q e key heq => h earlier (later ++ [fact]) q e key (by simp [heq]),
      ?_⟩
    rintro q e key rfl
    exact h log [] q e key rfl
  · rintro ⟨hlog, hlast⟩ earlier later q e key heq
    rcases List.eq_nil_or_concat' later with rfl | ⟨later, last, rfl⟩
    · obtain ⟨rfl, hfact⟩ := List.append_inj' heq rfl
      exact hlast q e key (List.singleton_inj.mp hfact)
    · rw [← List.cons_append, ← List.append_assoc] at heq
      exact hlog earlier later q e key (List.append_inj' heq rfl).1

theorem Unrepeated.append (h : Unrepeated log) (hnew : ∀ q e key, .queue q e .claimed key ∉ new) :
    Unrepeated (log ++ new) := by
  induction new generalizing log with
  | nil => rwa [List.append_nil]
  | cons fact new ih =>
    rw [List.append_cons]
    refine ih (unrepeated_append_singleton.mpr ⟨h, ?_⟩)
      fun q e key hmem => hnew q e key (.tail _ hmem)
    rintro q e key rfl
    exact absurd (.head _) (hnew q e key)

/-- An item that is claimed according to the facts has a running attempt, though its claim may be
gone. -/
def Held (w : Work) : Prop := ∀ q, claimedBy q w.log = true → w.Running q

/-- Only a start logs a claim. -/
theorem Step.unclaims (h : Step G w w') :
    (∃ new, w'.log = w.log ++ new ∧ ∀ q e key, .queue q e .claimed key ∉ new) ∨
      ∃ q e key id, G.start w q ∧ w'.Running q ∧
        w'.log = w.log ++ [.queue q e .claimed key, .attempt id q e .running] := by
  cases h with
  | note | arrive | discard | claim | lose => exact .inl ⟨[], by simp, by simp⟩
  | unhandled | bind | «open» | request => exact .inl ⟨_, rfl, by simp [Item.openFact]⟩
  | fanOut _ _ _ _ facts =>
    refine .inl ⟨_, rfl, fun x e key hmem => ?_⟩
    rcases List.mem_cons.mp hmem with heq | hmem
    · cases heq
    · obtain ⟨_, i, -, heq⟩ := (facts _).mp hmem
      cases heq
  | start _ _ _ _ _ allowed =>
    exact .inr ⟨_, _, _, _, allowed, ⟨_, _, Function.update_self _ _ _, rfl, rfl⟩, rfl⟩
  | finish _ _ _ _ _ ends =>
    refine .inl ⟨_, rfl, fun x e key hmem => ?_⟩
    cases ends <;> simp at hmem
  | cancel _ _ _ request =>
    refine .inl ⟨_, List.append_assoc _ _ _, fun x e key hmem => ?_⟩
    rcases request with ⟨rfl, -⟩ | rfl <;> simp at hmem
  | abandon => exact .inl ⟨_, rfl, by simp⟩

/-- A step keeps an item running, or says last of it that it is not claimed. -/
theorem Step.runs (h : Step G w w') {x : String} (hx : w.Running x) :
    w'.Running x ∨ claimedBy x w'.log = false := by
  obtain ⟨id', a', ha', hitem', hrunning'⟩ := hx
  cases h with
  | @start q it _ _ _ _ _ free =>
    refine .inl ⟨id', a', ?_, hitem', hrunning'⟩
    have hne : id' ≠ attemptId q (it.attempts + 1) := by
      rintro rfl
      rw [free] at ha'
      cases ha'
    exact (Function.update_of_ne hne _ _).trans ha'
  | @finish q id it a ended final _ _ _ _ attempt ofItem _ ends =>
    by_cases hid : id' = id
    · refine .inr ?_
      obtain rfl : x = q := by
        rw [hid, attempt] at ha'
        rw [← hitem', ← Option.some.inj ha', ofItem]
      rw [claimedBy_append]
      cases ends <;> simp [Fact.claims]
    · exact .inl ⟨id', a', (Function.update_of_ne hid _ _).trans ha', hitem', hrunning'⟩
  | @abandon q id it a _ _ _ _ _ _ attempt ofItem =>
    by_cases hid : id' = id
    · refine .inr ?_
      obtain rfl : x = q := by
        rw [hid, attempt] at ha'
        rw [← hitem', ← Option.some.inj ha', ofItem]
      rw [claimedBy_append]
      simp [Fact.claims]
    · exact .inl ⟨id', a', (Function.update_of_ne hid _ _).trans ha', hitem', hrunning'⟩
  | _ => exact .inl ⟨id', a', ha', hitem', hrunning'⟩

theorem Step.held (hw : Held w) (h : Step G w w') : Held w' := by
  intro x hx
  have hruns : claimedBy x w.log = true → w'.Running x := by
    intro hclaimed
    rcases h.runs (hw x hclaimed) with hruns | hfree
    · exact hruns
    · rw [hx] at hfree
      cases hfree
  rcases h.unclaims with ⟨new, hlog, hnew⟩ | ⟨q, e, key, id, -, hstarted, hlog⟩
  · exact hruns (claimedBy_of_append (hnew x) (hlog ▸ hx))
  · by_cases hq : q = x
    · exact hq ▸ hstarted
    · refine hruns ?_
      rw [hlog, claimedBy_append] at hx
      simpa [Fact.claims, hq] using hx

/-- If attempts are started only where none is running, no claim is repeated. -/
theorem Steps.unrepeated (hG : ∀ v q, G.start v q → ¬v.Running q) (h : Steps G empty w) :
    Unrepeated w.log := by
  have hrun := h.induct (P := fun v => Unrepeated v.log ∧ Held v)
    (fun v v' _ ⟨hv, hheld⟩ hstep => ?_)
    inv_empty ⟨by simp [Unrepeated, empty], by simp [Held, claimedBy, empty]⟩
  · exact hrun.2.1
  · refine ⟨?_, hstep.held hheld⟩
    rcases hstep.unclaims with ⟨new, hlog, hnew⟩ | ⟨q, e, key, id, hallowed, -, hlog⟩
    · exact hlog ▸ hv.append hnew
    · rw [hlog, List.append_cons]
      refine Unrepeated.append (unrepeated_append_singleton.mpr ⟨hv, ?_⟩) (by simp)
      rintro q' e' key' heq
      cases heq
      exact Bool.eq_false_iff.mpr fun hclaimed => hG v q hallowed (hheld q hclaimed)

/-! ### Decisions about events -/

/-- Once facts are about an event, no item of it is offered for the first time and none is closed as
unhandled, unless a message is bound to it. -/
theorem Step.decided (hG : ¬G.rebind) (hinv : Inv w) (h : Step G w w')
    (hlogged : ∃ fact ∈ w.log, fact.event = e) :
    (∀ q a, .queue q e .available (some (queueItemIdempotencyKey e a .available)) ∈ w'.log →
      .queue q e .available (some (queueItemIdempotencyKey e a .available)) ∈ w.log) ∧
    ∀ q key, .queue q e .unhandled key ∈ w'.log → .queue q e .unhandled key ∈ w.log := by
  obtain ⟨logged, hmem, hevent⟩ := hlogged
  -- An item that waits for its route is of another event, and so is an item of a new event.
  have hother : ∀ q it, w.items q = some it → it.Unrouted → it.event ≠ e :=
    fun q it hit hunrouted heq =>
      hinv.unlogged q it hit hunrouted.1 logged hmem (hevent.trans heq.symm)
  obtain ⟨c, hknown⟩ := hinv.logKnown logged hmem
  rw [hevent] at hknown
  cases h with
  | note | arrive | discard | claim | lose => exact ⟨fun _ _ => id, fun _ _ => id⟩
  | unhandled found unrouted =>
    have hne := hother _ _ found unrouted
    simp [hne.symm]
  | bind found unrouted =>
    have hne := hother _ _ found unrouted
    simp [hne.symm]
  | @fanOut x i opened opens key cursors found unrouted grows fresh facts =>
    have hne := hother _ _ found unrouted
    have hopens : ∀ q status key, .queue q e status key ∉ opens := by
      intro q status key hfact
      obtain ⟨y, j, hj, heq⟩ := (facts _).mp hfact
      have hevent : i.event = e := by
        rw [← (fresh y j hj).2.2.1]
        exact (congrArg Fact.event heq).symm
      exact hne hevent
    refine ⟨fun q a hfact => ?_, fun q key hfact => ?_⟩
    · simpa [hne.symm, hopens] using hfact
    · simpa [hne.symm, hopens] using hfact
  | @«open» x i cursors origin known grows free opened =>
    have hne : i.event ≠ e := by
      rintro heq
      rcases origin with hnew | ⟨hrebind, -⟩
      · rw [← heq, hnew.unknown] at hknown
        cases hknown
      · exact hG hrebind
    simp [Item.openFact, hne.symm]
  | start => simp
  | finish _ _ _ _ _ ends =>
    cases ends with
    | completed | deadLettered | cancelled => simp
    | retried =>
      refine ⟨fun q a hfact => ?_, by simp⟩
      simp only [List.mem_append, List.mem_cons, reduceCtorEq, Fact.queue.injEq, Option.some.injEq,
        List.not_mem_nil, or_false, false_or] at hfact
      rcases hfact with hold | ⟨-, -, -, heq⟩
      · exact hold
      · exact absurd heq.symm queueItemAttemptIdempotencyKey_ne_plain
  | request => simp
  | cancel _ _ _ request => rcases request with ⟨rfl, -⟩ | rfl <;> simp
  | abandon => simp

theorem Step.keeps_log (h : Step G w w') (hfact : fact ∈ w.log) : fact ∈ w'.log := by
  cases h <;> simp [hfact]

/-- After the first fact about an event, its items have been offered and closed as they are. -/
theorem Steps.decided (hG : ¬G.rebind) (h : Steps G w w') (hinv : Inv w)
    (hlogged : ∃ fact ∈ w.log, fact.event = e) :
    (∃ fact ∈ w'.log, fact.event = e) ∧
    (∀ q a, .queue q e .available (some (queueItemIdempotencyKey e a .available)) ∈ w'.log →
      .queue q e .available (some (queueItemIdempotencyKey e a .available)) ∈ w.log) ∧
    ∀ q key, .queue q e .unhandled key ∈ w'.log → .queue q e .unhandled key ∈ w.log := by
  refine (h.induct (P := fun v => (∃ fact ∈ v.log, fact.event = e) ∧
    (∀ q a, .queue q e .available (some (queueItemIdempotencyKey e a .available)) ∈ v.log →
      .queue q e .available (some (queueItemIdempotencyKey e a .available)) ∈ w.log) ∧
    ∀ q key, .queue q e .unhandled key ∈ v.log → .queue q e .unhandled key ∈ w.log)
    (fun v v' hv ⟨hfact, havailable, hunhandled⟩ hstep => ?_) hinv
    ⟨hlogged, fun _ _ => id, fun _ _ => id⟩).2
  obtain ⟨hoffers, hcloses⟩ := hstep.decided hG hv hfact
  obtain ⟨fact, hmem, hevent⟩ := hfact
  exact ⟨⟨fact, hstep.keeps_log hmem, hevent⟩, fun q a hq => havailable q a (hoffers q a hq),
    fun q key hq => hunhandled q key (hcloses q key hq)⟩

end Zeta.Work
