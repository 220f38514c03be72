import ZetaRuntime.Guarantee.Fencing
import ZetaRuntime.Work.Delivery

/-!
# What the journal says about deliveries

Workers deliver the effects of connectors in turns: one claims an effect, starts it, and ends it, or
loses it and another goes on. What they may do is decided by the table of effects. What they did is
in the journal. The two are tied together here: the facts about an effect are a course, and the row
of the effect is where the course has led. So the promises about deliveries are those of courses.

The table refuses every fact that would not continue the course, whoever wrote it. Only the numbers
of starts depend on who wrote them: agents record the effects of their tools without numbers, so
that the starts of a connector effect are numbered because nobody but its workers records one.

## Main definitions

* `Chronicled`, `Store.Kept` — effects are where the facts about them have led
* `Store.Delivered` — the promises about deliveries

## Main results

* `chronicled_of_indexEvent`, `kept_applyAll` — an event, and a run, keeps the two together
* `delivered_of_run` — the promises are kept in every run
-/

namespace Zeta

open Outcome

variable {fact : EffectFact} {effect : EffectRow} {other : Event} {nowMs : Int} {op : Op}
  {p p' : Projections} {n : ℕ}

/-! ### Facts and courses -/

/-- The move that an event makes in the course of an effect. -/
def Event.moveOf (event : Event) (key : String) : Option Move :=
  if eventKind event.eventType = .effect then
    match readEffectFact event with
    | .ok fact => if fact.key = key then some ⟨fact.status, fact.deliveryAttempt⟩ else none
    | .error _ => none
  else none

/-- The moves of a journal in the course of an effect. -/
def movesOf (entries : List JournalEntry) (key : String) : List Move :=
  entries.filterMap (·.event.moveOf key)

/-- Tables in which the effects are where the facts about them have led. -/
structure Chronicled (entries : List JournalEntry) (p : Projections) : Prop where
  /-- The row of an effect is where its course has led. -/
  course : ∀ key row, p.effects.find? key = some row →
    Course row.semantics (movesOf entries key) row.status row.deliveryAttempts
  /-- A fact is about an effect that is there. -/
  known : ∀ entry ∈ entries, eventKind entry.event.eventType = .effect → ∀ fact,
    readEffectFact entry.event = .ok fact →
      ∃ row, p.effects.find? fact.key = some row ∧ row.operation = fact.operation

theorem chronicled_empty : Chronicled [] .empty :=
  ⟨by simp [Projections.empty], by simp⟩

theorem movesOf_concat (entries : List JournalEntry) (entry : JournalEntry) (key : String) :
    movesOf (entries ++ [entry]) key = movesOf entries key ++ (entry.event.moveOf key).toList := by
  rw [movesOf, List.filterMap_append, movesOf]
  cases hmove : entry.event.moveOf key <;> simp [hmove]

theorem exists_of_mem_movesOf {entries : List JournalEntry} {key : String} {move : Move}
    (h : move ∈ movesOf entries key) :
    ∃ entry ∈ entries, eventKind entry.event.eventType = .effect ∧
      ∃ fact, readEffectFact entry.event = .ok fact ∧ fact.key = key ∧
        move = ⟨fact.status, fact.deliveryAttempt⟩ := by
  obtain ⟨entry, hentry, hmove⟩ := List.mem_filterMap.mp h
  unfold Event.moveOf at hmove
  split at hmove
  · next hkind =>
    split at hmove
    · next fact hfact =>
      split at hmove
      · next hkey => exact ⟨entry, hentry, hkind, fact, hfact, hkey, (Option.some.inj hmove).symm⟩
      · cases hmove
    · cases hmove
  · cases hmove

theorem key_of_readEffectFact {event : Event} (h : readEffectFact event = .ok fact) :
    event.idempotencyKey =
      some (effectIdempotencyKey fact.status fact.key fact.deliveryAttempt) := by
  simp only [readEffectFact, ok_iff] at h
  obtain ⟨_, -, _, -, _, -, _, -, _, -, _, -, _, -, _, -, _, -, _, -, _, -, _, -, _, -, _, hkey, _,
    -, rfl⟩ := h
  exact hkey

theorem safe_of_readEffectFact {event : Event} (h : readEffectFact event = .ok fact) :
    fact.status = .failed → fact.semantics ≠ .unsafeToRetry := by
  simp only [readEffectFact, ok_iff, validateEffectResult] at h
  obtain ⟨_, -, _, -, _, -, _, -, _, -, _, -, _, -, _, -, _, -, _, -, _, -, _, -, _, -, _, -, _,
    ⟨_, -, _, -, hsafe⟩, rfl⟩ := h
  exact fun hfailed hnoRetry => hsafe ⟨hfailed, hnoRetry⟩

/-- A journaled event says of effects what another says. -/
structure Event.Repeats (event other : Event) : Prop where
  kind : eventKind event.eventType = eventKind other.eventType
  fact : ∀ fact, readEffectFact other = .ok fact →
    ∃ params result, readEffectFact event = .ok { fact with params, result }

theorem Event.Repeats.refl (event : Event) : event.Repeats event :=
  ⟨rfl, fun fact h => ⟨fact.params, fact.result, h⟩⟩

theorem ReadsBack.repeats [FloatText] {event event' : Event} (h : ReadsBack event event') :
    event'.Repeats event := by
  refine ⟨by rw [h.eventType_eq], fun fact hfact => ?_⟩
  obtain ⟨params, result, -, -, hread⟩ := h.readEffectFact_ok hfact
  exact ⟨params, result, hread⟩

theorem Event.Repeats.moveOf {event : Event} (h : event.Repeats other)
    (hkind : eventKind other.eventType = .effect) (hfact : readEffectFact other = .ok fact)
    (key : String) :
    event.moveOf key = if fact.key =
      key then some ⟨fact.status, fact.deliveryAttempt⟩ else none := by
  obtain ⟨params, result, hread⟩ := h.fact fact hfact
  rw [Event.moveOf, if_pos (h.kind.trans hkind), hread]

/-! ### What a fact does -/

/-- What a fact that plans an effect does. -/
theorem planEffect_ok (h : planEffect fact p = .ok p') :
    fact.deliveryAttempt = none ∧ p.effects.find? fact.key = none ∧
      ∀ key, p'.effects.find? key = if fact.key = key then some fact.plannedRow
        else p.effects.find? key := by
  simp only [planEffect, ok_iff] at h
  obtain ⟨_, ⟨hnumber, -⟩, _, -, _, -, effects, hinsert, rfl⟩ := h
  exact ⟨hnumber, (Table.insert?_eq_some_iff.mp hinsert).1, Table.find?_of_insert? hinsert⟩

/-- What a fact that moves an effect does. -/
theorem moveEffect_ok (h : moveEffect fact p = .ok p') :
    ∃ stored n row, p.effects.find? fact.key = some stored ∧ stored.operation = fact.operation ∧
      stored.semantics = fact.semantics ∧ effectCanTransition stored.status fact.status = true ∧
      stored.deliveryAttempts ≤ u32Max ∧ nextDeliveryAttempts fact stored.deliveryAttempts = .ok n ∧
      (row.operation = stored.operation ∧ row.semantics = stored.semantics ∧
        row.status = fact.status ∧ row.deliveryAttempts = n) ∧
      ∀ key, p'.effects.find? key = if fact.key = key then some row else p.effects.find? key := by
  simp only [moveEffect, ok_iff] at h
  obtain ⟨stored, hstored, _, ⟨hoperation, hsemantics, -⟩, _, htransition, _, hbound, n, hnext, _,
    -, rfl⟩ := h
  refine ⟨stored, n, { stored with
    status := fact.status
    result := fact.result
    terminalEventId := if effectStatusIsTerminal fact.status then some fact.eventId else none
    updatedAt := fact.timestampMs
    deliveryAttempts := n
    availableAt := fact.retryAt }, hstored, hoperation, hsemantics, htransition, hbound, hnext,
    ⟨rfl, rfl, rfl, rfl⟩, fun key => ?_⟩
  rw [Table.find?_updateWhere]
  by_cases heq : fact.key = key
  · subst heq
    rw [if_pos rfl, hstored, Option.map_some, if_pos (decide_eq_true (Table.key_of_find? hstored))]
  · rw [if_neg heq]
    cases hrow : p.effects.find? key with
    | none => rfl
    | some row =>
      have hkey : row.effectKey ≠ fact.key := by
        rw [Table.key_of_find? hrow]
        exact fun hsame => heq hsame.symm
      rw [Option.map_some, if_neg (by simpa using hkey)]

/-- A fact that moves an effect continues its course, unless it repeats a number. -/
theorem course_of_move {stored : EffectRow} {moves : List Move}
    (hcourse : Course fact.semantics moves stored.status stored.deliveryAttempts)
    (htransition : effectCanTransition stored.status fact.status = true)
    (hbound : stored.deliveryAttempts ≤ u32Max)
    (hnext : nextDeliveryAttempts fact stored.deliveryAttempts = .ok n)
    (hsafe : fact.status = .failed → fact.semantics ≠ .unsafeToRetry)
    (hfresh : ∀ move ∈ moves, move ≠ ⟨fact.status, fact.deliveryAttempt⟩) :
    Course fact.semantics (moves ++ [⟨fact.status, fact.deliveryAttempt⟩]) fact.status n := by
  by_cases hstarted : fact.status = .started
  · have hstatus : stored.status = .planned ∨ stored.status = .failed := by
      cases hfrom : stored.status <;> simp_all [effectCanTransition]
    rw [hstarted]
    cases hnumber : fact.deliveryAttempt with
    | none =>
      simp only [nextDeliveryAttempts, hnumber, Except.ok.injEq] at hnext
      exact hnext ▸ hcourse.start hstatus
    | some number =>
      simp only [nextDeliveryAttempts, hnumber, hstarted, if_true, ok_iff] at hnext
      obtain ⟨_, hnumbered, rfl⟩ := hnext
      rcases hbound.lt_or_eq with hlt | heq
      · rw [Nat.min_eq_left hlt] at hnumbered
        exact hnumbered ▸ hcourse.number hstatus
      · -- The counter is at its end, and the last number has been given out.
        have hpos : 0 < stored.deliveryAttempts := by
          rw [heq]
          decide
        rw [heq, Nat.min_eq_right (Nat.le_succ _), ← heq] at hnumbered
        refine absurd ?_ (hfresh _ (hcourse.mem_of_pos hpos))
        rw [hstarted, hnumber, hnumbered]
  · obtain ⟨hfrom, hterminal⟩ : stored.status = .started ∧
        effectStatusIsTerminal fact.status = true := by
      cases hfrom : stored.status <;> cases hto : fact.status <;>
        simp_all [effectCanTransition, effectStatusIsTerminal]
    have hsame : n = stored.deliveryAttempts := by
      unfold nextDeliveryAttempts at hnext
      split at hnext
      · exact (Except.ok.inj hnext).symm
      · rw [if_neg hstarted] at hnext
        simp only [ok_iff] at hnext
        obtain ⟨_, -, rfl⟩ := hnext
        rfl
    rw [hfrom] at hcourse
    exact hsame ▸ hcourse.finish hterminal hsafe

section

variable [Platform] {journal entries : List JournalEntry} {entry : JournalEntry} {event : Event}
  {p p' : Projections}

omit [Platform] in
/-- A fact is not among those under other keys. -/
theorem fresh_of_key (hfact : readEffectFact event = .ok fact)
    (hkeys : ∀ other ∈ entries, ∀ key ∈ event.idempotencyKey,
      other.event.idempotencyKey ≠ some key) :
    ∀ move ∈ movesOf entries fact.key, move ≠ ⟨fact.status, fact.deliveryAttempt⟩ := by
  rintro move hmove rfl
  obtain ⟨other, hother, -, fact', hfact', hkey, hsame⟩ := exists_of_mem_movesOf hmove
  obtain ⟨hstatus, hnumber⟩ := Move.mk.inj hsame
  refine hkeys other hother _ (key_of_readEffectFact hfact) ?_
  rw [key_of_readEffectFact hfact', hkey, hstatus, hnumber]

omit [Platform] in
/-- A table with one row more or another row, after a fact that continues its course. -/
theorem Chronicled.concat (h : Chronicled entries p) (hrepeats : entry.event.Repeats event)
    (hkind : eventKind event.eventType = .effect)
    (hfact : readEffectFact event = .ok fact) {row : EffectRow}
    (hoperation : row.operation = fact.operation)
    (hkept : ∀ stored, p.effects.find? fact.key = some stored → stored.operation = row.operation)
    (hcourse : Course row.semantics
      (movesOf entries fact.key ++ [⟨fact.status, fact.deliveryAttempt⟩])
      row.status row.deliveryAttempts)
    (hfind : ∀ key, p'.effects.find? key = if fact.key = key then some row
      else p.effects.find? key) :
    Chronicled (entries ++ [entry]) p' where
  course key found hfound := by
    rw [movesOf_concat, hrepeats.moveOf hkind hfact]
    rw [hfind] at hfound
    split at hfound
    · next heq =>
      obtain rfl := Option.some.inj hfound
      rw [if_pos heq, ← heq]
      exact hcourse
    · next hne =>
      rw [if_neg hne, Option.toList_none, List.append_nil]
      exact h.course key found hfound
  known other hother hkind' fact' hfact' := by
    rw [hfind]
    rcases List.mem_append.mp hother with hother | hother
    · obtain ⟨found, hfound, hsame⟩ := h.known other hother hkind' fact' hfact'
      split
      · next heq =>
        rw [← heq] at hfound
        exact ⟨row, rfl, (hkept found hfound).symm.trans hsame⟩
      · exact ⟨found, hfound, hsame⟩
    · rw [List.mem_singleton.mp hother] at hfact'
      obtain ⟨params, result, hread⟩ := hrepeats.fact fact hfact
      obtain rfl := Except.ok.inj (hread.symm.trans hfact')
      exact ⟨row, if_pos rfl, hoperation⟩

/-- An event that is projected leaves the effects where the facts have led. -/
theorem chronicled_of_indexEvent (h : Chronicled entries p)
    (hindex : indexEvent journal event p = .ok p') (hrepeats : entry.event.Repeats event)
    (hkeys : ∀ other ∈ entries, ∀ key ∈ event.idempotencyKey,
      other.event.idempotencyKey ≠ some key) :
    Chronicled (entries ++ [entry]) p' := by
  by_cases hkind : eventKind event.eventType = .effect
  · simp only [indexEvent, hkind, indexEffect, bind_ok_iff] at hindex
    obtain ⟨fact, hfact, happly⟩ := hindex
    unfold applyEffectFact at happly
    split at happly
    · next hplanned =>
      obtain ⟨hnumber, hnone, hfind⟩ := planEffect_ok happly
      have hempty : movesOf entries fact.key = [] := by
        rw [List.eq_nil_iff_forall_not_mem]
        intro move hmove
        obtain ⟨other, hother, hkind', fact', hfact', hkey, -⟩ := exists_of_mem_movesOf hmove
        obtain ⟨row, hrow, -⟩ := h.known other hother hkind' fact' hfact'
        rw [hkey, hnone] at hrow
        cases hrow
      refine h.concat hrepeats hkind hfact rfl (fun _ hstored => ?_) ?_ hfind
      · cases hnone.symm.trans hstored
      · rw [hempty, hplanned, hnumber]
        exact .plan
    · obtain ⟨stored, n, row, hstored, hoperation, hsemantics, htransition, hbound, hnext,
        ⟨hsame, hrow, hstatus, hattempts⟩, hfind⟩ := moveEffect_ok happly
      refine h.concat hrepeats hkind hfact (hsame.trans hoperation) (fun found hfound => ?_) ?_
        hfind
      · rw [Option.some.inj (hfound.symm.trans hstored), hsame]
      · rw [hrow, hstatus, hattempts, hsemantics]
        have hcourse := h.course fact.key stored hstored
        rw [hsemantics] at hcourse
        exact course_of_move hcourse htransition hbound hnext (safe_of_readEffectFact hfact)
          (fresh_of_key hfact hkeys)
  · have heffects : p'.effects = p.effects := by
      have hframe := indexEvent_frame hindex
      cases hother : eventKind event.eventType with
      | effect => exact absurd hother hkind
      | wait | deferredPublication | cancelRequested | ingress =>
        rw [hother] at hframe
        obtain ⟨_, rfl⟩ := hframe
        rfl
      | queueItem =>
        rw [hother] at hframe
        obtain ⟨_, _, _, rfl⟩ := hframe
        rfl
      | attempt =>
        rw [hother] at hframe
        obtain ⟨_, _, rfl⟩ := hframe
        rfl
      | unprojected =>
        rw [hother] at hframe
        obtain rfl : p' = p := hframe
        rfl
    have hnot : eventKind entry.event.eventType ≠ .effect := fun heffect =>
      hkind (hrepeats.kind ▸ heffect)
    constructor
    · intro key row hrow
      rw [movesOf_concat, Event.moveOf, if_neg hnot, Option.toList_none, List.append_nil]
      exact h.course key row (heffects ▸ hrow)
    · intro other hother hkind' fact hfact
      rw [heffects]
      rcases List.mem_append.mp hother with hother | hother
      · exact h.known other hother hkind' fact hfact
      · rw [List.mem_singleton.mp hother] at hkind'
        exact absurd hkind' hnot

/-! ### Runs -/

section

omit [Platform]

/-- An event that says of no connector effect that it is started, or numbers the delivery. -/
def Event.NumbersStart (event : Event) : Prop :=
  eventKind event.eventType = .effect → ∀ fact, readEffectFact event = .ok fact →
    isConnectorOperation fact.operation = true → fact.status = .started →
      fact.deliveryAttempt ≠ none

theorem Event.Repeats.numbersStart (h : event.Repeats other) (hother : other.NumbersStart)
    (hread : eventKind other.eventType = .effect → ∃ fact, readEffectFact other = .ok fact) :
    event.NumbersStart := by
  intro hkind fact hfact hconnector hstarted
  obtain ⟨fact', hfact'⟩ := hread (h.kind ▸ hkind)
  obtain ⟨params, result, hsame⟩ := h.fact fact' hfact'
  obtain rfl := Except.ok.inj (hsame.symm.trans hfact)
  exact hother (h.kind ▸ hkind) fact' hfact' hconnector hstarted

/-- What holds of journal and effects in every run. -/
structure Store.Kept (s : Store) : Prop where
  chronicled : Chronicled s.journal s.projections
  keys : (s.journal.filterMap (·.event.idempotencyKey)).Nodup
  unreserved : s.projections.Unreserved

theorem kept_empty : Store.empty.Kept where
  chronicled := chronicled_empty
  keys := List.nodup_nil
  unreserved := unreserved_empty

end

variable {s s' : Store}

theorem Recorded.kept (h : Recorded s event s') (hs : s.Kept) : s'.Kept := by
  obtain ⟨entry, -, hjournal, hback, hentry, hindex⟩ := h.entry
  have hkey : entry.stored.event.idempotencyKey = event.idempotencyKey := by
    rw [hback.idempotencyKey_eq, hentry]
  have hfresh : ∀ other ∈ s.journal, ∀ key ∈ event.idempotencyKey,
      other.event.idempotencyKey ≠ some key :=
    fun other hother key hkey => h.fresh_key hkey hother
  refine ⟨?_, ?_, indexEvent_unreserved hindex hs.unreserved⟩
  · rw [hjournal]
    refine chronicled_of_indexEvent hs.chronicled hindex hback.repeats ?_
    rwa [hentry]
  · rw [hjournal, List.filterMap_append, List.nodup_append]
    refine ⟨hs.keys, by cases hsome : entry.stored.event.idempotencyKey <;> simp [hsome], ?_⟩
    intro key hmem key' hmem' heq
    obtain ⟨other, hother, hkey'⟩ := List.mem_filterMap.mp hmem
    have hsome : event.idempotencyKey = some key' := by simpa [hkey] using hmem'
    exact hfresh other hother key' hsome (heq ▸ hkey')

theorem Changes.kept {P : Event → Prop} (h : Changes P s s') (hs : s.Kept) : s'.Kept := by
  refine h.induct (fun _ _ event _ ht hrecorded => hrecorded.kept ht)
    (fun t t' ht hcoordinated => ?_) hs
  have hchronicled := ht.chronicled
  refine ⟨⟨?_, ?_⟩, ?_, ?_⟩
  · rw [hcoordinated.effects, hcoordinated.journal]
    exact hchronicled.course
  · rw [hcoordinated.effects, hcoordinated.journal]
    exact hchronicled.known
  · rw [hcoordinated.journal]
    exact ht.keys
  · rw [Projections.Unreserved, hcoordinated.deferredPublications]
    exact ht.unreserved

/-- Replaying a journal leaves the effects where its facts have led. -/
theorem chronicled_of_foldOk {later : List JournalEntry} (h : Chronicled entries p)
    (hkeys : ((entries ++ later).filterMap (·.event.idempotencyKey)).Nodup)
    (hfold : foldOk (fun p entry => indexEvent journal entry.event p) p later = .ok p') :
    Chronicled (entries ++ later) p' := by
  induction later generalizing entries p with
  | nil =>
    cases hfold
    rwa [List.append_nil]
  | cons entry later ih =>
    simp only [foldOk_cons, bind_ok_iff] at hfold
    obtain ⟨q, hindex, hrest⟩ := hfold
    rw [List.append_cons] at hkeys ⊢
    refine ih (chronicled_of_indexEvent h hindex (.refl _) ?_) hkeys hrest
    intro other hother key hkey heq
    rw [List.append_assoc, List.filterMap_append, List.nodup_append] at hkeys
    refine hkeys.2.2 key (List.mem_filterMap.mpr ⟨other, hother, heq⟩) key ?_ rfl
    exact List.mem_filterMap.mpr ⟨entry, by simp, hkey⟩

theorem unreserved_of_foldOk (h : p.Unreserved)
    (hfold : foldOk (fun p entry => indexEvent journal entry.event p) p entries = .ok p') :
    p'.Unreserved :=
  foldOk_invariant (fun _ _ _ _ hq hindex => indexEvent_unreserved hindex hq) h hfold

omit [Platform] in
theorem unreserved_recover (h : p.Unreserved) : p.recover.Unreserved := by
  intro row hrow
  obtain ⟨old, hold, rfl⟩ := List.mem_map.mp hrow
  split <;> exact h old hold

theorem Store.Kept.rebuilt (hs : s.Kept) (hreplay : replay s.journal s.journal = .ok p) :
    Store.Kept { s with projections := p.recover } := by
  have hchronicled := chronicled_of_foldOk chronicled_empty hs.keys hreplay
  exact ⟨⟨hchronicled.course, hchronicled.known⟩, hs.keys,
    unreserved_recover (unreserved_of_foldOk unreserved_empty hreplay)⟩

theorem Store.Kept.apply (hs : s.Kept) (op : Op) : (apply s op).Kept := by
  refine apply_induction hs (fun _ => hs.rebuilt) fun hrebuild => ?_
  exact (Op.changes_any hs.unreserved hrebuild).kept hs

theorem kept_applyAll (ops : List Op) : (applyAll .empty ops).Kept :=
  List.foldlRecOn ops apply kept_empty fun _ hs op _ => hs.apply op

/-! ### Numbers -/

omit [Platform] in
/-- A journal in which every start of a connector effect is numbered. -/
def Store.NumbersStarts (s : Store) : Prop :=
  ∀ entry ∈ s.journal, entry.event.NumbersStart

omit [Platform] in
theorem numbersStart_of_numbersDelivery (h : NumbersDelivery event) :
    event.NumbersStart := fun hkind fact hfact _ _ => h hkind fact hfact

theorem Recorded.numbersStarts (h : Recorded s event s') (hs : s.NumbersStarts)
    (hevent : event.NumbersStart) : s'.NumbersStarts := by
  obtain ⟨entry, -, hjournal, hback, hentry, hindex⟩ := h.entry
  intro other hother
  rw [hjournal] at hother
  rcases List.mem_append.mp hother with hother | hother
  · exact hs other hother
  · rw [List.mem_singleton.mp hother]
    refine hback.repeats.numbersStart (by rwa [hentry]) fun hkind => ?_
    simp only [indexEvent, hkind, indexEffect, bind_ok_iff] at hindex
    obtain ⟨fact, hfact, -⟩ := hindex
    exact ⟨fact, hfact⟩

theorem Changes.numbersStarts (h : Changes Event.NumbersStart s s') (hs : s.NumbersStarts) :
    s'.NumbersStarts := by
  refine h.induct (fun _ _ event hevent ht hrecorded => hrecorded.numbersStarts ht hevent)
    (fun t t' ht hcoordinated => ?_) hs
  rw [Store.NumbersStarts, hcoordinated.journal]
  exact ht

/-- Controls record no start of a delivery. -/
theorem ControlEvent.numbersDelivery {ctx : CompletionContext} {identity : RuntimeEventIdentity}
    {control : AttemptControl} (h : ControlEvent ctx identity control event) :
    NumbersDelivery event := by
  cases h with
  | cancel h => exact h.aside.numbered
  | create h =>
    cases control with
    | cancel => cases h
    | publish handle eventType payload at_ position =>
      simp only [completionControlEvent, ok_iff] at h
      obtain ⟨immediate, -, rfl⟩ := h
      split
      · exact numbersDelivery_of_key rfl
          (by simp [startsWith, String.toList_append, List.isPrefixOf])
      · exact numbersDelivery_of_kind
          (by simp only [deferredPublicationCreatedEvent, runtimeFact]; decide)
    | wait handle eventType fields deadline position =>
      cases h
      exact numbersDelivery_of_kind (by simp only [waitCreatedEvent, runtimeFact]; decide)

omit [Platform] in
/-- An operation that brings in no fact about a connector effect, except that it is planned. The
host appends facts of connector effects only to plan them, and the facts of its agents' tools, whose
names have no colon. -/
def Op.SparesConnectors : Op → Prop
  | .appendTrusted event => eventKind event.eventType = .effect → ∀ fact,
    readEffectFact event = .ok fact → isConnectorOperation fact.operation = true →
      fact.status = .planned
  | _ => True

theorem Op.Records.numbersStart (hop : op.SparesConnectors) (h : op.Records event) :
    event.NumbersStart := by
  cases op with
  | appendTrusted given =>
    obtain rfl : event = given := h
    intro hkind fact hfact hconnector hstarted
    exact nomatch (hop hkind fact hfact hconnector).symm.trans hstarted
  | ingest =>
    refine numbersStart_of_numbersDelivery (numbersDelivery_of_kind fun hkind => ?_)
    rcases eventKind_of_unreserved h.2 with hother | hother <;> simp [hother] at hkind
  | route => exact numbersStart_of_numbersDelivery (Internal.numbered h)
  | submitMessage =>
    rcases h with h | rfl
    · exact numbersStart_of_numbersDelivery h.numbered
    · exact numbersStart_of_numbersDelivery (numbersDelivery_of_kind (by
        simp only [sessionMessageRequestedEvent]; decide))
  | _ => exact numbersStart_of_numbersDelivery (Routine.toInternal h).numbered

theorem Op.Publishes.numbersStart (h : op.Publishes event) : event.NumbersStart := by
  cases op with
  | complete =>
    obtain ⟨control, -, ctx, identity, hevent⟩ := h
    exact numbersStart_of_numbersDelivery hevent.numbersDelivery
  | _ => cases h

theorem Store.NumbersStarts.apply (hkept : s.Kept) (hs : s.NumbersStarts) {op : Op}
    (hop : op.SparesConnectors) : (apply s op).NumbersStarts := by
  refine apply_induction hs (fun _ _ => hs) fun hrebuild => ?_
  exact (Op.changes_of hkept.unreserved hrebuild (fun _ => Op.Records.numbersStart hop)
    fun _ => Op.Publishes.numbersStart).numbersStarts hs

theorem numbersStarts_applyAll {ops : List Op} (hops : ∀ op ∈ ops, op.SparesConnectors) :
    (applyAll .empty ops).NumbersStarts := by
  suffices hall : (applyAll .empty ops).Kept ∧ (applyAll .empty ops).NumbersStarts from hall.2
  refine List.foldlRecOn ops Zeta.apply (motive := fun s => s.Kept ∧ s.NumbersStarts)
    ⟨kept_empty, List.forall_mem_nil _⟩ fun s hs op hop => ?_
  exact ⟨hs.1.apply op, hs.2.apply hs.1 (hops op hop)⟩

/-! ### The promises -/

section

omit [Platform]

/-- What the journal and the table of effects say about deliveries. -/
structure Store.Delivered (s : Store) : Prop where
  /-- An effect that is unsafe to retry is started once. -/
  once : ∀ key row, s.projections.effects.find? key = some row → row.semantics = .unsafeToRetry →
    (movesOf s.journal key).countP Move.starts ≤ 1
  /-- And once it is started, no worker is handed the effect, ever. -/
  unclaimed : ∀ key row, s.projections.effects.find? key = some row →
    row.semantics = .unsafeToRetry →
    (∃ move ∈ movesOf s.journal key, move.starts = true) →
    ∀ workerName token leaseMs nowMs claim effect s',
      claimNextEgressDelivery s workerName token leaseMs nowMs = .ok (some (claim, effect), s') →
      claim.effectKey ≠ key
  /-- An effect is completed or ambiguous once. -/
  ended : ∀ key, (movesOf s.journal key).countP Move.closes ≤ 1
  /-- And nothing is said about it afterwards. -/
  closed : ∀ key before move after, movesOf s.journal key = before ++ move :: after →
    move.closes = true → after = []

/-- The starts of a connector effect are numbered in order, without gaps. -/
def Store.NumbersDeliveries (s : Store) : Prop :=
  ∀ key row, s.projections.effects.find? key = some row →
    isConnectorOperation row.operation = true →
    ((movesOf s.journal key).filter Move.starts).map Move.number
      = (List.range' 1 row.deliveryAttempts).map some

/-- Facts are about effects that are in the table. -/
theorem Chronicled.course_or_nil (h : Chronicled entries p) (key : String) :
    (∃ row, p.effects.find? key = some row ∧
      Course row.semantics (movesOf entries key) row.status row.deliveryAttempts) ∨
    movesOf entries key = [] := by
  cases hmoves : movesOf entries key with
  | nil => exact .inr rfl
  | cons move moves =>
    rw [← hmoves]
    have hmove : move ∈ movesOf entries key := hmoves ▸ List.mem_cons_self
    obtain ⟨entry, hentry, hkind, fact, hfact, rfl, -⟩ := exists_of_mem_movesOf hmove
    obtain ⟨row, hrow, -⟩ := h.known entry hentry hkind fact hfact
    exact .inl ⟨row, hrow, h.course _ row hrow⟩

theorem find?_of_rehydrateEffect {found : Option EffectRow}
    (h : rehydrateEffect found = .ok (some effect)) : found = some effect := by
  cases found with
  | none => cases h
  | some row =>
    simp only [rehydrateEffect, EffectRow.intoModel, map_ok_iff, ok_iff, Option.some.injEq] at h
    obtain ⟨_, ⟨_, -, _, -, _, -, _, -, _, -, rfl⟩, rfl⟩ := h
    rfl

/-- What a worker is handed is an effect of the table that is ready. -/
theorem ready_of_claimNextEgressDelivery {workerName token : String} {leaseMs : ℕ}
    {claim : EgressDeliveryClaim}
    (h : claimNextEgressDelivery s workerName token leaseMs nowMs =
      .ok (some (claim, effect), s')) :
    claim.effectKey = effect.effectKey ∧
      s.projections.effects.find? effect.effectKey = some effect ∧
      effect.ready s.projections nowMs = true := by
  simp only [claimNextEgressDelivery, bind_ok_iff] at h
  obtain ⟨_, -, _, -, found, hfound, h⟩ := h
  cases found with
  | none => cases h
  | some effect' =>
    simp only [claimEffect, ok_iff, Prod.mk.injEq, Option.some.injEq] at h
    obtain ⟨_, -, ⟨rfl, rfl⟩, -⟩ := h
    have hmem := List.mem_of_mem_head? (find?_of_rehydrateEffect hfound)
    simp only [effectsInPlanningOrder, List.mem_insertionSort, List.mem_filter,
      Bool.and_eq_true] at hmem
    exact ⟨rfl, Table.find?_of_mem hmem.1, hmem.2.1⟩

theorem Store.Kept.delivered (hs : s.Kept) : s.Delivered where
  once key row hrow hnoRetry := by
    rw [((hs.chronicled.course key row hrow).started_once hnoRetry).2]
    split <;> omega
  unclaimed key row hrow hnoRetry hstarts workerName token leaseMs nowMs claim effect s' hclaim
    hkey := by
    obtain ⟨hclaimed, hfind, hready⟩ := ready_of_claimNextEgressDelivery hclaim
    obtain rfl : effect = row := by
      rw [← hclaimed, hkey, hrow] at hfind
      exact (Option.some.inj hfind).symm
    obtain ⟨hfailed, hcount⟩ := (hs.chronicled.course key effect hrow).started_once hnoRetry
    obtain ⟨move, hmove, hstart⟩ := hstarts
    have hpos := List.countP_pos_iff.mpr ⟨move, hmove, hstart⟩
    have hplanned : effect.status ≠ .planned := by
      intro hplanned
      rw [hcount, if_pos hplanned] at hpos
      exact absurd hpos (Nat.lt_irrefl 0)
    simp [EffectRow.ready, hplanned, hfailed, hnoRetry] at hready
  ended key := by
    rcases hs.chronicled.course_or_nil key with ⟨row, -, hcourse⟩ | hnil
    · exact hcourse.closes_once
    · simp [hnil]
  closed key before move after hmoves hcloses := by
    rcases hs.chronicled.course_or_nil key with ⟨row, -, hcourse⟩ | hnil
    · exact hcourse.ends hmoves hcloses
    · simp [hnil] at hmoves

theorem Store.Kept.numbersDeliveries (hs : s.Kept) (hnumbers : s.NumbersStarts) :
    s.NumbersDeliveries := by
  intro key row hrow hconnector
  refine (hs.chronicled.course key row hrow).numbers fun move hmove hstarts => ?_
  obtain ⟨entry, hentry, hkind, fact, hfact, hkey, rfl⟩ := exists_of_mem_movesOf hmove
  obtain ⟨stored, hstored, hoperation⟩ := hs.chronicled.known entry hentry hkind fact hfact
  obtain rfl : row = stored := by
    rw [hkey, hrow] at hstored
    exact Option.some.inj hstored
  refine hnumbers entry hentry hkind fact hfact (hoperation ▸ hconnector) ?_
  simpa [Move.starts] using hstarts

end

/-! ### Claims -/

section

omit [Platform]

/-- The claim an operation on a delivery presents, and when. -/
def Op.presentsDelivery : Op → Option (EgressDeliveryClaim × Int)
  | .renewEgress owner _ nowMs => some (owner, nowMs)
  | .startEgress owner nowMs _ => some (owner, nowMs)
  | .completeEgress owner nowMs _ _ => some (owner, nowMs)
  | .failEgress owner nowMs _ _ _ => some (owner, nowMs)
  | .markEgressAmbiguous owner nowMs _ _ => some (owner, nowMs)
  | _ => none

/-- The table of claims knows the claim, and it has not expired. -/
def Store.OwnsDelivery (s : Store) (claim : EgressDeliveryClaim) (nowMs : Int) : Prop :=
  ∃ row ∈ s.projections.effectClaims.rows, row.effectKey = claim.effectKey ∧
    row.claimToken = claim.token ∧ nowMs ≤ row.claimedUntil

theorem owns_eq_false_of_not_ownsDelivery {claim : EgressDeliveryClaim}
    (h : ¬s.OwnsDelivery claim nowMs) {row : EffectClaimRow}
    (hrow : row ∈ s.projections.effectClaims.rows) : claim.owns nowMs row = false := by
  refine Bool.eq_false_iff.mpr fun howns => h ⟨row, hrow, ?_⟩
  simpa [EgressDeliveryClaim.owns, and_assoc] using howns

theorem claimedEffect_of_not_ownsDelivery {claim : EgressDeliveryClaim}
    (h : ¬s.OwnsDelivery claim nowMs) : claimedEffect s.projections claim nowMs ≠ .ok effect := by
  intro hok
  simp only [claimedEffect, ok_iff, List.any_eq_true] at hok
  obtain ⟨_, ⟨row, hrow, howns⟩, -⟩ := hok
  exact absurd howns (by simp [owns_eq_false_of_not_ownsDelivery h hrow])

end

theorem finish_of_not_ownsDelivery {claim : EgressDeliveryClaim}
    (h : ¬s.OwnsDelivery claim nowMs) (identity : RuntimeEventIdentity) (status : EffectStatus)
    (result : Map) (retryAt : Option Int) :
    commit s
      ((finishClaimedEgressDelivery s claim nowMs identity status result retryAt).map ((), ·))
      = s := by
  refine commit_eq_self fun _ s' hok => ?_
  obtain ⟨t, hfinish, -⟩ := map_ok_iff.mp hok
  simp only [finishClaimedEgressDelivery, bind_ok_iff] at hfinish
  obtain ⟨effect, heffect, -⟩ := hfinish
  exact absurd heffect (claimedEffect_of_not_ownsDelivery h)

/-- A worker whose claim is gone, expired or another's changes nothing. -/
theorem apply_of_not_ownsDelivery {claim : EgressDeliveryClaim}
    (hop : op.presentsDelivery = some (claim, nowMs)) (h : ¬s.OwnsDelivery claim nowMs) :
    apply s op = s := by
  cases op with
  | renewEgress owner leaseMs now =>
    cases hop
    refine commit_eq_self fun renewed s' hok => ?_
    simp only [renewEgressDeliveryClaim, ok_iff, Prod.mk.injEq] at hok
    obtain ⟨_, -, _, -, -, rfl⟩ := hok
    rw [Table.updateWhere_eq_self fun row hrow => owns_eq_false_of_not_ownsDelivery h hrow]
  | startEgress owner now =>
    cases hop
    refine commit_eq_self fun effect s' hok => ?_
    simp only [startClaimedEgressDelivery, bind_ok_iff] at hok
    obtain ⟨effect, heffect, -⟩ := hok
    exact absurd heffect (claimedEffect_of_not_ownsDelivery h)
  | completeEgress owner now identity result =>
    cases hop
    exact finish_of_not_ownsDelivery h identity .completed result none
  | failEgress owner now identity result retryAt =>
    cases hop
    exact finish_of_not_ownsDelivery h identity .failed result retryAt
  | markEgressAmbiguous owner now identity result =>
    cases hop
    exact finish_of_not_ownsDelivery h identity .ambiguous result none
  | _ => simp [Op.presentsDelivery] at hop

/-- In every run, an unsafe effect is started once and not handed out again, every effect ends once
and for good, and no worker acts on a claim that is not its own. If the facts about connector
effects are left to the workers, their starts are numbered without gaps. -/
theorem delivered_of_run (ops : List Op) :
    (applyAll .empty ops).Delivered ∧
    (∀ op claim nowMs, op.presentsDelivery = some (claim, nowMs) →
      ¬(applyAll .empty ops).OwnsDelivery claim nowMs →
        apply (applyAll .empty ops) op = applyAll .empty ops) ∧
    ((∀ op ∈ ops, op.SparesConnectors) → (applyAll .empty ops).NumbersDeliveries) := by
  have hkept := kept_applyAll ops
  refine ⟨hkept.delivered, fun op claim nowMs => apply_of_not_ownsDelivery, fun hops => ?_⟩
  exact hkept.numbersDeliveries (numbersStarts_applyAll hops)

end

namespace Sample

/-- A connector effect is planned for an event. -/
def planned (key semantics : String) : Event where
  id := "planned-" ++ key
  eventType := "runtime.effect.planned"
  source := "zeta"
  payload := [("effect_key", .string key), ("operation", .string "connector:mail:send"),
    ("semantics", .string semantics), ("scope", .string "e1"), ("queue_item_id", .null),
    ("params", .object []), ("status", .string "planned")]
  idempotencyKey := some ("runtime.effect.planned:" ++ key)
  causedBy := some "e1"
  sessionId := none
  runId := none
  turnId := none
  timestampMs := 0
  cursor := none

/-- A delivery fails and is repeated, by another worker. -/
def redelivery : List Op :=
  [.ingest (event "e1" "mail.requested" []), .appendTrusted (planned "k" "at_least_once"),
    .claimEgress "egress" "t1" 100 0, .startEgress ⟨"k", "egress", "t1", 100⟩ 0 (identity "s1"),
    .failEgress ⟨"k", "egress", "t1", 100⟩ 0 (identity "f1") [] (some 0),
    .claimEgress "other" "t2" 100 0, .startEgress ⟨"k", "other", "t2", 100⟩ 0 (identity "s2"),
    .completeEgress ⟨"k", "other", "t2", 100⟩ 0 (identity "c2") []]

theorem redelivery_sparesConnectors : ∀ op ∈ redelivery, op.SparesConnectors := by
  intro op hop
  simp only [redelivery, List.mem_cons, List.not_mem_nil, or_false] at hop
  rcases hop with rfl | rfl | rfl | rfl | rfl | rfl | rfl | rfl
  · trivial
  · intro _ fact hfact _
    have hread : readEffectFact (planned "k" "at_least_once") = .ok
        ⟨"planned-k", .planned, "k", "connector:mail:send", .atLeastOnce, "e1", none, [], none,
          none, none, "e1", 0⟩ := by decide +kernel
    exact congrArg EffectFact.status (Except.ok.inj (hfact.symm.trans hread))
  all_goals trivial

/-- The delivery was started twice, and its starts are numbered. -/
theorem redelivery_delivered :
    (run redelivery).Delivered ∧ (run redelivery).NumbersDeliveries ∧
    movesOf (run redelivery).journal "k"
      = [⟨.planned, none⟩, ⟨.started, some 1⟩, ⟨.failed, some 1⟩, ⟨.started, some 2⟩,
        ⟨.completed, some 2⟩] ∧
    @apply platform (run redelivery) (.startEgress ⟨"k", "egress", "t1", 100⟩ 0 (identity "s3"))
      = run redelivery :=
  have hpromises := @delivered_of_run platform redelivery
  have hclaims : (run redelivery).projections.effectClaims.rows = [] ∧
    movesOf (run redelivery).journal "k"
      = [⟨.planned, none⟩, ⟨.started, some 1⟩, ⟨.failed, some 1⟩, ⟨.started, some 2⟩,
        ⟨.completed, some 2⟩] := by decide +kernel
  ⟨hpromises.1, hpromises.2.2 redelivery_sparesConnectors, hclaims.2,
    hpromises.2.1 _ _ _ rfl fun ⟨_, hrow, _⟩ => List.not_mem_nil (hclaims.1 ▸ hrow)⟩

end Sample

end Zeta
