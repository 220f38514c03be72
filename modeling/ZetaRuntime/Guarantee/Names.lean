import Mathlib.Data.List.Pairwise
import ZetaRuntime.Guarantee.Reserved

/-!
# The names of items

The name of an item is made from the id of its event and the id of its agent, with an underscore in
between. An agent id keeps its underscores, and gets more of them in the place of its separators. So
a name can be read in several ways, and items that are different can have one name.

It happens in two ways, and this file proves that there are no others. Two agent ids can become the
same. And if the id of one event is that of another one followed by an underscore and a rest, the
rest can be an agent of the other event, or its agent can be the rest followed by an agent of the
first.
-/

namespace Zeta

open Outcome

variable {agents : List String} {a b d e : String}

/-- The names of the unbound and the bound items of some events, if every agent takes every event.
-/
def itemIds (events agents : List String) : List String :=
  events.flatMap fun e => pendingQueueItemId e :: agents.map (queueItemId e)

/-- Agents that stay different, and events none of which is another one followed by an underscore
and what could be an agent, or the beginning of one. -/
structure Unambiguous (events agents : List String) : Prop where
  normalised : events ≠ [] → ∀ a ∈ agents, ∀ b ∈ agents, safeAgentId a = safeAgentId b → a = b
  apart : ∀ e ∈ events, ∀ rest, e ++ "_" ++ rest ∈ events → ∀ a ∈ agents,
    safeAgentId a ≠ rest ∧ ∀ b ∈ agents, safeAgentId a ≠ rest ++ "_" ++ safeAgentId b

/-! ### Splitting at a separator -/

/-- A text splits at a separator in one way, or one of the first parts goes on over a separator. -/
theorem append_sep_eq_iff {x y : String} :
    a ++ "_" ++ x = b ++ "_" ++ y ↔ (a = b ∧ x = y) ∨
      (∃ rest, b = a ++ "_" ++ rest ∧ x = rest ++ "_" ++ y) ∨
      ∃ rest, a = b ++ "_" ++ rest ∧ y = rest ++ "_" ++ x := by
  constructor
  · intro h
    have hlist := congrArg String.toList h
    simp only [String.toList_append, List.append_assoc] at hlist
    rw [show ("_" : String).toList = ['_'] from rfl, List.singleton_append,
      List.singleton_append] at hlist
    rcases List.append_eq_append_iff.mp hlist with ⟨rest, hb, hx⟩ | ⟨rest, ha, hy⟩
    · cases rest with
      | nil =>
        refine .inl ⟨String.toList_inj.mp (by simpa using hb.symm), String.toList_inj.mp ?_⟩
        simpa using hx
      | cons c rest =>
        obtain ⟨rfl, hx⟩ : '_' = c ∧ x.toList = rest ++ '_' :: y.toList := by simpa using hx
        refine .inr (.inl ⟨String.ofList rest, String.toList_inj.mp ?_, String.toList_inj.mp ?_⟩)
        · simp [hb]
        · simpa using hx
    · cases rest with
      | nil =>
        refine .inl ⟨String.toList_inj.mp (by simpa using ha), String.toList_inj.mp ?_⟩
        simpa using hy.symm
      | cons c rest =>
        obtain ⟨rfl, hy⟩ : '_' = c ∧ y.toList = rest ++ '_' :: x.toList := by simpa using hy
        refine .inr (.inr ⟨String.ofList rest, String.toList_inj.mp ?_, String.toList_inj.mp ?_⟩)
        · simp [ha]
        · simpa using hy
  · rintro (⟨rfl, rfl⟩ | ⟨rest, rfl, rfl⟩ | ⟨rest, rfl, rfl⟩)
    · rfl
    · simp only [String.append_assoc]
    · simp only [String.append_assoc]

theorem queueItemId_eq_iff :
    queueItemId e a = queueItemId d b ↔ (e = d ∧ safeAgentId a = safeAgentId b) ∨
      (∃ rest, d = e ++ "_" ++ rest ∧ safeAgentId a = rest ++ "_" ++ safeAgentId b) ∨
      ∃ rest, e = d ++ "_" ++ rest ∧ safeAgentId b = rest ++ "_" ++ safeAgentId a := by
  rw [← append_sep_eq_iff, queueItemId, queueItemId, String.append_assoc, String.append_assoc,
    String.append_assoc, String.append_assoc, String.append_right_inj, ← String.append_assoc,
    ← String.append_assoc]

theorem pendingQueueItemId_eq_queueItemId_iff :
    pendingQueueItemId e = queueItemId d a ↔ e = d ++ "_" ++ safeAgentId a := by
  rw [pendingQueueItemId, queueItemId, String.append_assoc, String.append_assoc,
    String.append_right_inj, ← String.append_assoc]

/-! ### Distinct names -/

/-- The names for one event are distinct exactly if the agents stay different. -/
theorem nodup_itemIds_of_event (hagents : agents.Nodup) :
    (pendingQueueItemId e :: agents.map (queueItemId e)).Nodup ↔
      ∀ a ∈ agents, ∀ b ∈ agents, safeAgentId a = safeAgentId b → a = b := by
  rw [List.nodup_cons, List.nodup_map_iff_inj_on hagents]
  constructor
  · rintro ⟨-, hinj⟩ a ha b hb hsafe
    exact hinj a ha b hb (queueItemId_eq_iff.mpr (.inl ⟨rfl, hsafe⟩))
  · intro hsafe
    refine ⟨fun hmem => ?_, fun a ha b hb heq => hsafe a ha b hb ?_⟩
    · obtain ⟨a, -, heq⟩ := List.mem_map.mp hmem
      exact queueItemId_ne_pendingQueueItemId e a heq
    · rw [queueItemId, queueItemId, String.append_right_inj] at heq
      exact heq

/-- The names for two events are disjoint exactly if neither is the other one followed by an
underscore and what could be an agent, or the beginning of one. -/
theorem disjoint_itemIds_iff (hne : e ≠ d) :
    List.Disjoint (pendingQueueItemId e :: agents.map (queueItemId e))
        (pendingQueueItemId d :: agents.map (queueItemId d)) ↔
      (∀ rest, d = e ++ "_" ++ rest → ∀ a ∈ agents, safeAgentId a ≠ rest ∧
        ∀ b ∈ agents, safeAgentId a ≠ rest ++ "_" ++ safeAgentId b) ∧
      ∀ rest, e = d ++ "_" ++ rest → ∀ a ∈ agents, safeAgentId a ≠ rest ∧
        ∀ b ∈ agents, safeAgentId a ≠ rest ++ "_" ++ safeAgentId b := by
  constructor
  · intro hdisjoint
    have hbound : ∀ a ∈ agents,
        queueItemId e a ∉ pendingQueueItemId d :: agents.map (queueItemId d) :=
      fun a ha => hdisjoint (.tail _ (List.mem_map_of_mem ha))
    have hbound' : ∀ a ∈ agents,
        queueItemId d a ∉ pendingQueueItemId e :: agents.map (queueItemId e) :=
      fun a ha hmem => hdisjoint hmem (.tail _ (List.mem_map_of_mem ha))
    refine ⟨fun rest hrest a ha => ⟨?_, fun b hb heq => ?_⟩, fun rest hrest a ha =>
      ⟨?_, fun b hb heq => ?_⟩⟩
    · rintro rfl
      exact hbound a ha
        (List.mem_cons.mpr (.inl (pendingQueueItemId_eq_queueItemId_iff.mpr hrest).symm))
    · refine hbound a ha (.tail _ (List.mem_map.mpr ⟨b, hb, ?_⟩))
      exact (queueItemId_eq_iff.mpr (.inr (.inl ⟨rest, hrest, heq⟩))).symm
    · rintro rfl
      exact hbound' a ha
        (List.mem_cons.mpr (.inl (pendingQueueItemId_eq_queueItemId_iff.mpr hrest).symm))
    · refine hbound' a ha (.tail _ (List.mem_map.mpr ⟨b, hb, ?_⟩))
      exact (queueItemId_eq_iff.mpr (.inr (.inl ⟨rest, hrest, heq⟩))).symm
  · rintro ⟨hforward, hbackward⟩ x hx hx'
    rw [List.mem_cons, List.mem_map] at hx hx'
    rcases hx with rfl | ⟨a, ha, rfl⟩
    · rcases hx' with heq | ⟨b, hb, heq⟩
      · exact hne (pendingQueueItemId_inj heq)
      · exact (hbackward _ (pendingQueueItemId_eq_queueItemId_iff.mp heq.symm) b hb).1 rfl
    · rcases hx' with heq | ⟨b, hb, heq⟩
      · exact (hforward _ (pendingQueueItemId_eq_queueItemId_iff.mp heq.symm) a ha).1 rfl
      · rcases queueItemId_eq_iff.mp heq with ⟨hsame, -⟩ | ⟨rest, hrest, hsafe⟩
          | ⟨rest, hrest, hsafe⟩
        · exact hne hsame.symm
        · exact (hbackward rest hrest b hb).2 a ha hsafe
        · exact (hforward rest hrest a ha).2 b hb hsafe

/-- The names of items are those of the accepting routes, in their order. -/
theorem map_queueItemId_routeDecisions [Platform] {event : Event} {routes : List Route}
    {decisions : List RouteDecision} (h : routeDecisions event routes = .ok decisions) :
    decisions.map (·.queueItemId)
      = ((routes.filter (·.matches event)).map (·.agentId)).map (queueItemId event.id) := by
  induction routes generalizing decisions with
  | nil =>
    cases h
    rfl
  | cons route routes ih =>
    rw [routeDecisions] at h
    split at h
    · rename_i hmatches
      simp only [Route.decide, ok_iff] at h
      obtain ⟨decision, ⟨sessionId, -, rfl⟩, rest, hrest, rfl⟩ := h
      simp only [List.filter_cons, hmatches, if_true, List.map_cons, ih hrest]
    · rename_i hmatches
      simp only [List.filter_cons, hmatches, Bool.false_eq_true, if_false, ih h]

/-- Names are distinct exactly if they are unambiguous. If they are, the decisions about an event
have distinct items. -/
theorem itemIds_nodup_iff_unambiguous [Platform] {events agents : List String}
    (hevents : events.Nodup) (hagents : agents.Nodup) :
    ((itemIds events agents).Nodup ↔ Unambiguous events agents) ∧
      (Unambiguous events agents → ∀ (event : Event) (routes : List Route)
        (decisions : List RouteDecision), event.id ∈ events → routes.map (·.agentId) = agents →
        routeEvent event routes = .ok decisions → (decisions.map (·.queueItemId)).Nodup) := by
  have hiff : (itemIds events agents).Nodup ↔ Unambiguous events agents := by
    rw [itemIds, List.nodup_flatMap]
    constructor
    · rintro ⟨heach, hpairs⟩
      refine ⟨fun hne => ?_, fun e he rest hrest a ha => ?_⟩
      · obtain ⟨e, he⟩ := List.exists_mem_of_ne_nil events hne
        exact (nodup_itemIds_of_event hagents).mp (heach e he)
      · have hne : e ≠ e ++ "_" ++ rest := by
          intro heq
          have hlength := congrArg String.length heq
          simp only [String.length_append, show ("_" : String).length = 1 from rfl] at hlength
          omega
        have : Std.Symm (Function.onFun List.Disjoint
            fun e => pendingQueueItemId e :: agents.map (queueItemId e)) :=
          ⟨fun _ _ h _ hx hx' => h hx' hx⟩
        have hdisjoint := hpairs.forall he hrest hne
        exact ((disjoint_itemIds_iff hne).mp hdisjoint).1 rest rfl a ha
    · intro hunambiguous
      refine ⟨fun e he => ?_, hevents.pairwise_of_forall_ne fun e he d hd hne => ?_⟩
      · exact (nodup_itemIds_of_event hagents).mpr
          (hunambiguous.normalised (List.ne_nil_of_mem he))
      · refine (disjoint_itemIds_iff hne).mpr ⟨?_, ?_⟩
        · rintro rest rfl
          exact hunambiguous.apart e he rest hd
        · rintro rest rfl
          exact hunambiguous.apart d hd rest he
  refine ⟨hiff, fun hunambiguous event routes decisions hevent hroutes h => ?_⟩
  simp only [routeEvent, ok_iff] at h
  obtain ⟨plan, hplan, rfl⟩ := h
  have hplan_nodup : (plan.map (·.queueItemId)).Nodup := by
    have heach : (pendingQueueItemId event.id :: agents.map (queueItemId event.id)).Nodup :=
      (nodup_itemIds_of_event hagents).mpr (hunambiguous.normalised (List.ne_nil_of_mem hevent))
    rw [map_queueItemId_routeDecisions hplan]
    refine List.Nodup.sublist (List.Sublist.map _ ?_) (List.nodup_cons.mp heach).2
    rw [← hroutes]
    exact List.filter_sublist.map _
  rcases plan with _ | ⟨first, _ | ⟨second, plan⟩⟩
  · simp [bindSingle]
  · simp [bindSingle]
  · exact hplan_nodup

open Sample in
/-- A review team and a bot with separators in their names have distinct items. -/
theorem separated_nodup : (itemIds ["e1", "e2"] ["team.review", "bot:triage"]).Nodup := by
  let _ : Platform := platform
  refine (itemIds_nodup_iff_unambiguous (by decide) (by decide)).1.mpr ⟨fun _ => by decide, ?_⟩
  intro e he rest hrest
  have hlength : ∀ d ∈ ["e1", "e2"], d.length = 2 := by decide
  have hlong := hlength _ hrest
  rw [String.length_append, String.length_append, hlength e he,
    show ("_" : String).length = 1 from rfl] at hlong
  omega

open Sample in
/-- Two agents whose names differ in a separator have one item, and an event for both of them cannot
be routed. Two events share a name for an item if the id of one is that of the other with an agent.
-/
theorem separators_collide :
    ["a.b", "a:b"].Nodup ∧ ¬(itemIds ["e"] ["a.b", "a:b"]).Nodup ∧
      (@routeIngressEvent platform (run [.ingest (event "e" "task" [])]) "e"
        [route "a.b" "task", route "a:b" "task"]
        [identity "f1", identity "f2", identity "f3"]).toOption.isNone = true ∧
      ["e", "e_a"].Nodup ∧ ¬(itemIds ["e", "e_a"] ["a"]).Nodup := by
  decide +kernel

end Zeta
