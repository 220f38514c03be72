import ZetaRuntime.Guarantee.Reserved

/-!
# What a rebuild gives back

A rebuild that succeeds gives back the live tables, up to the documented recovery: work that was
claimed is claimable again and there is no coordination left. This holds in every run in which
nobody writes lifecycle facts but the dispatcher.

It fails in runs in which agents publish such facts. Recovery puts a replayed claim back to
`available` if its item is bound and to `pending` if it is not, and the dispatcher records a claim
for bound items only. An agent can publish a claim on an item without an agent. When the lease on
such an item ends, it is `available` in the live table and `pending` after a rebuild.
-/

namespace Zeta

open Outcome

/-- In a run without forged facts, a rebuild that succeeds keeps the journal and gives back the live
tables, with claimed work recovered and without coordination. -/
theorem rebuildProjections_recovered [Platform] [LawfulFloatText] {ops : List Op}
    (hops : ∀ op ∈ ops, op.Authentic) {n : ℕ} {s' : Store}
    (h : rebuildProjections (applyAll .empty ops) = .ok (n, s')) :
    s'.journal = (applyAll .empty ops).journal ∧
      Recovered (applyAll .empty ops).projections s'.projections := by
  obtain ⟨p, hreplay, rfl⟩ := rebuildProjections_ok h
  have hhistory := History.applyAll history_empty hops
  refine ⟨rfl, (hhistory.faithful [] p ?_).recovered⟩
  rwa [List.append_nil]

namespace Sample

/-- The payload of a queue fact. -/
def queuePayload (queueItemId targetAgent status : String) : Map :=
  [("queue_item_id", .string queueItemId), ("event_id", .string "e"),
    ("target_agent", .string targetAgent), ("status", .string status)]

/-- A run offers two items nobody routed, one of them without an agent. While the one without an
agent is claimed, the run of the other publishes that it is. Then the lease ends. -/
def forgedClaim : List Op := running ++ [
  .complete (claim "qi_e" "t") 0 [identity "f4", identity "f5", identity "f6", identity "f7"]
    (succeeding [
      .publish "p" "runtime.queue_item.available" (queuePayload "qi_x" "" "available") none 0,
      .publish "p" "runtime.queue_item.available" (queuePayload "qi_y" "b" "available") none 1]),
  .claim "worker" "u" 10 0,
  .claim "worker" "v" 1000 0,
  .start (claim "qi_y" "v") 0 (identity "g1") (identity "g2") "1970-01-01T00:00:00Z" none,
  .complete (claim "qi_y" "v") 0 [identity "g3", identity "g4", identity "g5"]
    (succeeding
      [.publish "p" "runtime.queue_item.claimed" (queuePayload "qi_x" "" "claimed") none 0]),
  .reconcile 20]

/-- What a rebuild says of the status of an item. -/
def rebuiltStatus (s : Store) (queueItemId : String) : Option QueueItemStatus :=
  (@rebuildProjections platform s).toOption.bind fun r =>
    (r.2.projections.queueItems.find? queueItemId).map (·.status)

end Sample

open Sample in
/-- After a run that is claimed and not forged, a rebuild gives back what it should. -/
theorem running_recovered :
    ∃ n s', @rebuildProjections platform (run running) = .ok (n, s') ∧
      s'.journal = (run running).journal ∧
      @Recovered platform (run running).projections s'.projections := by
  obtain ⟨⟨n, s'⟩, hr⟩ := exists_ok (x := @rebuildProjections platform (run running))
    (by decide +kernel)
  refine ⟨n, s', hr, @rebuildProjections_recovered platform platform_lawful running ?_ n s' hr⟩
  simp [running, Op.Authentic]

open Sample in
/-- After a forged claim, an item that is available is pending after a rebuild. -/
theorem forgedClaim_not_recovered :
    ∃ n s', @rebuildProjections platform (run forgedClaim) = .ok (n, s') ∧
      ¬@Recovered platform (run forgedClaim).projections s'.projections := by
  have hstatus : ((run forgedClaim).projections.queueItems.find? "qi_x").map (·.status)
        = some .available ∧ rebuiltStatus (run forgedClaim) "qi_x" = some .pending := by
    decide +kernel
  obtain ⟨hlive, hrebuilt⟩ := hstatus
  rw [rebuiltStatus, Option.bind_eq_some_iff] at hrebuilt
  obtain ⟨⟨n, s'⟩, hok, hrebuilt⟩ := hrebuilt
  have hr : @rebuildProjections platform (run forgedClaim) = .ok (n, s') := by
    cases hresult : @rebuildProjections platform (run forgedClaim) with
    | error e => rw [hresult] at hok; cases hok
    | ok r => rw [hresult] at hok; exact congrArg _ (Option.some.inj hok)
  refine ⟨n, s', hr, fun hrecovered => ?_⟩
  obtain ⟨row, hrow, hlive⟩ := Option.map_eq_some_iff.mp hlive
  obtain ⟨row', hrow', hmatches⟩ := Table.Matches.find?_some (fun a b hab => by
    rw [hab, QueueItemRow.recovered]; split <;> rfl) (@Recovered.queueItems platform _ _ hrecovered)
      hrow
  rw [hrow', hmatches, QueueItemRow.recovered, if_neg (by simp [hlive])] at hrebuilt
  simp [hlive] at hrebuilt

end Zeta
