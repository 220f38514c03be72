import ZetaRuntime.Dispatch.Resources

/-!
# Delivering external effects

An effect is planned, started and ended by journaled facts. Agent runs append theirs as trusted
events; effects of connectors are delivered by workers of the host, which claim them as queue items
are claimed. A claim on an effect is only a row: nothing about it is journaled.
-/

namespace Zeta

open Outcome

/-- Rehydrate an effect. -/
def EffectRow.intoModel (row : EffectRow) : Except DispatchError EffectRow := do
  ensure (row.queueItemId ≠ some "") (.corruptProjection "effects" "queue_item_id")
  ensure (readable row.params) (.corruptProjection "effects" "params_json")
  ensure (row.result.all readable) (.corruptProjection "effects" "result_json")
  ensure (effectStatusIsTerminal row.status = row.result.isSome)
    (.corruptProjection "effects" "result_json")
  ensure (row.deliveryAttempts ≤ u32Max) (.corruptProjection "effects" "delivery_attempts")
  return row

/-- Rehydrate an effect, if there is one. -/
def rehydrateEffect : Option EffectRow → Except DispatchError (Option EffectRow)
  | none => .ok none
  | some row => some <$> row.intoModel

/-- The effect with a key. -/
def loadEffect (p : Projections) (key : String) : Except DispatchError (Option EffectRow) :=
  rehydrateEffect (p.effects.find? key)

/-- The effects that satisfy a condition, in planning order. -/
def effectsInPlanningOrder (s : Store) (wanted : EffectRow → Bool) : List EffectRow :=
  (s.projections.effects.rows.filter fun effect =>
    wanted effect && journaled s.journal effect.plannedEventId).insertionSort
    fun a b =>
      createdBefore s.journal (a.plannedEventId, a.effectKey) (b.plannedEventId, b.effectKey)

/-! ### Claims -/

/-- One worker's receipt for a claimed effect. -/
structure EgressDeliveryClaim where
  effectKey : String
  workerName : String
  token : String
  claimedUntil : Int
  deriving DecidableEq, Repr

/-- Connector effects, by the name of their operation. The comparison ignores ASCII case. -/
def isConnectorOperation (operation : String) : Bool :=
  startsWith (operation.map Char.toLower) "connector:"

/-- Whether an effect may be claimed for delivery now. -/
def EffectRow.ready (effect : EffectRow) (p : Projections) (nowMs : Int) : Bool :=
  (p.effectClaims.find? effect.effectKey).isNone
    && isConnectorOperation effect.operation
    && (effect.status = .planned
      || (effect.status = .failed && effect.availableAt.any (· ≤ nowMs))
      || (effect.status = .started && effect.semantics ≠ .unsafeToRetry))

/-- The end of a delivery lease that starts now. -/
def egressDeadline (nowMs : Int) (leaseMs : ℕ) : Except DispatchError Int := do
  ensure ((leaseMs : Int) ≤ i64Max) (.invalidCoordinationInput "egress_claim")
  ensure (nowMs + leaseMs ≤ i64Max) (.invalidCoordinationInput "egress_claim")
  return nowMs + leaseMs

/-- Write the claim row of an effect. -/
def insertEffectClaim (row : EffectClaimRow) (p : Projections) :
    Except DispatchError Projections := do
  ensure (sqlText row.effectKey ∧ sqlText row.workerName ∧ sqlText row.claimToken ∧
    row.claimedAt < row.claimedUntil) (.database "create egress delivery claim")
  ensure (∀ other ∈ p.effectClaims.rows, other.claimToken ≠ row.claimToken)
    (.database "create egress delivery claim")
  let effectClaims ← require (p.effectClaims.insert? row) (.database "create egress delivery claim")
  return { p with effectClaims }

/-- Claim an effect, if there is one. -/
def claimEffect (s : Store) (workerName token : String) (nowMs claimedUntil : Int) :
    Option EffectRow → Except DispatchError (Option (EgressDeliveryClaim × EffectRow) × Store)
  | none => .ok (none, s)
  | some effect => do
    let projections ← insertEffectClaim
      { effectKey := effect.effectKey, workerName, claimToken := token, claimedAt := nowMs,
        claimedUntil } s.projections
    return (some ({ effectKey := effect.effectKey, workerName, token, claimedUntil }, effect),
      { s with projections })

/-- Claim one ready connector effect in durable planning order. -/
def claimNextEgressDelivery (s : Store) (workerName token : String) (leaseMs : ℕ) (nowMs : Int) :
    Except DispatchError (Option (EgressDeliveryClaim × EffectRow) × Store) := do
  ensure (workerName ≠ "" ∧ leaseMs ≠ 0) (.invalidCoordinationInput "egress_claim")
  let claimedUntil ← egressDeadline nowMs leaseMs
  let effect ← rehydrateEffect (effectsInPlanningOrder s (·.ready s.projections nowMs)).head?
  claimEffect s workerName token nowMs claimedUntil effect

/-- The claim row a receipt names, while it has not expired. -/
def EgressDeliveryClaim.owns (claim : EgressDeliveryClaim) (nowMs : Int) (row : EffectClaimRow) :
    Bool :=
  row.effectKey = claim.effectKey && row.claimToken = claim.token && nowMs ≤ row.claimedUntil

/-- Release expired connector delivery claims for recovery. -/
def reconcileExpiredEgressDeliveryClaims (s : Store) (nowMs : Int) : ℕ × Store :=
  (s.projections.effectClaims.countWhere fun claim => claim.claimedUntil < nowMs,
    { s with projections := { s.projections with
        effectClaims := s.projections.effectClaims.deleteWhere fun claim =>
          claim.claimedUntil < nowMs } })

/-- Renew one live connector delivery claim. -/
def renewEgressDeliveryClaim (s : Store) (claim : EgressDeliveryClaim) (leaseMs : ℕ) (nowMs : Int) :
    Except DispatchError (Bool × Store) := do
  let claimedUntil ← egressDeadline nowMs leaseMs
  ensure (∀ row ∈ s.projections.effectClaims.rows, claim.owns nowMs row →
    row.claimedAt < claimedUntil)
    (.database "renew egress delivery claim")
  return (s.projections.effectClaims.countWhere (claim.owns nowMs) ≠ 0,
    { s with projections := { s.projections with
        effectClaims := s.projections.effectClaims.updateWhere (claim.owns nowMs)
          (fun row => { row with claimedUntil }) (fun _ => rfl) } })

/-- The effect a live claim is about. -/
def claimedEffect (p : Projections) (claim : EgressDeliveryClaim) (nowMs : Int) :
    Except DispatchError EffectRow := do
  ensure (p.effectClaims.rows.any (claim.owns nowMs)) (.invalidCoordinationInput "egress_claim")
  let found ← loadEffect p claim.effectKey
  require found (.corruptProjection "effects" "effect_key")

/-- The result of an effect, if it has one. -/
def resultField : Option Map → Map
  | some result => [("result", .object result)]
  | none => []

/-- The retry time of an effect, if it has one. -/
def retryField : Option Int → Map
  | some retryAt => [("retry_at", .number (.int retryAt))]
  | none => []

/-- A fact about the delivery of an effect. -/
def effectEvent (effect : EffectRow) (status : EffectStatus) (identity : RuntimeEventIdentity)
    (deliveryAttempt : ℕ) (result : Option Map) (retryAt : Option Int) : Event :=
  runtimeFact identity ("runtime.effect." ++ effectStatusStr status)
    ([("effect_key", .string effect.effectKey),
      ("operation", .string effect.operation),
      ("semantics", .string (effectSemanticsStr effect.semantics)),
      ("scope", .string effect.scope),
      ("queue_item_id", optionalText effect.queueItemId),
      ("params", .object effect.params),
      ("status", .string (effectStatusStr status)),
      ("delivery_attempt", .number (.int deliveryAttempt))]
      ++ resultField result ++ retryField retryAt)
    (effectIdempotencyKey status effect.effectKey (some deliveryAttempt))
    (some effect.scope) none none none

section

variable [Platform]

/-- Record that a delivery starts. -/
def startDelivery (s : Store) (effect : EffectRow) (identity : RuntimeEventIdentity) :
    Except DispatchError (EffectRow × Store) := do
  ensure (effect.deliveryAttempts + 1 ≤ u32Max) (.invalidCoordinationInput "delivery_attempt")
  let (_, s) ← appendRuntimeEvent s
    (effectEvent effect .started identity (effect.deliveryAttempts + 1) none none)
  let found ← loadEffect s.projections effect.effectKey
  let updated ← require found (.corruptProjection "effects" "effect_key")
  return (updated, s)

/-- Record the external delivery barrier under one live egress claim. -/
def startClaimedEgressDelivery (s : Store) (claim : EgressDeliveryClaim) (nowMs : Int)
    (identity : RuntimeEventIdentity) : Except DispatchError (EffectRow × Store) := do
  let effect ← claimedEffect s.projections claim nowMs
  if effect.status = .started then return (effect, s) else startDelivery s effect identity

/-- Record the end of a started delivery and release its claim. -/
def finishClaimedEgressDelivery (s : Store) (claim : EgressDeliveryClaim) (nowMs : Int)
    (identity : RuntimeEventIdentity) (status : EffectStatus) (result : Map)
    (retryAt : Option Int) :
    Except DispatchError Store := do
  let effect ← claimedEffect s.projections claim nowMs
  ensure (effect.status = .started) (.invalidCoordinationInput "egress_effect_status")
  ensure (¬(status = .failed ∧ effect.semantics = .unsafeToRetry))
    (.invalidCoordinationInput "egress_effect_status")
  let (_, s) ← appendRuntimeEvent s
    (effectEvent effect status identity effect.deliveryAttempts (some result) retryAt)
  return { s with projections := { s.projections with
    effectClaims := s.projections.effectClaims.deleteWhere fun row =>
      row.effectKey = claim.effectKey && row.claimToken = claim.token } }

/-- Complete one started connector effect and release its claim. -/
def completeClaimedEgressDelivery (s : Store) (claim : EgressDeliveryClaim) (nowMs : Int)
    (identity : RuntimeEventIdentity) (result : Map) : Except DispatchError Store :=
  finishClaimedEgressDelivery s claim nowMs identity .completed result none

/-- Fail one started connector effect and optionally record its retry time. -/
def failClaimedEgressDelivery (s : Store) (claim : EgressDeliveryClaim) (nowMs : Int)
    (identity : RuntimeEventIdentity) (result : Map) (retryAt : Option Int) :
    Except DispatchError Store :=
  finishClaimedEgressDelivery s claim nowMs identity .failed result retryAt

/-- Mark one unsafe connector effect ambiguous and release its claim. -/
def markClaimedEgressDeliveryAmbiguous (s : Store) (claim : EgressDeliveryClaim) (nowMs : Int)
    (identity : RuntimeEventIdentity) (result : Map) : Except DispatchError Store :=
  finishClaimedEgressDelivery s claim nowMs identity .ambiguous result none

end

end Zeta
