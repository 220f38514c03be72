import ZetaRuntime.Index.Payload

/-!
# Projecting external effects

An effect is planned once and then moves through started to one of three outcomes; only a failed one
may be started again. Every fact after the first repeats the identity of the effect: operation,
semantics, scope, queue item, parameters and causal parent. The parameters are compared as the JSON
text of the column, so two facts whose parameters differ only in key order are different effects to
a live table, and the same effect to a rebuilt one.
-/

namespace Zeta

open Outcome

/-- The text of a status. -/
def effectStatusStr : EffectStatus → String
  | .planned => "planned"
  | .started => "started"
  | .completed => "completed"
  | .failed => "failed"
  | .ambiguous => "ambiguous"

/-- The status with a given text. -/
def parseEffectStatus (value : String) : Option EffectStatus :=
  if value = "planned" then some .planned
  else if value = "started" then some .started
  else if value = "completed" then some .completed
  else if value = "failed" then some .failed
  else if value = "ambiguous" then some .ambiguous
  else none

/-- The text of a retry guarantee. -/
def effectSemanticsStr : EffectDeliverySemantics → String
  | .idempotentWithKey => "idempotent_with_key"
  | .connectorDeduplicated => "connector_deduplicated"
  | .atLeastOnce => "at_least_once"
  | .unsafeToRetry => "unsafe_to_retry"

/-- The retry guarantee with a given text. -/
def parseEffectSemantics (value : String) : Option EffectDeliverySemantics :=
  if value = "idempotent_with_key" then some .idempotentWithKey
  else if value = "connector_deduplicated" then some .connectorDeduplicated
  else if value = "at_least_once" then some .atLeastOnce
  else if value = "unsafe_to_retry" then some .unsafeToRetry
  else none

/-- Whether a status is an outcome. -/
def effectStatusIsTerminal : EffectStatus → Bool
  | .completed | .failed | .ambiguous => true
  | .planned | .started => false

/-- The edges of the effect state machine. -/
def effectCanTransition : EffectStatus → EffectStatus → Bool
  | .planned, .started => true
  | .failed, .started => true
  | .started, .completed => true
  | .started, .failed => true
  | .started, .ambiguous => true
  | _, _ => false

/-- The idempotency key of an effect fact. -/
def effectIdempotencyKey (status : EffectStatus) (key : String) : Option ℕ → String
  | some deliveryAttempt =>
    "runtime.effect." ++ effectStatusStr status ++ ":" ++ key ++ ":" ++ toString deliveryAttempt
  | none => "runtime.effect." ++ effectStatusStr status ++ ":" ++ key

theorem effectIdempotencyKey_none (status : EffectStatus) (key : String) :
    effectIdempotencyKey status key none
      = "runtime.effect." ++ effectStatusStr status ++ ":" ++ key := rfl

theorem effectIdempotencyKey_some (status : EffectStatus) (key : String) (number : ℕ) :
    effectIdempotencyKey status key (some number)
      = "runtime.effect." ++ effectStatusStr status ++ ":" ++ key ++ ":" ++ toString number := rfl

theorem startsWith_effectIdempotencyKey (status : EffectStatus) (key : String) (number : Option ℕ) :
    startsWith (effectIdempotencyKey status key number) "runtime.effect." = true := by
  cases number with
  | none =>
    rw [effectIdempotencyKey_none, String.append_assoc, String.append_assoc]
    exact startsWith_append _ _
  | some number =>
    rw [effectIdempotencyKey_some, String.append_assoc, String.append_assoc, String.append_assoc,
      String.append_assoc]
    exact startsWith_append _ _

/-- What an effect lifecycle fact says. -/
structure EffectFact where
  eventId : String
  status : EffectStatus
  key : String
  operation : String
  semantics : EffectDeliverySemantics
  scope : String
  queueItemId : Option String
  params : Map
  result : Option Map
  deliveryAttempt : Option ℕ
  retryAt : Option Int
  causedBy : String
  timestampMs : Int
  deriving DecidableEq, Repr

/-- The status of an effect fact, which its type and payload must agree on. -/
def lifecycleEffectStatus (event : Event) : Except DispatchError EffectStatus := do
  let suffix := lastSegment event.eventType
  let status ← require (parseEffectStatus suffix) (invalidLifecycle event "status")
  let supplied ← requiredPayloadString event "status" false
  ensure (supplied = suffix) (invalidLifecycle event "status")
  return status

/-- Outcomes carry a result, and unsafe effects end ambiguous where others end failed. -/
def validateEffectResult (event : Event) (status : EffectStatus)
    (semantics : EffectDeliverySemantics) (result : Option Map) : Except DispatchError Unit := do
  ensure (effectStatusIsTerminal status = result.isSome) (invalidLifecycle event "result")
  ensure (¬(status = .ambiguous ∧ semantics ≠ .unsafeToRetry)) (invalidLifecycle event "semantics")
  ensure (¬(status = .failed ∧ semantics = .unsafeToRetry)) (invalidLifecycle event "status")

/-- What the payload of an effect lifecycle event says. -/
def readEffectFact (event : Event) : Except DispatchError EffectFact := do
  let status ← lifecycleEffectStatus event
  let key ← requiredRuntimeId event "effect_key"
  let operation ← requiredRuntimeId event "operation"
  let semanticsText ← requiredRuntimeId event "semantics"
  let semantics ← require (parseEffectSemantics semanticsText) (invalidLifecycle event "semantics")
  let scope ← requiredRuntimeId event "scope"
  let queueItemId ← optionalPayloadString event "queue_item_id"
  ensure (queueItemId ≠ some "") (invalidLifecycle event "queue_item_id")
  let params ← requiredPayloadObject event "params"
  let result ← optionalPayloadObject event "result"
  let deliveryAttempt ← optionalPayloadU32 event "delivery_attempt"
  let retryAt ← optionalPayloadI64 event "retry_at"
  let causedBy ← require (event.causedBy.filter (· ≠ "")) (invalidLifecycle event "caused_by")
  ensure (event.idempotencyKey = some (effectIdempotencyKey status key deliveryAttempt))
    (invalidLifecycle event "idempotency_key")
  validateEffectResult event status semantics result
  return {
    eventId := event.id
    status, key, operation, semantics, scope, queueItemId, params, result, deliveryAttempt, retryAt,
    causedBy
    timestampMs := event.timestampMs }

/-- The error of a fact that does not fit its effect. -/
def EffectFact.invalid (fact : EffectFact) (field : String) : DispatchError :=
  .invalidLifecycleEvent fact.eventId field

/-- The row of a planned effect. -/
def EffectFact.plannedRow (fact : EffectFact) : EffectRow where
  effectKey := fact.key
  operation := fact.operation
  semantics := fact.semantics
  scope := fact.scope
  queueItemId := fact.queueItemId
  params := fact.params
  status := .planned
  result := none
  causedBy := fact.causedBy
  plannedEventId := fact.eventId
  terminalEventId := none
  updatedAt := fact.timestampMs
  deliveryAttempts := 0
  availableAt := some fact.timestampMs

/-- Plan a new effect. -/
def planEffect (fact : EffectFact) (p : Projections) : Except DispatchError Projections := do
  ensure (fact.deliveryAttempt = none ∧ fact.retryAt = none) (fact.invalid "delivery_attempt")
  ensure (sqlText fact.key ∧ sqlText fact.operation ∧ sqlText fact.scope ∧ sqlText fact.causedBy ∧
    sqlText fact.eventId) (.database "project effect planning")
  ensure (∀ other ∈ p.effects.rows, other.plannedEventId ≠ fact.eventId)
    (.database "project effect planning")
  let effects ← require (p.effects.insert? fact.plannedRow) (.database "project effect planning")
  return { p with effects }

/-- The delivery count after a fact: a numbered start is the next one, an outcome the current. -/
def nextDeliveryAttempts (fact : EffectFact) (stored : ℕ) : Except DispatchError ℕ :=
  match fact.deliveryAttempt with
  | none => .ok stored
  | some deliveryAttempt =>
    if fact.status = .started then do
      ensure (deliveryAttempt = min (stored + 1) u32Max) (fact.invalid "delivery_attempt")
      return deliveryAttempt
    else do
      ensure (deliveryAttempt = stored) (fact.invalid "delivery_attempt")
      return stored

/-- Move an existing effect. -/
def moveEffect (fact : EffectFact) (p : Projections) : Except DispatchError Projections := do
  let stored ← require (p.effects.find? fact.key) (fact.invalid "effect_key")
  ensure (stored.operation = fact.operation ∧ stored.semantics = fact.semantics ∧
    stored.scope = fact.scope ∧ stored.queueItemId = fact.queueItemId ∧
    stored.params = fact.params ∧ stored.causedBy = fact.causedBy) (fact.invalid "effect_identity")
  ensure (effectCanTransition stored.status fact.status) (fact.invalid "status")
  ensure (stored.deliveryAttempts ≤ u32Max) (fact.invalid "delivery_attempt")
  let deliveryAttempts ← nextDeliveryAttempts fact stored.deliveryAttempts
  ensure (fact.status = .failed ∨ fact.retryAt = none) (fact.invalid "retry_at")
  return { p with
    effects := p.effects.updateWhere (fun row => row.effectKey = fact.key)
      (fun row => { row with
        status := fact.status
        result := fact.result
        terminalEventId := if effectStatusIsTerminal fact.status then some fact.eventId else none
        updatedAt := fact.timestampMs
        deliveryAttempts
        availableAt := fact.retryAt })
      (fun _ => rfl) }

/-- What an effect fact does to the tables. -/
def applyEffectFact (fact : EffectFact) (p : Projections) : Except DispatchError Projections :=
  if fact.status = .planned then planEffect fact p else moveEffect fact p

/-- Project one effect fact. -/
def indexEffect (event : Event) (p : Projections) : Except DispatchError Projections := do
  let fact ← readEffectFact event
  applyEffectFact fact p

/-! ### Reading back -/

namespace ReadsBack

variable [FloatText] {event event' : Event}

/-- Read back, an effect fact says the same, with its parameters and result in canonical form. -/
theorem readEffectFact_ok (h : ReadsBack event event') {fact : EffectFact}
    (hfact : readEffectFact event = .ok fact) :
    ∃ params result, canonicalPayload fact.params = .ok params ∧
      Option.Rel (fun a b => canonicalPayload a = .ok b) fact.result result ∧
      readEffectFact event' = .ok { fact with params, result } := by
  simp only [readEffectFact, ok_iff] at hfact
  obtain ⟨st, hst, k, hk, op, hop, sx, hsx, sm, hsm, sc, hsc, q, hq, _, hqne, pa, hpa, re, hre, da,
    hda, ra, hra, cb, hcb, _, hkey, _, hval, rfl⟩ := hfact
  obtain ⟨pa', hpc, hpa'⟩ := h.requiredPayloadObject_ok hpa
  obtain ⟨re', hre', hrel⟩ := h.optionalPayloadObject_ok hre
  refine ⟨pa', re', hpc, hrel, ?_⟩
  have hstatus : lifecycleEffectStatus event' = lifecycleEffectStatus event := by
    simp only [lifecycleEffectStatus, h.eventType_eq, h.invalidLifecycle_eq,
      h.requiredPayloadString_eq]
  -- Only whether there is a result is checked, and that is the same in both forms.
  have hsome : re'.isSome = re.isSome := by cases hrel <;> rfl
  have hresult : validateEffectResult event st sm re' = validateEffectResult event st sm re := by
    simp only [validateEffectResult, hsome]
  have hvalidate : validateEffectResult event' = validateEffectResult event := by
    funext status semantics result
    simp only [validateEffectResult, h.invalidLifecycle_eq]
  simp only [readEffectFact, hstatus, h.requiredRuntimeId_eq, h.invalidLifecycle_eq,
    h.optionalPayloadString_eq, h.optionalPayloadU32_eq, h.optionalPayloadI64_eq, h.causedBy_eq,
    h.idempotencyKey_eq, hvalidate, h.id_eq, h.timestampMs_eq, ok_iff]
  exact ⟨st, hst, k, hk, op, hop, sx, hsx, sm, hsm, sc, hsc, q, hq, (), hqne, pa', hpa', re', hre',
    da, hda, ra, hra, cb, hcb, (), hkey, (), hresult.trans hval, rfl⟩

end ReadsBack

end Zeta
