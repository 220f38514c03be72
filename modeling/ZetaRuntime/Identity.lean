import ZetaRuntime.Journal
import ZetaRuntime.State

/-!
# Deterministic identities below a durable event

Queue items, attempts, runs and handles are named by texts that are functions of what they belong
to, and lifecycle facts carry idempotency keys built in the same way. Names are kept as texts
because the source concatenates them without escaping: whether two of them can coincide is a
property of the code and not something the types may rule out.
-/

namespace Zeta

variable {a b e e' : String} {m n : ℕ}

/-- Identity and time for one runtime-owned event, supplied by the caller. -/
structure RuntimeEventIdentity where
  id : String
  timestampMs : Int
  /-- The constructor rejects an empty id. -/
  id_ne_empty : id ≠ ""
  deriving DecidableEq

/-- Replace separators that would make an agent id ambiguous in a compound id. -/
def safeAgentId (agentId : String) : String :=
  String.ofList (agentId.toList.map fun c => if c = ':' ∨ c = '.' then '_' else c)

/-- The unbound queue item created with an ingress event. -/
def pendingQueueItemId (eventId : String) : String := "qi_" ++ eventId

/-- The binding between an event and one target agent. -/
def queueItemId (eventId agentId : String) : String :=
  "qi_" ++ eventId ++ "_" ++ safeAgentId agentId

/-- One numbered execution try. -/
def attemptId (queueItemId : String) (attemptNumber : ℕ) : String :=
  "att_" ++ queueItemId ++ "_" ++ toString attemptNumber

/-- The invocation id used when no caller claimed one in advance. -/
def derivedRunId (attemptId : String) : String := "run_" ++ attemptId

/-- A non-empty caller-claimed run id, or one derived from the attempt. -/
def runIdForAttempt (claimed : Option String) (attemptId : String) : String :=
  match claimed with
  | some claimed => if claimed ≠ "" then claimed else derivedRunId attemptId
  | none => derivedRunId attemptId

/-- The session of an agent, with an optional suffix. -/
def sessionIdForAgent (agentId : String) : Option String → String
  | some suffix => "agent/" ++ agentId ++ "/" ++ suffix
  | none => "agent/" ++ agentId

/-- The idempotency key of a queue lifecycle fact. -/
def queueItemIdempotencyKey (eventId targetAgent : String) (status : QueueItemStatus) : String :=
  "queue_item:" ++ eventId ++ ":" ++ targetAgent ++ ":" ++ status.display

/-- The attempt-qualified idempotency key of a queue lifecycle fact. -/
def queueItemAttemptIdempotencyKey (eventId targetAgent : String) (status : QueueItemStatus)
    (attemptNumber : ℕ) : String :=
  queueItemIdempotencyKey eventId targetAgent status ++ ":" ++ toString attemptNumber

/-- The idempotency key of an attempt lifecycle fact. -/
def attemptIdempotencyKey (queueItemId : String) (attemptNumber : ℕ) (status : AttemptStatus) :
    String :=
  "attempt:" ++ queueItemId ++ ":" ++ toString attemptNumber ++ ":" ++ status.display

theorem attemptIdempotencyKey_eq (queueItemId : String) (attemptNumber : ℕ)
    (status : AttemptStatus) :
    attemptIdempotencyKey queueItemId attemptNumber status
      = "attempt:" ++
        (queueItemId ++ (":" ++ (toString attemptNumber ++ (":" ++ status.display)))) :=
  (String.append_assoc ..).trans ((String.append_assoc ..).trans ((String.append_assoc ..).trans
    (String.append_assoc ..)))

section Handles

variable [Platform]

/-- A retry-stable handle for an ordered publication request. -/
def publishEventHandle (queueItemId : String) (position : ℕ) : String :=
  "pub_" ++ (Platform.derive .chain (.text (queueItemId ++ ":" ++ toString position))).text

/-- A retry-stable handle for an ordered wait request. -/
def waitHandle (queueItemId : String) (position : ℕ) : String :=
  "wait_" ++ (Platform.derive .chain (.text (queueItemId ++ ":" ++ toString position))).text

/-- An attempt-independent identity for one logical external effect. -/
def effectKey (scope operation : String) (params : Map) : Except CanonicalJsonError String := do
  let identity : Map :=
    [("scope", .string scope), ("operation", .string operation), ("params", .object params)]
  let encoded ← (Value.object identity).canonical
  return "effect:" ++ (Platform.derive .chain (.json encoded)).text

end Handles

/-! ### Names determine what they name -/

/-- A list that ends in a separator and a part without it determines the part. -/
private theorem append_cons_inj_of_notMem_right {α : Type} {c : α} {xs ys ds es : List α}
    (hds : c ∉ ds) (hes : c ∉ es) (h : xs ++ c :: ds = ys ++ c :: es) : xs = ys ∧ ds = es := by
  have hsame {us vs : List α} {as : List α} (hus : c ∉ us) (h : c :: us = as ++ c :: vs) :
      as = [] ∧ us = vs := by
    cases as with
    | nil => exact ⟨rfl, by simpa using h⟩
    | cons a as =>
      rw [List.cons_append] at h
      injection h with _ h
      exact absurd (by rw [h]; simp) hus
  rcases List.append_eq_append_iff.mp h with ⟨as, rfl, hcons⟩ | ⟨as, rfl, hcons⟩
  · obtain ⟨rfl, rfl⟩ := hsame hds hcons
    simp
  · obtain ⟨rfl, rfl⟩ := hsame hes hcons
    simp

/-- A name that ends in a separator and a number determines both of its parts. -/
theorem append_toString_inj {s : String} {c : Char} (hsep : s.toList = [c]) (hc : c.isDigit = false)
    (h : a ++ s ++ toString m = b ++ s ++ toString n) : a = b ∧ m = n := by
  have hdigits (k : ℕ) : c ∉ Nat.toDigits 10 k := fun hmem =>
    absurd (Nat.isDigit_of_mem_toDigits (by decide) (by decide) hmem) (by simp [hc])
  have hlist := congrArg String.toList h
  have hrepr (k : ℕ) : toString k = k.repr := rfl
  simp only [hrepr, String.toList_append, hsep, Nat.toList_repr, List.append_assoc,
    List.singleton_append] at hlist
  obtain ⟨hab, hmn⟩ := append_cons_inj_of_notMem_right (hdigits m) (hdigits n) hlist
  refine ⟨String.toList_inj.mp hab, ?_⟩
  have hvalue := congrArg (Nat.ofDigitChars 10 · 0) hmn
  simpa [Nat.ofDigitChars_toDigits] using hvalue

/-- Names that start differently are different. -/
theorem append_ne_append (n : ℕ) (ha : n ≤ a.toList.length) (hb : n ≤ b.toList.length)
    (hne : a.toList.take n ≠ b.toList.take n) (x y : String) : a ++ x ≠ b ++ y := by
  intro h
  have hlist := congrArg (fun s => s.toList.take n) h
  simp only [String.toList_append] at hlist
  rw [List.take_append_of_le_length ha, List.take_append_of_le_length hb] at hlist
  exact hne hlist

theorem attemptId_ne_empty (q : String) (n : ℕ) : attemptId q n ≠ "" := by
  simp [attemptId]

theorem attemptId_inj {q q' : String} (h : attemptId q m = attemptId q' n) : q = q' ∧ m = n := by
  obtain ⟨hq, hmn⟩ := append_toString_inj (s := "_") rfl (by decide) h
  exact ⟨by simpa using hq, hmn⟩

theorem queueItemAttemptIdempotencyKey_inj {e a : String} {st : QueueItemStatus} {m n : ℕ}
    (h : queueItemAttemptIdempotencyKey e a st m = queueItemAttemptIdempotencyKey e a st n) :
    m = n :=
  (append_toString_inj (s := ":") rfl (by decide) h).2

/-- A numbered key of an offer is no plain one, whatever items they are of. -/
theorem queueItemAttemptIdempotencyKey_ne_plain {a' : String} :
    queueItemAttemptIdempotencyKey e a .available n ≠ queueItemIdempotencyKey e' a' .available := by
  intro h
  -- The one ends in a digit, and the other one does not.
  have hlast := congrArg (fun key => key.toList.getLast?) h
  have hne : Nat.toDigits 10 n ≠ [] := Nat.toDigits_ne_nil
  obtain ⟨c, hc⟩ : ∃ c, (Nat.toDigits 10 n).getLast? = some c :=
    ⟨_, List.getLast?_eq_getLast_of_ne_nil hne⟩
  have hdigit : c.isDigit = true :=
    Nat.isDigit_of_mem_toDigits (by decide) (by decide) (List.mem_of_getLast? hc)
  have hrepr : toString n = n.repr := rfl
  simp only [queueItemAttemptIdempotencyKey, queueItemIdempotencyKey, QueueItemStatus.display,
    hrepr, String.toList_append, Nat.toList_repr, List.getLast?_append, hc, Option.some_or,
    show ("available" : String).toList.getLast? = some 'e' from rfl] at hlast
  rw [Option.some.inj hlast] at hdigit
  exact absurd hdigit (by decide)

/-- Without a number, a key is another one. -/
theorem queueItemAttemptIdempotencyKey_ne {e a : String} {st : QueueItemStatus} {n : ℕ} :
    queueItemAttemptIdempotencyKey e a st n ≠ queueItemIdempotencyKey e a st := by
  intro h
  have hlength := congrArg String.length h
  simp only [queueItemAttemptIdempotencyKey, String.length_append] at hlength
  have : ":".length = 1 := rfl
  omega

theorem pendingQueueItemId_inj (h : pendingQueueItemId e = pendingQueueItemId e') : e = e' := by
  simpa [pendingQueueItemId] using h

/-- A bound item never has the name of the unbound item of its event. -/
theorem queueItemId_ne_pendingQueueItemId (e a : String) :
    queueItemId e a ≠ pendingQueueItemId e := by
  intro h
  have hlength := congrArg String.length h
  simp only [pendingQueueItemId, queueItemId, String.length_append] at hlength
  have : "_".length = 1 := rfl
  omega

theorem safeAgentId_eq_empty (h : safeAgentId a = "") : a = "" := by
  have := congrArg String.toList h
  simpa [safeAgentId] using this

theorem queueItemId_ne_of_agent_ne_empty {e a : String} (ha : a ≠ "") :
    queueItemId e a ≠ queueItemId e "" := by
  intro h
  refine ha (safeAgentId_eq_empty ?_)
  have h : "qi_" ++ e ++ "_" ++ safeAgentId a = "qi_" ++ e ++ "_" ++ safeAgentId "" := h
  simpa [safeAgentId] using h

end Zeta
