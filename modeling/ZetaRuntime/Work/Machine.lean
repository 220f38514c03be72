import Mathlib.Logic.Function.Basic
import Mathlib.Logic.Relation
import ZetaRuntime.Identity

/-!
# Work, abstractly

What Dispatch is for, without tables, payloads or transactions. Events arrive and are known by a
cursor. An arrival opens an unbound item; routing binds it to an agent, fans it out, or closes it.
Workers claim available items, one owner at a time and in the order of cursors within a session, run
attempts under their claims, and end items. Cancellation is requested and then carried out.

The state holds items, claims and attempts as partial functions, the cursors of known events, and
the log of lifecycle facts. Each rule of `Step` is one indivisible change: where an operation
records several facts that belong together, the rule records them together. This is the level at
which the invariants of work are stated.

A `Guard` restricts the rules further. Nothing in Dispatch enforces it: guards stand for conditions
on runs under which a property holds that does not hold of all runs.
-/

namespace Zeta

variable {q : String}

namespace Work

/-- One piece of work. -/
structure Item where
  event : String
  /-- Empty while the item is unbound. -/
  agent : String
  session : Option String
  revision : Option String
  cursor : ℕ
  status : QueueItemStatus
  cancelRequested : Bool
  /-- How many attempts have been started. -/
  attempts : ℕ
  deriving DecidableEq, Repr

/-- Who owns an item. -/
structure Claim where
  workerName : String
  token : String
  deriving DecidableEq, Repr

/-- One attempt at an item. -/
structure Attempt where
  item : String
  event : String
  number : ℕ
  status : AttemptStatus
  session : Option String
  deriving DecidableEq, Repr

/-- A journaled fact about work. -/
inductive Fact where
  | queue (item event : String) (status : QueueItemStatus) (key : Option String)
  | requested (item event : String)
  | attempt (id item event : String) (status : AttemptStatus)
  deriving DecidableEq, Repr

/-- The item a fact is about. -/
@[grind] def Fact.item : Fact → String
  | .queue item _ _ _ => item
  | .requested item _ => item
  | .attempt _ item _ _ => item

/-- The input event of the item a fact is about. -/
@[grind] def Fact.event : Fact → String
  | .queue _ event _ _ => event
  | .requested _ event => event
  | .attempt _ _ event _ => event

/-- An item nobody is meant to run yet: it waits for its route. -/
@[grind] def Item.Unrouted (it : Item) : Prop := it.status = .pending ∧ it.agent = ""

/-- The item an arrival opens. -/
@[grind] def Item.unbound (event : String) (cursor : ℕ) : Item :=
  { event, agent := "", session := none, revision := none, cursor, status := .pending,
    cancelRequested := false, attempts := 0 }

/-- An item after its owner is gone. -/
@[grind] def Item.unclaim (it : Item) : Item :=
  if it.status = .claimed then { it with status := .available } else it

end Work

/-- The state of work. -/
@[ext] structure Work where
  items : String → Option Work.Item
  claims : String → Option Work.Claim
  attempts : String → Option Work.Attempt
  /-- The cursors of the events that are journaled. -/
  cursors : String → Option ℕ
  /-- The facts about work, oldest first. -/
  log : List Work.Fact

namespace Work

variable {it : Item} {w : Work}

/-- No work yet. -/
def empty : Work := ⟨fun _ => none, fun _ => none, fun _ => none, fun _ => none, []⟩

/-- Later cursors: what was known stays known. -/
@[grind] def Grows (cursors cursors' : String → Option ℕ) : Prop :=
  ∀ event cursor, cursors event = some cursor → cursors' event = some cursor

/-- An event that is new, with the newest cursor. -/
@[grind cases] structure Newest (w : Work) (event : String) (cursor : ℕ) : Prop where
  unknown : w.cursors event = none
  newest : ∀ other c, w.cursors other = some c → c < cursor

/-- The items after the claims on some of them have ended. -/
def loseItems (w : Work) (dead : String → Bool) : String → Option Item :=
  fun q => if dead q then (w.items q).map Item.unclaim else w.items q

/-- The items after one of them has been replaced by new ones. -/
def fanItems (w : Work) (q : String) (opened : String → Option Item) : String → Option Item :=
  fun x => if x = q then none else (opened x).or (w.items x)

@[grind =] theorem loseItems_eq_some_iff {dead : String → Bool} :
    w.loseItems dead q = some it ↔
      ∃ old, w.items q = some old ∧ it = if dead q then old.unclaim else old := by
  unfold loseItems
  split <;> simp [eq_comm]

@[grind =] theorem fanItems_eq_some_iff {x : String} {opened : String → Option Item} :
    w.fanItems q opened x = some it ↔
      x ≠ q ∧ (opened x = some it ∨ opened x = none ∧ w.items x = some it) := by
  unfold fanItems
  split <;> simp_all [Option.or_eq_some_iff]

/-- Whether an attempt of an item is running. -/
@[grind] def Running (w : Work) (q : String) : Prop :=
  ∃ id a, w.attempts id = some a ∧ a.item = q ∧ a.status = .running

/-- Conditions on runs. -/
structure Guard where
  /-- When an attempt may be started. -/
  start : Work → String → Prop
  /-- The attempt limit with which a failure of an item may be reported. -/
  limit : String → ℕ → Prop
  /-- Whether an item may be cancelled while an attempt of it is left running. -/
  strand : Prop
  /-- Whether a message may be bound to an event that was there before. -/
  rebind : Prop

/-- No conditions. -/
def Guard.none : Guard := ⟨fun _ _ => True, fun _ _ => True, True, True⟩

/-- An item that has just been made available, under its own name. -/
@[grind cases] structure Opened (q : String) (it : Item) : Prop where
  name : q = queueItemId it.event it.agent
  status : it.status = .available
  uncancelled : it.cancelRequested = false
  unattempted : it.attempts = 0

/-- The fact that makes an item available for the first time. -/
@[grind] def Item.openFact (it : Item) (q : String) : Fact :=
  .queue q it.event .available (some (queueItemIdempotencyKey it.event it.agent .available))

/-- A claim is fair: nothing unrouted came before, and nothing open of the same session. -/
structure Fair (w : Work) (it : Item) : Prop where
  routed : ∀ x other, w.items x = some other → other.Unrouted → ¬other.cursor < it.cursor
  serial : ∀ session, it.session = some session → ∀ x other, w.items x = some other →
    other.session = some session → other.cursor < it.cursor → other.status.terminal = true

/-- How an attempt and its item can end together. Only a retry leaves the item open. -/
@[grind cases] inductive Ends (G : Guard) (q : String) (it : Item) (a : Attempt) :
    AttemptStatus → QueueItemStatus → Option String → Prop where
  | completed {key : Option String} (uncancelled : it.cancelRequested = false) :
    Ends G q it a .completed .completed key
  | deadLettered {key : Option String} (uncancelled : it.cancelRequested = false) :
    Ends G q it a .failed .deadLettered key
  | retried {limit : ℕ} (uncancelled : it.cancelRequested = false) (allowed : G.limit q limit)
    (below : a.number < limit) :
    Ends G q it a .failed .available
      (some (queueItemAttemptIdempotencyKey it.event it.agent .available (a.number + 1)))
  | cancelled {key : Option String} : Ends G q it a .cancelled .cancelled key

end Work

open Work in
/-- One change of the state of work. -/
inductive Work.Step (G : Guard) : Work → Work → Prop where
  /-- An event that is not about work is recorded. -/
  | note {w : Work} {event : String} {cursor : ℕ} (new : w.Newest event cursor) :
    Step G w { w with cursors := Function.update w.cursors event (some cursor) }
  /-- An event arrives and opens its unbound item. -/
  | arrive {w : Work} {event : String} {cursor : ℕ} (new : w.Newest event cursor)
    (free : w.items (pendingQueueItemId event) = none) :
    Step G w { w with
      cursors := Function.update w.cursors event (some cursor)
      items := Function.update w.items (pendingQueueItemId event)
        (some (Item.unbound event cursor)) }
  /-- Nobody takes the event of an unbound item. -/
  | unhandled {w : Work} {q : String} {it : Item} {session revision key : Option String}
    {cursors : String → Option ℕ} (found : w.items q = some it) (unrouted : it.Unrouted)
    (grows : Grows w.cursors cursors) :
    Step G w { w with
      cursors
      items := Function.update w.items q (some { it with status := .unhandled, session, revision })
      log := w.log ++ [.queue q it.event .unhandled key] }
  /-- One agent takes the event of an unbound item. -/
  | bind {w : Work} {q : String} {it : Item} {agent : String} {session revision : Option String}
    {cursors : String → Option ℕ} (found : w.items q = some it) (unrouted : it.Unrouted)
    (grows : Grows w.cursors cursors) :
    Step G w { w with
      cursors
      items := Function.update w.items q
        (some { it with status := .available, agent, session, revision })
      log := w.log ++ [.queue q it.event .available
        (some (queueItemIdempotencyKey it.event agent .available))] }
  /-- Several agents take the event of an unbound item, which is closed and goes. -/
  | fanOut {w : Work} {q : String} {it : Item} {opened : String → Option Item} {opens : List Fact}
    {key : Option String} {cursors : String → Option ℕ} (found : w.items q = some it)
    (unrouted : it.Unrouted) (grows : Grows w.cursors cursors)
    (fresh : ∀ x i, opened x = some i → w.items x = none ∧ Opened x i ∧ i.event = it.event ∧
      i.cursor = it.cursor)
    (facts : ∀ fact, fact ∈ opens ↔ ∃ x i, opened x = some i ∧ fact = i.openFact x) :
    Step G w { w with
      cursors
      items := w.fanItems q opened
      claims := Function.update w.claims q none
      log := w.log ++ .queue q it.event .completed key :: opens }
  /-- An item without an agent goes, with the claim on it. -/
  | discard {w : Work} {q : String} {it : Item} (found : w.items q = some it)
    (agent : it.agent = "")
    (allowed : it.status = .pending → G.rebind) :
    Step G w { w with
      items := Function.update w.items q none
      claims := Function.update w.claims q none }
  /-- An event opens an item for an agent directly: a new event, or one that was there before. -/
  | open {w : Work} {q : String} {it : Item} {cursors : String → Option ℕ}
    (origin : w.Newest it.event it.cursor ∨
      G.rebind ∧ w.cursors it.event = some it.cursor ∧ it.agent ≠ "" ∧
        ∀ x other, w.items x = some other → other.event = it.event → other.status ≠ .pending)
    (known : cursors it.event = some it.cursor) (grows : Grows w.cursors cursors)
    (free : w.items q = none) (opened : Opened q it) :
    Step G w { w with
      cursors
      items := Function.update w.items q (some it)
      log := w.log ++ [it.openFact q] }
  /-- A worker takes an available item. -/
  | claim {w : Work} {q : String} {it : Item} {c : Claim} (found : w.items q = some it)
    (status : it.status = .available) (uncancelled : it.cancelRequested = false)
    (unowned : w.claims q = none) (fair : w.Fair it) :
    Step G w { w with claims := Function.update w.claims q (some c) }
  /-- Claims end without a fact. -/
  | lose {w : Work} {dead : String → Bool} (owned : ∀ q, dead q = true → w.claims q ≠ none) :
    Step G w { w with
      items := w.loseItems dead
      claims := fun q => if dead q then none else w.claims q }
  /-- The owner of an item starts its next attempt. -/
  | start {w : Work} {q : String} {it : Item} {cursors : String → Option ℕ}
    (found : w.items q = some it) (owned : w.claims q ≠ none) (status : it.status = .available)
    (bound : it.agent ≠ "") (free : w.attempts (attemptId q (it.attempts + 1)) = none)
    (allowed : G.start w q) (grows : Grows w.cursors cursors) :
    Step G w { w with
      cursors
      items := Function.update w.items q
        (some { it with status := .claimed, attempts := it.attempts + 1 })
      attempts := Function.update w.attempts (attemptId q (it.attempts + 1))
        (some { item := q, event := it.event, number := it.attempts + 1, status := .running,
                session := it.session })
      log := w.log ++
        [.queue q it.event .claimed
          (some (queueItemAttemptIdempotencyKey it.event it.agent .claimed (it.attempts + 1))),
        .attempt (attemptId q (it.attempts + 1)) q it.event .running] }
  /-- The owner of an item ends its attempt, and decides about the item. -/
  | finish {w : Work} {q id : String} {it : Item} {a : Attempt} {ended : AttemptStatus}
    {final : QueueItemStatus} {key : Option String} {cursors : String → Option ℕ}
    (found : w.items q = some it) (owned : w.claims q ≠ none)
    (attempt : w.attempts id = some a) (ofItem : a.item = q) (running : a.status = .running)
    (ends : Ends G q it a ended final key) (grows : Grows w.cursors cursors) :
    Step G w { w with
      cursors
      items := Function.update w.items q (some { it with status := final })
      claims := Function.update w.claims q none
      attempts := Function.update w.attempts id (some { a with status := ended })
      log := w.log ++ [.attempt id q it.event ended, .queue q it.event final key] }
  /-- The cancellation of an owned item is requested. -/
  | request {w : Work} {q : String} {it : Item} {cursors : String → Option ℕ}
    (found : w.items q = some it) (owned : w.claims q ≠ none)
    (grows : Grows w.cursors cursors) :
    Step G w { w with
      cursors
      items := Function.update w.items q (some { it with cancelRequested := true })
      log := w.log ++ [.requested q it.event] }
  /-- An unowned item is cancelled. The request is recorded with it if it has none. -/
  | cancel {w : Work} {q : String} {it : Item} {requests : List Fact} {key : Option String}
    {cursors : String → Option ℕ} (found : w.items q = some it) (unowned : w.claims q = none)
    (openItem : it.status.terminal = false)
    (request : requests = [] ∧ it.cancelRequested = true ∨ requests = [.requested q it.event])
    (strands : w.Running q → G.strand) (grows : Grows w.cursors cursors) :
    Step G w { w with
      cursors
      items := Function.update w.items q
        (some { it with status := .cancelled, cancelRequested := true })
      log := w.log ++ requests ++ [.queue q it.event .cancelled key] }
  /-- A requested cancellation is carried out on an abandoned item and its latest attempt. -/
  | abandon {w : Work} {q id : String} {it : Item} {a : Attempt} {key : Option String}
    {cursors : String → Option ℕ} (found : w.items q = some it) (unowned : w.claims q = none)
    (openItem : it.status.terminal = false) (requested : it.cancelRequested = true)
    (attempt : w.attempts id = some a) (ofItem : a.item = q) (running : a.status = .running)
    (grows : Grows w.cursors cursors) :
    Step G w { w with
      cursors
      items := Function.update w.items q (some { it with status := .cancelled })
      attempts := Function.update w.attempts id (some { a with status := .cancelled })
      log := w.log ++ [.attempt id q it.event .cancelled, .queue q it.event .cancelled key] }

end Zeta
