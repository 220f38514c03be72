import ZetaRuntime.Work.Invariants

/-!
# Sessions: order and activity

Two properties of work that do not hold of every run, each under the guards that make it inductive.

Claims are taken in the order of cursors within a session, and only when no unrouted item came
before. `Serial` is what this gives at every later moment: whatever came before an owned item in its
session has ended. The barrier of unrouted items carries the induction, since routing assigns
sessions after the fact: an item older than an owned one cannot be routed into its session any more.
Binding a message to an event that was there before would open an item behind the barrier, so the
guard forbids it.

Attempts are ended by other rules than items. An attempt is left running when its owner is gone, and
a second attempt, or a cancellation without an owner, then leaves it running for good. `Active` says
that an item with a running attempt is open, and has only one such attempt; it needs both guards.
-/

namespace Zeta.Work

variable {G : Guard} {w w' : Work}

/-! ### Order -/

/-- What came before owned work has been routed, and has ended if it is of the same session. -/
structure Serial (w : Work) : Prop where
  routed : ∀ q it x other, w.claims q ≠ none → w.items q = some it → w.items x = some other →
    other.Unrouted → ¬other.cursor < it.cursor
  serial : ∀ q it x other session, w.claims q ≠ none → w.items q = some it →
    it.session = some session → w.items x = some other → other.session = some session →
    other.cursor < it.cursor → other.status.terminal = true

theorem serial_empty : Serial empty := by
  constructor <;> simp [empty]

/-- A step keeps the order, if it does not bind a message to an event that was there before. -/
theorem Step.serial (hG : ¬G.rebind) (hinv : Inv w) (hw : Serial w) (h : Step G w w') :
    Serial w' where
  routed := by
    have := hw.routed
    have := hinv.known
    have := hinv.owned
    have := @Fair.routed
    cases h <;> grind [Function.update_apply]
  serial := by
    have := hw.routed
    have := hw.serial
    have := hinv.known
    have := hinv.owned
    have := @Fair.serial
    cases h <;> grind [Function.update_apply, QueueItemStatus.terminal]

/-- Work is done in order. -/
theorem Steps.serial (hG : ¬G.rebind) (h : Steps G empty w) : Serial w :=
  (h.induct (fun _ _ hinv hv hstep => hstep.serial hG hinv hv) inv_empty serial_empty).2

/-- Two owned items of one session have the same cursor. -/
theorem Serial.cursor_eq (hinv : Inv w) (hw : Serial w) {q x session : String} {it other : Item}
    (hq : w.claims q ≠ none) (hx : w.claims x ≠ none) (hit : w.items q = some it)
    (hother : w.items x = some other) (hsession : it.session = some session)
    (hsession' : other.session = some session) : it.cursor = other.cursor := by
  have hopen := (hinv.open_of_owned hit hq).1
  have hopen' := (hinv.open_of_owned hother hx).1
  rcases Nat.lt_trichotomy it.cursor other.cursor with hlt | heq | hgt
  · simp [hw.serial x other q it session hx hother hsession' hit hsession hlt] at hopen
  · exact heq
  · simp [hw.serial q it x other session hq hit hsession hother hsession' hgt] at hopen'

/-! ### Activity -/

/-- Running attempts belong to open items, one to each. -/
structure Active (w : Work) : Prop where
  running : ∀ id a it, w.attempts id = some a → a.status = .running → w.items a.item = some it →
    it.status.terminal = false
  single : ∀ id a id' a', w.attempts id = some a → w.attempts id' = some a' → a.item = a'.item →
    a.status = .running → a'.status = .running → id = id'

theorem active_empty : Active empty := by
  constructor <;> simp [empty]

/-- A step keeps attempts and items in agreement, if it neither starts a second attempt while one is
running nor cancels around a running one. -/
theorem Step.active (hstart : ∀ v q, G.start v q → ¬v.Running q) (hstrand : ¬G.strand)
    (hinv : Inv w) (hw : Active w) (h : Step G w w') : Active w' where
  running := by
    have := hw.running
    have := hw.single
    have := hinv.attempt
    have := hinv.unbound
    cases h <;> grind [Function.update_apply, QueueItemStatus.terminal]
  single := by
    have := hw.single
    have := hinv.attempt
    cases h <;> grind [Function.update_apply]

/-- Running attempts belong to open items. -/
theorem Steps.active (hstart : ∀ v q, G.start v q → ¬v.Running q) (hstrand : ¬G.strand)
    (h : Steps G empty w) : Active w :=
  (h.induct (fun _ _ hinv hv hstep => hstep.active hstart hstrand hinv hv) inv_empty active_empty).2

end Zeta.Work
