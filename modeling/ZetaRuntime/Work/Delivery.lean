import ZetaRuntime.Index.Effect

/-!
# The course of an effect

The facts about one effect tell a story: it is planned, started, and ends; only after a failure may
it be started again. A course is such a story, as the list of its moves, together with where it has
led and how many deliveries have been counted.

What is promised about deliveries is read off from courses. Nothing follows a completion or an
ambiguous end. An effect that must not be repeated never fails, so it is started once. And if every
start has a number, the numbers count up from one.
-/

namespace Zeta

/-- One step in the course of an effect: its status, and the number of the delivery if it has one.
-/
structure Move where
  status : EffectStatus
  number : Option ℕ
  deriving DecidableEq, Repr

/-- A move that starts a delivery. -/
def Move.starts (move : Move) : Bool := move.status = .started

/-- A move that leaves nothing to do. -/
def Move.closes (move : Move) : Bool := move.status = .completed || move.status = .ambiguous

/-- The courses of an effect, each with the status and the number of deliveries it has led to. -/
inductive Course (semantics : EffectDeliverySemantics) : List Move → EffectStatus → ℕ → Prop where
  | plan : Course semantics [⟨.planned, none⟩] .planned 0
  | start {moves : List Move} {status : EffectStatus} {n : ℕ} (h : Course semantics moves status n)
    (hstatus : status = .planned ∨ status = .failed) :
    Course semantics (moves ++ [⟨.started, none⟩]) .started n
  | number {moves : List Move} {status : EffectStatus} {n : ℕ} (h : Course semantics moves status n)
    (hstatus : status = .planned ∨ status = .failed) :
    Course semantics (moves ++ [⟨.started, some (n + 1)⟩]) .started (n + 1)
  | finish {moves : List Move} {status : EffectStatus} {n : ℕ} {number : Option ℕ}
    (h : Course semantics moves .started n) (hterminal : effectStatusIsTerminal status = true)
    (hfails : status = .failed → semantics ≠ .unsafeToRetry) :
    Course semantics (moves ++ [⟨status, number⟩]) status n

namespace Course

variable {semantics : EffectDeliverySemantics} {moves : List Move} {status : EffectStatus} {n : ℕ}

/-- A course has led to its last move. -/
theorem getLast? (h : Course semantics moves status n) :
    ∃ move, moves.getLast? = some move ∧ move.status = status := by
  cases h with
  | plan => exact ⟨_, rfl, rfl⟩
  | start | number | finish => exact ⟨_, List.getLast?_concat, rfl⟩

theorem starts_of_terminal (move : Move) (h : effectStatusIsTerminal move.status = true) :
    move.starts = false := by
  cases hstatus : move.status <;> simp_all [Move.starts, effectStatusIsTerminal]

section

variable (h : Course semantics moves status n)
include h

/-- Only the last move of a course closes it. -/
theorem open_dropLast : ∀ move ∈ moves.dropLast, move.closes = false := by
  -- A course that goes on has led to a status from which there is a way on.
  have hopen {moves : List Move} {status : EffectStatus} {n : ℕ}
    (h : Course semantics moves status n)
      (hlast : status = .planned ∨ status = .failed ∨ status = .started)
      (ih : ∀ move ∈ moves.dropLast, move.closes = false) : ∀ move ∈ moves,
        move.closes = false := by
    obtain ⟨last, hmoves, hstatus⟩ := h.getLast?
    rw [← List.dropLast_append_getLast? last hmoves]
    intro move hmove
    rcases List.mem_append.mp hmove with hmove | hmove
    · exact ih move hmove
    · rw [List.mem_singleton.mp hmove, Move.closes, hstatus]
      rcases hlast with rfl | rfl | rfl <;> rfl
  induction h with
  | plan => simp
  | start h hstatus ih | number h hstatus ih =>
    rw [List.dropLast_concat]
    exact hopen h (hstatus.imp_right .inl) ih
  | finish h _ _ ih =>
    rw [List.dropLast_concat]
    exact hopen h (.inr (.inr rfl)) ih

/-- Nothing follows a completion or an ambiguous end. -/
theorem ends {before after : List Move} {move : Move}
    (hmoves : moves = before ++ move :: after) (hcloses : move.closes = true) : after = [] := by
  by_contra hne
  have hmem : move ∈ moves.dropLast := by
    rw [hmoves, List.dropLast_append_of_ne_nil (List.cons_ne_nil _ _),
      List.dropLast_cons_of_ne_nil hne]
    exact List.mem_append_right _ (.head _)
  rw [h.open_dropLast move hmem] at hcloses
  cases hcloses

/-- A course is closed at most once. -/
theorem closes_once : moves.countP Move.closes ≤ 1 := by
  obtain ⟨last, hlast, -⟩ := h.getLast?
  have hbefore : moves.dropLast.countP Move.closes = 0 := by
    rw [List.countP_eq_zero]
    intro move hmove
    rw [h.open_dropLast move hmove]
    exact Bool.false_ne_true
  rw [← List.dropLast_append_getLast? last hlast, List.countP_append, hbefore, Nat.zero_add]
  exact List.countP_le_length

/-- What is unsafe to retry has not failed, and has been started once unless it is only planned. -/
theorem started_once (hnoRetry : semantics = .unsafeToRetry) :
    status ≠ .failed ∧ moves.countP Move.starts = if status = .planned then 0 else 1 := by
  induction h with
  | plan => exact ⟨by decide, rfl⟩
  | start _ hstatus ih | number _ hstatus ih =>
    obtain rfl := hstatus.resolve_right ih.1
    refine ⟨by decide, ?_⟩
    rw [List.countP_append, ih.2]
    rfl
  | @finish moves status n number _ hterminal hfails ih =>
    refine ⟨fun hfailed => hfails hfailed hnoRetry, ?_⟩
    have hmove : [Move.mk status number].countP Move.starts = 0 := by
      simp [starts_of_terminal ⟨status, number⟩ hterminal]
    have hplanned : status ≠ .planned := by
      rintro rfl
      cases hterminal
    rw [List.countP_append, ih.2, hmove, if_neg hplanned]
    rfl

/-- The last number counted is that of a start. -/
theorem mem_of_pos (hn : 0 < n) : (⟨.started, some n⟩ : Move) ∈ moves := by
  induction h with
  | plan => cases hn
  | start _ _ ih | finish _ _ _ ih => exact List.mem_append_left _ (ih hn)
  | number => exact List.mem_append_right _ (List.mem_singleton_self _)

/-- If every start has a number, the numbers count up from one. -/
theorem numbers (hall : ∀ move ∈ moves, move.starts = true → move.number ≠ none) :
    (moves.filter Move.starts).map Move.number = (List.range' 1 n).map some := by
  induction h with
  | plan => rfl
  | start _ _ ih =>
    exact absurd rfl
      (hall ⟨.started, none⟩ (List.mem_append_right _ (List.mem_singleton_self _)) rfl)
  | @number moves status n _ _ ih =>
    have hbefore := ih fun move hmove => hall move (List.mem_append_left _ hmove)
    rw [List.filter_append, List.map_append, hbefore, List.range'_concat, List.map_append]
    simp [Move.starts, Nat.add_comm]
  | @finish moves status n number _ hterminal _ ih =>
    have hbefore := ih fun move hmove => hall move (List.mem_append_left _ hmove)
    rw [List.filter_append, List.map_append, hbefore]
    simp [starts_of_terminal ⟨status, number⟩ hterminal]

end

end Course

end Zeta
