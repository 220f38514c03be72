import Mathlib.Data.List.Basic
import Mathlib.Data.List.Infix
import Mathlib.Data.Nat.Find

/-!
# Searching for a text in a text

A text occurs in another at every position at which it starts there, and two occurrences may
overlap. A scan from the left does not see all of them: after a match it goes on behind it. So what
a scan counts are occurrences that do not overlap, and it counts more than one exactly if there are
two such.
-/

namespace Search

variable {α : Type*}

variable {i : ℕ}

variable {old text : List α}

/-- A text occurs in another at a position, whatever else occurs there. -/
def OccursAt (old text : List α) (i : ℕ) : Prop := old <+: text.drop i

theorem occursAt_zero : OccursAt old text 0 ↔ old <+: text := by
  rw [OccursAt, List.drop_zero]

theorem occursAt_succ {x : α} : OccursAt old (x :: text) (i + 1) ↔ OccursAt old text i := by
  rw [OccursAt, List.drop_succ_cons, OccursAt]

theorem occursAt_drop {n : ℕ} : OccursAt old (text.drop n) i ↔ OccursAt old text (n + i) := by
  rw [OccursAt, List.drop_drop, OccursAt]

theorem OccursAt.le (hold : old ≠ []) (h : OccursAt old text i) : i + old.length ≤ text.length := by
  have hlength := h.length_le
  have hpos := List.length_pos_iff.mpr hold
  rw [List.length_drop] at hlength
  omega

theorem not_occursAt_nil (hold : old ≠ []) (i : ℕ) : ¬OccursAt old [] i := by
  intro h
  have hle := h.le hold
  have hpos := List.length_pos_iff.mpr hold
  rw [List.length_nil] at hle
  omega

/-- The text around an occurrence. -/
theorem OccursAt.split (hi : i ≤ text.length) (h : OccursAt old text i) :
    ∃ left right, text = left ++ old ++ right ∧ left.length = i := by
  obtain ⟨right, hright⟩ := h
  refine ⟨text.take i, right, ?_, List.length_take_of_le hi⟩
  rw [List.append_assoc, hright, List.take_append_drop]

/-! ### The only place -/

/-- The only place behind some others, counted from there. -/
theorem forall_shift_iff {p : ℕ → Prop} {d : ℕ} :
    (∀ j, (d ≤ j ∧ p (j - d)) ↔ j = i) ↔ ∃ k, i = d + k ∧ ∀ j, p j ↔ j = k := by
  constructor
  · intro h
    have hi := (h i).mpr rfl
    refine ⟨i - d, by omega, fun j => ?_⟩
    have hj := h (d + j)
    rw [Nat.add_sub_cancel_left] at hj
    constructor
    · intro hp
      have := hj.mp ⟨Nat.le_add_right _ _, hp⟩
      omega
    · rintro rfl
      exact hi.2
  · rintro ⟨k, rfl, h⟩ j
    constructor
    · rintro ⟨hle, hp⟩
      have := (h (j - d)).mp hp
      omega
    · rintro rfl
      refine ⟨Nat.le_add_right _ _, ?_⟩
      rw [Nat.add_sub_cancel_left]
      exact (h k).mpr rfl

/-- An element of a list is the only one of its kind. -/
theorem forall_getElem?_iff {q : α → Prop} {l : List α} {k : ℕ} :
    (∀ j, (∃ x, l[j]? = some x ∧ q x) ↔ j = k) ↔
      ∃ passed x behind, l = passed ++ x :: behind ∧ passed.length = k ∧ q x ∧
        ∀ other ∈ passed ++ behind, ¬q other := by
  constructor
  · intro h
    obtain ⟨x, hx, hq⟩ := (h k).mpr rfl
    obtain ⟨hlt, hget⟩ := List.getElem?_eq_some_iff.mp hx
    refine ⟨l.take k, x, l.drop (k + 1), ?_, List.length_take_of_le hlt.le, hq,
      fun other hother hq' => ?_⟩
    · rw [← hget, List.getElem_cons_drop, List.take_append_drop]
    · rcases List.mem_append.mp hother with hother | hother
      · obtain ⟨j, hj⟩ := List.mem_iff_getElem?.mp hother
        rw [List.getElem?_take] at hj
        split at hj
        · next hjk => exact absurd ((h j).mp ⟨other, hj, hq'⟩) hjk.ne
        · cases hj
      · obtain ⟨j, hj⟩ := List.mem_iff_getElem?.mp hother
        rw [List.getElem?_drop] at hj
        have := (h _).mp ⟨other, hj, hq'⟩
        omega
  · rintro ⟨passed, x, behind, rfl, rfl, hq, hother⟩ j
    constructor
    · rintro ⟨y, hy, hq'⟩
      by_contra hne
      refine hother y ?_ hq'
      rcases Nat.lt_or_gt_of_ne hne with hlt | hgt
      · rw [List.getElem?_append_left hlt] at hy
        exact List.mem_append_left _ (List.mem_of_getElem? hy)
      · rw [List.getElem?_append_right hgt.le, List.getElem?_cons, if_neg (by omega)] at hy
        exact List.mem_append_right _ (List.mem_of_getElem? hy)
    · rintro rfl
      exact ⟨x, by simp, hq⟩

section Scan

variable [DecidableEq α]

instance (old text : List α) (i : ℕ) : Decidable (OccursAt old text i) :=
  inferInstanceAs (Decidable (old <+: text.drop i))

/-- The text around the first occurrence. -/
theorem exists_first (hold : old ≠ []) (h : ∃ i, OccursAt old text i) :
    ∃ left right, text = left ++ old ++ right ∧ OccursAt old text left.length ∧
      ∀ i < left.length, ¬OccursAt old text i := by
  have hfirst := Nat.find_spec h
  have hle := hfirst.le hold
  obtain ⟨left, right, htext, hleft⟩ := hfirst.split (by omega)
  refine ⟨left, right, htext, hleft ▸ hfirst, ?_⟩
  rw [hleft]
  exact fun i hi => Nat.find_min h hi

/-- A scan from the left that is at a position and has some of a match still to skip. -/
def scan (old : List α) : ℕ → ℕ → List α → List ℕ
  | _, _, [] => []
  | position, skip + 1, _ :: text => scan old (position + 1) skip text
  | position, 0, x :: text =>
    if old <+: x :: text then position :: scan old (position + 1) (old.length - 1) text
    else scan old (position + 1) 0 text

/-- The positions of the matches that a scan from the left finds. -/
def matchIndices (old text : List α) : List ℕ := scan old 0 0 text

/-- The text with the first match replaced. -/
def replaceFirst (old new : List α) : List α → List α
  | [] => []
  | x :: text =>
    if old <+: x :: text then new ++ (x :: text).drop old.length else x :: replaceFirst old new text

/-- What is skipped plays no part. -/
theorem scan_skip (old : List α) (skip position : ℕ) (text : List α) :
    scan old position skip text = scan old (position + skip) 0 (text.drop skip) := by
  induction skip generalizing position text with
  | zero => rw [List.drop_zero, Nat.add_zero]
  | succ skip ih =>
    cases text with
    | nil => rw [List.drop_nil, scan, scan]
    | cons x text =>
      rw [scan, ih, List.drop_succ_cons]
      congr 1
      omega

/-- A scan finds something exactly if there is something to find. -/
theorem scan_eq_nil_iff (hold : old ≠ []) (position : ℕ) (text : List α) :
    scan old position 0 text = [] ↔ ∀ i, ¬OccursAt old text i := by
  induction text generalizing position with
  | nil => exact iff_of_true rfl (not_occursAt_nil hold)
  | cons x text ih =>
    rw [scan]
    split
    · next h => exact iff_of_false (List.cons_ne_nil _ _) fun hnone => hnone 0 (occursAt_zero.mpr h)
    · next h =>
      rw [ih]
      constructor
      · intro hnone i
        cases i with
        | zero => exact mt occursAt_zero.mp h
        | succ i => exact mt occursAt_succ.mp (hnone i)
      · exact fun hnone i => mt occursAt_succ.mpr (hnone (i + 1))

/-- A scan finds a second match exactly if two occurrences do not overlap. -/
theorem one_lt_length_scan_iff (hold : old ≠ []) (position : ℕ) (text : List α) :
    1 < (scan old position 0 text).length
      ↔ ∃ i j, OccursAt old text i ∧ OccursAt old text j ∧ i + old.length ≤ j := by
  induction text generalizing position with
  | nil => exact iff_of_false (by simp [scan]) fun ⟨i, _, hi, _⟩ => not_occursAt_nil hold i hi
  | cons x text ih =>
    have hlength := List.length_pos_iff.mpr hold
    rw [scan]
    split
    · next h =>
      -- the first match is the leftmost occurrence, so a second one behind any is one behind it
      rw [List.length_cons, Nat.lt_add_left_iff_pos, List.length_pos_iff, scan_skip, Ne,
        scan_eq_nil_iff hold, not_forall_not]
      constructor
      · rintro ⟨i, hi⟩
        rw [occursAt_drop] at hi
        refine ⟨0, old.length - 1 + i + 1, occursAt_zero.mpr h, occursAt_succ.mpr hi, ?_⟩
        omega
      · rintro ⟨i, j, -, hj, hij⟩
        obtain ⟨k, rfl⟩ : ∃ k, j = k + 1 := ⟨j - 1, by omega⟩
        refine ⟨k - (old.length - 1), occursAt_drop.mpr ?_⟩
        rw [Nat.add_sub_cancel' (by omega)]
        exact occursAt_succ.mp hj
    · next h =>
      rw [ih]
      constructor
      · rintro ⟨i, j, hi, hj, hij⟩
        exact ⟨i + 1, j + 1, occursAt_succ.mpr hi, occursAt_succ.mpr hj, by omega⟩
      · rintro ⟨i, j, hi, hj, hij⟩
        cases i with
        | zero => exact absurd (occursAt_zero.mp hi) h
        | succ i =>
          obtain ⟨k, rfl⟩ : ∃ k, j = k + 1 := ⟨j - 1, by omega⟩
          exact ⟨i, k, occursAt_succ.mp hi, occursAt_succ.mp hj, by omega⟩

theorem matchIndices_eq_nil_iff (hold : old ≠ []) (text : List α) :
    matchIndices old text = [] ↔ ∀ i, ¬OccursAt old text i := scan_eq_nil_iff hold 0 text

theorem one_lt_length_matchIndices_iff (hold : old ≠ []) (text : List α) :
    1 < (matchIndices old text).length
      ↔ ∃ i j, OccursAt old text i ∧ OccursAt old text j ∧ i + old.length ≤ j :=
  one_lt_length_scan_iff hold 0 text

/-- **What is replaced is the first occurrence.** -/
theorem replaceFirst_eq {left right : List α} (new : List α) (hold : old ≠ [])
    (hfirst : ∀ i < left.length, ¬OccursAt old (left ++ old ++ right) i) :
    replaceFirst old new (left ++ old ++ right) = left ++ new ++ right := by
  induction left with
  | nil =>
    cases old with
    | nil => exact absurd rfl hold
    | cons x old =>
      have hmatch : x :: old <+: x :: (old ++ right) := List.prefix_append (x :: old) right
      rw [List.nil_append, List.cons_append, replaceFirst, if_pos hmatch, ← List.cons_append,
        List.drop_left, List.nil_append]
  | cons x left ih =>
    have hhead : ¬old <+: x :: (left ++ old ++ right) := fun h =>
      hfirst 0 (by simp) (occursAt_zero.mpr h)
    rw [List.cons_append, List.cons_append, replaceFirst, if_neg hhead, ih]
    · rfl
    · exact fun i hi h => hfirst (i + 1) (Nat.succ_lt_succ hi) (occursAt_succ.mpr h)

end Scan

end Search
