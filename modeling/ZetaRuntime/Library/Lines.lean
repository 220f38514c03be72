import Mathlib.Data.List.Basic

/-!
# Lines

A text is a list of characters or of bytes, and a separator ends its lines. What follows the last
separator is a line too unless it is empty, so the empty text has no line and a text that ends with
a separator has none after it.

There are two readings of this. `Lines.split` gives the lines without their separators, as a reader
of a stream sees them. `Lines.inclusive` gives them with their separators, as an editor needs them:
the text is their concatenation. Every text is built from its lines in one way
(`Lines.rec_on_lines`), and both are computed along it.
-/

namespace Lines

variable {α : Type*} [DecidableEq α] (sep : α)

variable {lines : List (List α)} {line text xs : List α} {x : α}

/-- The lines of a text without their separators. -/
def split : List α → List (List α)
  | [] => []
  | x :: xs =>
    if x = sep then [] :: split xs
    else
      match split xs with
      | [] => [[x]]
      | line :: lines => (x :: line) :: lines

/-- The lines of a text with their separators. -/
def inclusive : List α → List (List α)
  | [] => []
  | x :: xs =>
    if x = sep then [x] :: inclusive xs
    else
      match inclusive xs with
      | [] => [[x]]
      | line :: lines => (x :: line) :: lines

/-- A text is empty, or one line that does not end, or a line that ends and a text. -/
theorem rec_on_lines {p : List α → Prop} (nil : p [])
    (last : ∀ line, line ≠ [] → sep ∉ line → p line)
    (cons : ∀ line rest, sep ∉ line → p rest → p (line ++ sep :: rest)) (text : List α) :
    p text := by
  induction hn : text.length using Nat.strongRecOn generalizing text with
  | _ n ih =>
    subst hn
    by_cases hmem : sep ∈ text
    · obtain ⟨line, rest, rfl, hline⟩ := List.eq_append_cons_of_mem hmem
      exact cons line rest hline (ih rest.length (by simp; omega) rest rfl)
    · by_cases hnil : text = []
      · exact hnil ▸ nil
      · exact last text hnil hmem

variable {sep}

@[simp] theorem split_nil : split sep [] = [] := rfl

@[simp] theorem inclusive_nil : inclusive sep [] = [] := rfl

theorem split_cons_of_ne (hx : x ≠ sep) (h : split sep xs = line :: lines) :
    split sep (x :: xs) = (x :: line) :: lines := by
  rw [split, if_neg hx, h]

theorem inclusive_cons_of_ne (hx : x ≠ sep) (h : inclusive sep xs = line :: lines) :
    inclusive sep (x :: xs) = (x :: line) :: lines := by
  rw [inclusive, if_neg hx, h]

/-- The first line of a text ends at its first separator. -/
theorem split_append (h : sep ∉ line) (rest : List α) :
    split sep (line ++ sep :: rest) = line :: split sep rest := by
  induction line with
  | nil => rw [List.nil_append, split, if_pos rfl]
  | cons x line ih =>
    rw [List.mem_cons, not_or] at h
    exact split_cons_of_ne (Ne.symm h.1) (ih h.2)

theorem inclusive_append (h : sep ∉ line) (rest : List α) :
    inclusive sep (line ++ sep :: rest) = (line ++ [sep]) :: inclusive sep rest := by
  induction line with
  | nil => rw [List.nil_append, inclusive, if_pos rfl, List.nil_append]
  | cons x line ih =>
    rw [List.mem_cons, not_or] at h
    exact inclusive_cons_of_ne (Ne.symm h.1) (ih h.2)

/-- A text without a separator is one line, if it is anything. -/
theorem split_of_notMem (hne : line ≠ []) (h : sep ∉ line) : split sep line = [line] := by
  induction line with
  | nil => exact absurd rfl hne
  | cons x line ih =>
    rw [List.mem_cons, not_or] at h
    cases line with
    | nil => rw [split, if_neg (Ne.symm h.1), split_nil]
    | cons y line => exact split_cons_of_ne (Ne.symm h.1) (ih (List.cons_ne_nil _ _) h.2)

theorem inclusive_of_notMem (hne : line ≠ []) (h : sep ∉ line) : inclusive sep line = [line] := by
  induction line with
  | nil => exact absurd rfl hne
  | cons x line ih =>
    rw [List.mem_cons, not_or] at h
    cases line with
    | nil => rw [inclusive, if_neg (Ne.symm h.1), inclusive_nil]
    | cons y line => exact inclusive_cons_of_ne (Ne.symm h.1) (ih (List.cons_ne_nil _ _) h.2)

/-- **A text is the concatenation of its lines.** -/
theorem flatten_inclusive (text : List α) : (inclusive sep text).flatten = text := by
  induction text using rec_on_lines sep with
  | nil => rfl
  | last line hne h => rw [inclusive_of_notMem hne h, List.flatten_singleton]
  | cons line rest h ih =>
    rw [inclusive_append h, List.flatten_cons, ih, List.append_assoc, List.singleton_append]

/-! ### The shape of lines -/

variable (sep) in
/-- A line that ends, and has no other end in it. -/
def Ended (line : List α) : Prop := ∃ body, sep ∉ body ∧ line = body ++ [sep]

variable (sep) in
/-- A line that does not end, as the last one of a text may. -/
def Unended (line : List α) : Prop := line ≠ [] ∧ sep ∉ line

omit [DecidableEq α] in
theorem Ended.getLast? (h : Ended sep line) : line.getLast? = some sep := by
  obtain ⟨body, -, rfl⟩ := h
  exact List.getLast?_concat

/-- Lines that end are the lines of their text, whatever comes behind them. -/
theorem inclusive_flatten_append (h : ∀ line ∈ lines, Ended sep line) (text : List α) :
    inclusive sep (lines.flatten ++ text) = lines ++ inclusive sep text := by
  induction lines with
  | nil => rfl
  | cons line lines ih =>
    rw [List.forall_mem_cons] at h
    obtain ⟨body, hbody, rfl⟩ := h.1
    rw [List.flatten_cons, List.append_assoc, List.append_assoc, List.singleton_append,
      inclusive_append hbody, ih h.2, List.cons_append]

theorem mem_inclusive (h : line ∈ inclusive sep text) : Ended sep line ∨ Unended sep line := by
  induction text using rec_on_lines sep with
  | nil => cases h
  | last last hne hlast =>
    rw [inclusive_of_notMem hne hlast, List.mem_singleton] at h
    exact .inr (h ▸ ⟨hne, hlast⟩)
  | cons body rest hbody ih =>
    rw [inclusive_append hbody, List.mem_cons] at h
    rcases h with rfl | h
    · exact .inl ⟨body, hbody, rfl⟩
    · exact ih h

/-- All lines of a text but the last one end. -/
theorem ended_of_mem_dropLast (h : line ∈ (inclusive sep text).dropLast) : Ended sep line := by
  induction text using rec_on_lines sep with
  | nil => cases h
  | last last hne hlast =>
    rw [inclusive_of_notMem hne hlast] at h
    cases h
  | cons body rest hbody ih =>
    rw [inclusive_append hbody] at h
    cases hrest : inclusive sep rest with
    | nil =>
      rw [hrest] at h
      cases h
    | cons next lines =>
      rw [hrest, List.dropLast_cons_cons, List.mem_cons] at h
      rcases h with rfl | h
      · exact ⟨body, hbody, rfl⟩
      · exact ih (hrest ▸ h)

theorem inclusive_line (h : Ended sep line ∨ Unended sep line) : inclusive sep line = [line] := by
  rcases h with hended | ⟨hne, hline⟩
  · have hlines := inclusive_flatten_append (List.forall_mem_singleton.mpr hended) []
    rwa [List.flatten_singleton, List.append_nil, inclusive_nil, List.append_nil] at hlines
  · exact inclusive_of_notMem hne hline

/-- **Lines are the lines of their text exactly if all but the last one end.** -/
theorem inclusive_flatten_iff (h : ∀ line ∈ lines, Ended sep line ∨ Unended sep line) :
    inclusive sep lines.flatten = lines ↔ ∀ line ∈ lines.dropLast, Ended sep line := by
  constructor
  · intro heq line hline
    exact ended_of_mem_dropLast (heq.symm ▸ hline)
  · intro hended
    rcases List.eq_nil_or_concat' lines with rfl | ⟨init, last, rfl⟩
    · rfl
    · rw [List.dropLast_concat] at hended
      rw [List.flatten_concat, inclusive_flatten_append hended,
        inclusive_line (h last (List.mem_append_right _ (List.mem_singleton_self _)))]

end Lines
