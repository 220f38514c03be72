import ZetaRuntime.Library.Table

/-!
# Rows that are ended once

A table of things that begin open and are ended by an entry of a log. If a row is inserted open, and
an entry that ends a row finds it open and closes it, then at any time the log has exactly one entry
for every closed row, and none for the others.
-/

universe u v w

variable {α : Type w} {κ : Type v} {ρ : Type u} [DecidableEq κ]

/-- The log has one entry for every row that is not open, and none for the others. -/
def Ledger (ends : α → Option κ) (isOpen : ρ → Bool) {key : ρ → κ} (log : List α) (t : Table key) :
    Prop :=
  ∀ k, (log.countP fun a => ends a = some k) = if (t.find? k).all isOpen then 0 else 1

namespace Ledger

variable {ends : α → Option κ} {isOpen : ρ → Bool} {key : ρ → κ} {log : List α} {t u : Table key}

theorem nil : Ledger ends isOpen [] (Table.empty : Table key) := fun _ => rfl

/-- An entry that ends nothing. -/
theorem note (h : Ledger ends isOpen log t) {a : α} (ha : ends a = none) :
    Ledger ends isOpen (log ++ [a]) t := by
  intro k
  rw [List.countP_append, h k]
  simp [ha]

/-- A row that begins open. -/
theorem insert? (h : Ledger ends isOpen log t) {r : ρ} (hr : isOpen r = true)
    (hu : t.insert? r = some u) : Ledger ends isOpen log u := by
  intro k
  rw [h k, Table.find?_of_insert? hu]
  by_cases hk : key r = k
  · subst hk
    rw [(Table.insert?_eq_some_iff.mp hu).1, if_pos rfl]
    simp [hr]
  · rw [if_neg hk]

/-- An entry that ends an open row. -/
theorem settle (h : Ledger ends isOpen log t) {a : α} {r : ρ} (ha : ends a = some (key r))
    (hr : r ∈ t) (hopen : isOpen r = true) {p : ρ → Bool} {f : ρ → ρ}
    (hp : ∀ x ∈ t, p x = true ↔ x = r) (hclosed : isOpen (f r) = false)
    (hf : ∀ r, key (f r) = key r) : Ledger ends isOpen (log ++ [a]) (t.updateWhere p f hf) := by
  intro k
  rw [List.countP_append, h k, Table.find?_updateWhere]
  by_cases hk : key r = k
  · subst hk
    rw [Table.find?_of_mem hr]
    simp [ha, hopen, hclosed, (hp r hr).mpr rfl]
  · have hne : ∀ x ∈ t.find? k, p x = false := by
      intro x hx
      have hx' := Table.mem_of_find? (Option.mem_def.mp hx)
      rw [Bool.eq_false_iff]
      intro hpx
      obtain rfl := (hp x hx').mp hpx
      exact hk (Table.key_of_find? (Option.mem_def.mp hx))
    cases hfind : t.find? k with
    | none => simp [ha, hk]
    | some x => simp [ha, hk, hne x hfind]

/-- A table that corresponds row by row, with the same rows open. -/
theorem «matches» (h : Ledger ends isOpen log t) {R : ρ → ρ → Prop}
    (hR : ∀ r r', R r r' → key r = key r' ∧ isOpen r' = isOpen r) (hu : Table.Matches R t u) :
    Ledger ends isOpen log u := by
  intro k
  rw [h k]
  have hkey : ∀ r r', R r r' → key r = key r' := fun r r' hr => (hR r r' hr).1
  cases hfind : t.find? k with
  | none => rw [hu.find?_none hkey hfind]
  | some r =>
    obtain ⟨r', hr', hrel⟩ := hu.find?_some hkey hfind
    simp [hr', (hR r r' hrel).2]

/-- No entry ends a row that is open. -/
theorem not_ends (h : Ledger ends isOpen log t) {r : ρ} (hr : r ∈ t) (hopen : isOpen r = true)
    {a : α} (ha : a ∈ log) : ends a ≠ some (key r) := by
  intro hends
  have hcount := h (key r)
  rw [Table.find?_of_mem hr, Option.all_some, hopen, if_pos rfl, List.countP_eq_zero] at hcount
  exact hcount a ha (by simpa using hends)

end Ledger
