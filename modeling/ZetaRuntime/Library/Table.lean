import Mathlib.Data.List.Nodup
import Mathlib.Data.List.Forall2

/-!
# Keyed tables

A table is a list of rows in insertion order whose primary keys are pairwise distinct. The
distinctness is a field, so no operation can produce a table with two rows under one key and no
proof has to carry that as a hypothesis.

Updates and deletions are the relational ones: a predicate selects rows, a function rewrites them.
An update function comes with the proof that it leaves the key alone; for a record update of a
non-key column that proof is `rfl`, which the default argument supplies.

Two readings of a table are used side by side. `find?` sees it as a partial map and is what point
lookups and single-row updates are stated about. `Matches` compares two tables row by row, and is
how a simulation between two versions of the same tables is expressed: since rows keep their
insertion order, the comparison is positional and every operation preserves it.
-/

universe u v

variable {κ : Type v} {ρ : Type u} [DecidableEq κ]

/-- Rows in insertion order, with distinct keys. -/
structure Table (key : ρ → κ) where
  /-- The rows, oldest first. -/
  rows : List ρ
  /-- No two rows share a key. -/
  nodup_keys : (rows.map key).Nodup

namespace Table

variable {key : ρ → κ}

variable {t u : Table key} {k : κ} {r r' x : ρ} {p q : ρ → Bool} {f : ρ → ρ} {S : ρ → ρ → Prop}

instance : Membership ρ (Table key) := ⟨fun t r => r ∈ t.rows⟩

section

omit [DecidableEq κ]

theorem mem_def : r ∈ t ↔ r ∈ t.rows := Iff.rfl

@[ext] theorem ext (h : t.rows = u.rows) : t = u := by
  cases t; cases u; cases h; rfl

/-- The table with no rows. -/
def empty : Table key := ⟨[], by simp⟩

@[simp] theorem rows_empty : (empty : Table key).rows = [] := rfl

@[simp] theorem not_mem_empty (r : ρ) : ¬ r ∈ (empty : Table key) := by simp [mem_def]

end

/-! ### Lookup -/

/-- The row with key `k`. -/
def find? (t : Table key) (k : κ) : Option ρ := t.rows.find? fun r => key r = k

@[simp] theorem find?_empty (k : κ) : (empty : Table key).find? k = none := rfl

omit [DecidableEq κ] in
theorem eq_of_key_eq (h : r ∈ t) (h' : r' ∈ t) (hk : key r = key r') : r = r' :=
  List.inj_on_of_nodup_map t.nodup_keys h h' hk

theorem find?_eq_some_iff : t.find? k = some r ↔ r ∈ t ∧ key r = k := by
  constructor
  · intro h
    exact ⟨List.mem_of_find?_eq_some h, by simpa using List.find?_some h⟩
  · rintro ⟨hr, rfl⟩
    cases h : t.find? (key r) with
    | none =>
      have := List.find?_eq_none.mp h r hr
      simp at this
    | some r' =>
      have hm : r' ∈ t := List.mem_of_find?_eq_some h
      have hk : key r' = key r := by simpa using List.find?_some h
      rw [eq_of_key_eq hm hr hk]

theorem find?_eq_none_iff : t.find? k = none ↔ ∀ r ∈ t, key r ≠ k := by
  simp [find?, List.find?_eq_none, mem_def]

theorem mem_of_find? (h : t.find? k = some r) : r ∈ t :=
  (find?_eq_some_iff.mp h).1

theorem key_of_find? (h : t.find? k = some r) : key r = k :=
  (find?_eq_some_iff.mp h).2

theorem find?_of_mem (h : r ∈ t) : t.find? (key r) = some r :=
  find?_eq_some_iff.mpr ⟨h, rfl⟩

/-- Two tables with the same lookups have the same rows. -/
theorem mem_iff_find? : r ∈ t ↔ t.find? (key r) = some r :=
  ⟨find?_of_mem, mem_of_find?⟩

/-! ### Inserting -/

/-- Append a row whose key is not taken. -/
def insertNew (t : Table key) (r : ρ) (h : t.find? (key r) = none) : Table key :=
  ⟨t.rows ++ [r], by
    rw [List.map_append, List.nodup_append]
    refine ⟨t.nodup_keys, by simp, ?_⟩
    rintro _ ha _ hb rfl
    obtain ⟨x, hx, hxk⟩ := List.mem_map.mp ha
    simp only [List.map_cons, List.map_nil, List.mem_singleton] at hb
    exact find?_eq_none_iff.mp h x hx (hxk.trans hb)⟩

/-- Insert a row, failing on a key conflict. -/
def insert? (t : Table key) (r : ρ) : Option (Table key) :=
  if h : t.find? (key r) = none then some (t.insertNew r h) else none

theorem exists_insert? (h : t.find? (key r) = none) : ∃ u, t.insert? r = some u :=
  ⟨_, dif_pos h⟩

theorem insert?_eq_some_iff :
    t.insert? r = some u ↔ t.find? (key r) = none ∧ u.rows = t.rows ++ [r] := by
  unfold insert?
  split
  · rename_i h
    simp only [Option.some.injEq, h, true_and]
    constructor
    · rintro rfl; rfl
    · intro hu; exact ext hu.symm
  · rename_i h
    simp [h]

theorem find?_of_insert? (h : t.insert? r = some u) (k : κ) :
    u.find? k = if key r = k then some r else t.find? k := by
  obtain ⟨hnew, hu⟩ := insert?_eq_some_iff.mp h
  rw [find?, hu, List.find?_append]
  by_cases hk : key r = k
  · subst hk
    have hnone : (t.rows.find? fun x => decide (key x = key r)) = none := hnew
    simp [hnone]
  · simp [hk, find?]

theorem mem_of_insert? (h : t.insert? r = some u) : x ∈ u ↔ x ∈ t ∨ x = r := by
  obtain ⟨-, hu⟩ := insert?_eq_some_iff.mp h
  simp [mem_def, hu]

/-! ### Updating -/

/-- Rewrite the rows selected by `p`, leaving keys alone. -/
def updateWhere (t : Table key) (p : ρ → Bool) (f : ρ → ρ)
    (hf : ∀ r, key (f r) = key r := by intro _; rfl) : Table key :=
  ⟨t.rows.map fun r => if p r then f r else r, by
    have : (t.rows.map fun r => if p r then f r else r).map key = t.rows.map key := by
      rw [List.map_map]
      refine List.map_congr_left fun r _ => ?_
      simp only [Function.comp_apply]
      split
      · exact hf r
      · rfl
    rw [this]
    exact t.nodup_keys⟩

omit [DecidableEq κ] in
@[simp] theorem rows_updateWhere (t : Table key) (p : ρ → Bool) (f : ρ → ρ)
    (hf : ∀ r, key (f r) = key r) :
    (t.updateWhere p f hf).rows = t.rows.map fun r => if p r then f r else r := rfl

omit [DecidableEq κ] in
theorem mem_updateWhere {hf : ∀ r, key (f r) = key r} :
    x ∈ t.updateWhere p f hf ↔ ∃ r ∈ t, (if p r then f r else r) = x := by
  simp [mem_def]

theorem find?_updateWhere (t : Table key) (p : ρ → Bool) (f : ρ → ρ) (hf : ∀ r, key (f r) = key r)
    (k : κ) : (t.updateWhere p f hf).find? k = (t.find? k).map fun r => if p r then f r else r := by
  have hkey : ∀ r, key (if p r then f r else r) = key r := by
    intro r
    split
    · exact hf r
    · rfl
  rw [find?, rows_updateWhere, List.find?_map, find?]
  congr 2
  funext r
  simp only [Function.comp_apply, hkey]

/-- The number of rows a predicate selects. -/
def countWhere (t : Table key) (p : ρ → Bool) : ℕ := t.rows.countP p

/-- Replace the row with the key of `r`, or append `r`. -/
def upsert (t : Table key) (r : ρ) : Table key :=
  if h : t.find? (key r) = none then t.insertNew r h
  else ⟨t.rows.map fun x => if key x = key r then r else x, by
    have : (t.rows.map fun x => if key x = key r then r else x).map key = t.rows.map key := by
      rw [List.map_map]
      refine List.map_congr_left fun x _ => ?_
      simp only [Function.comp_apply]
      split
      · rename_i hx; exact hx.symm
      · rfl
    rw [this]
    exact t.nodup_keys⟩

theorem rows_upsert_of_none (h : t.find? (key r) = none) : (t.upsert r).rows = t.rows ++ [r] := by
  simp [upsert, h, insertNew]

theorem rows_upsert_of_some (h : t.find? (key r) = some x) :
    (t.upsert r).rows = t.rows.map fun x => if key x = key r then r else x := by
  simp [upsert, h]

theorem find?_upsert (t : Table key) (r : ρ) (k : κ) :
    (t.upsert r).find? k = if key r = k then some r else t.find? k := by
  cases hx : t.find? (key r) with
  | none =>
    rw [find?, rows_upsert_of_none hx, List.find?_append]
    by_cases hk : key r = k
    · subst hk
      have hnone : (t.rows.find? fun x => decide (key x = key r)) = none := hx
      simp [hnone]
    · simp [hk, find?]
  | some x =>
    rw [find?, rows_upsert_of_some hx, List.find?_map]
    by_cases hk : key r = k
    · subst hk
      have hpred : ((fun x => decide (key x = key r)) ∘ fun x => if key x = key r then r else x)
          = fun x => decide (key x = key r) := by
        funext y
        by_cases hy : key y = key r <;> simp [hy]
      have hfind : (t.rows.find? fun x => decide (key x = key r)) = some x := hx
      rw [hpred, hfind]
      simp [key_of_find? hx]
    · have hpred : ((fun x => decide (key x = k)) ∘ fun x => if key x = key r then r else x)
          = fun x => decide (key x = k) := by
        funext y
        by_cases hy : key y = key r
        · have : key y ≠ k := fun h => hk (hy ▸ h)
          simp [hy, hk]
        · simp [hy]
      rw [hpred, if_neg hk]
      cases hf : t.rows.find? fun x => decide (key x = k) with
      | none => simp [find?, hf]
      | some y =>
        have hy : key y = k := by simpa using List.find?_some hf
        have : key y ≠ key r := fun h => hk (h.symm.trans hy)
        simp [find?, hf, this]

theorem mem_upsert : x ∈ t.upsert r ↔ x = r ∨ (x ∈ t ∧ key x ≠ key r) := by
  rw [mem_iff_find?, find?_upsert]
  by_cases hk : key r = key x
  · simp only [hk, if_true, Option.some.injEq, ne_eq, not_true_eq_false, and_false, or_false]
    exact eq_comm
  · rw [if_neg hk, ← mem_iff_find?]
    constructor
    · exact fun h => Or.inr ⟨h, fun he => hk he.symm⟩
    · rintro (rfl | ⟨h, -⟩)
      · exact absurd rfl hk
      · exact h

/-! ### Deleting -/

/-- Remove the rows selected by `p`. -/
def deleteWhere (t : Table key) (p : ρ → Bool) : Table key :=
  ⟨t.rows.filter fun r => !p r,
    (List.Sublist.map key List.filter_sublist).nodup t.nodup_keys⟩

omit [DecidableEq κ] in
@[simp] theorem rows_deleteWhere (t : Table key) (p : ρ → Bool) :
    (t.deleteWhere p).rows = t.rows.filter fun r => !p r := rfl

omit [DecidableEq κ] in
theorem mem_deleteWhere : x ∈ t.deleteWhere p ↔ x ∈ t ∧ p x = false := by
  simp [mem_def]

theorem find?_deleteWhere (t : Table key) (p : ρ → Bool) (k : κ) :
    (t.deleteWhere p).find? k = (t.find? k).filter fun r => !p r := by
  cases h : t.find? k with
  | none =>
    rw [Option.filter_none, find?_eq_none_iff]
    intro r hr
    exact find?_eq_none_iff.mp h r (mem_deleteWhere.mp hr).1
  | some r =>
    obtain ⟨hr, hk⟩ := find?_eq_some_iff.mp h
    by_cases hp : p r = true
    · simp only [Option.filter_some, hp, Bool.not_true, Bool.false_eq_true, if_false]
      rw [find?_eq_none_iff]
      intro x hx hxk
      obtain ⟨hxt, hxp⟩ := mem_deleteWhere.mp hx
      rw [eq_of_key_eq hxt hr (hxk.trans hk.symm), hp] at hxp
      cases hxp
    · have hp : p r = false := by simpa using hp
      simp only [Option.filter_some, hp, Bool.not_false, if_true]
      exact find?_eq_some_iff.mpr ⟨mem_deleteWhere.mpr ⟨hr, hp⟩, hk⟩

omit [DecidableEq κ] in
theorem deleteWhere_eq_self (h : ∀ r ∈ t, p r = false) : t.deleteWhere p = t := by
  apply ext
  rw [rows_deleteWhere, List.filter_eq_self]
  intro r hr
  simp [h r hr]

omit [DecidableEq κ] in
theorem updateWhere_eq_self {hf : ∀ r, key (f r) = key r} (h : ∀ r ∈ t, p r = false) :
    t.updateWhere p f hf = t := by
  apply ext
  rw [rows_updateWhere]
  conv_rhs => rw [← List.map_id t.rows]
  refine List.map_congr_left fun r hr => ?_
  simp [h r hr]

/-! ### Comparing tables row by row -/

/-- Two tables whose rows correspond, in order, under a key-preserving relation. -/
def Matches (R : ρ → ρ → Prop) (t u : Table key) : Prop := List.Forall₂ R t.rows u.rows

section Matches

variable {R : ρ → ρ → Prop}

omit [DecidableEq κ] in
theorem Matches.refl (hR : ∀ r, R r r) (t : Table key) : Matches R t t :=
  List.forall₂_same.mpr fun r _ => hR r

/-- Corresponding tables hold a key on both sides or on neither. -/
theorem Matches.find? (hkey : ∀ r r', R r r' → key r = key r') (h : Matches R t u) (k : κ) :
    Option.Rel R (t.find? k) (u.find? k) := by
  obtain ⟨ts, ht⟩ := t
  obtain ⟨us, hu⟩ := u
  simp only [Matches, Table.find?] at *
  clear ht hu
  induction h with
  | nil => exact Option.Rel.none
  | @cons a b as bs hab _ ih =>
    by_cases hk : key a = k
    · have hkb : key b = k := by rw [← hkey a b hab]; exact hk
      simpa [hk, hkb] using Option.Rel.some hab
    · have hkb : key b ≠ k := by rw [← hkey a b hab]; exact hk
      simpa [hk, hkb] using ih

theorem Matches.find?_some (hkey : ∀ r r', R r r' → key r = key r') (h : Matches R t u)
    (hr : t.find? k = some r) : ∃ r', u.find? k = some r' ∧ R r r' := by
  have := h.find? hkey k
  rw [hr] at this
  cases hu : u.find? k with
  | none => rw [hu] at this; cases this
  | some r' => rw [hu] at this; cases this with | some h => exact ⟨r', rfl, h⟩

theorem Matches.find?_none (hkey : ∀ r r', R r r' → key r = key r') (h : Matches R t u)
    (hr : t.find? k = none) : u.find? k = none := by
  have := h.find? hkey k
  rw [hr] at this
  cases hu : u.find? k with
  | none => rfl
  | some r' => rw [hu] at this; cases this

theorem Matches.upsert (hkey : ∀ r r', R r r' → key r = key r') (h : Matches R t u) (hr : R r r') :
    Matches R (t.upsert r) (u.upsert r') := by
  have hk := hkey r r' hr
  unfold Matches
  cases ht : t.find? (key r) with
  | none =>
    have hu : u.find? (key r') = none := hk ▸ h.find?_none hkey ht
    rw [rows_upsert_of_none ht, rows_upsert_of_none hu]
    exact List.rel_append h (List.Forall₂.cons hr List.Forall₂.nil)
  | some x =>
    obtain ⟨x', hx', -⟩ := h.find?_some hkey ht
    rw [rows_upsert_of_some ht, rows_upsert_of_some (hk ▸ hx')]
    refine List.forall₂_map_left_iff.mpr (List.forall₂_map_right_iff.mpr (h.imp ?_))
    intro a b hab
    rw [← hkey a b hab, ← hk]
    split
    · exact hr
    · exact hab

theorem Matches.insert? (hkey : ∀ r r', R r r' → key r = key r') {t' : Table key}
    (h : Matches R t u) (hr : R r r') (ht : t.insert? r = some t') :
    ∃ u', u.insert? r' = some u' ∧ Matches R t' u' := by
  obtain ⟨hnew, hrows⟩ := insert?_eq_some_iff.mp ht
  have hu : u.find? (key r') = none := hkey r r' hr ▸ h.find?_none hkey hnew
  refine ⟨u.insertNew r' hu, by simp [Table.insert?, hu], ?_⟩
  unfold Matches
  rw [hrows]
  exact List.rel_append h (List.Forall₂.cons hr List.Forall₂.nil)

section

omit [DecidableEq κ]

theorem Matches.updateWhere (h : Matches R t u) {g : ρ → ρ} {hf : ∀ r, key (f r) = key r}
    {hg : ∀ r, key (g r) = key r} (hpq : ∀ r r', R r r' → p r = q r')
    (hfg : ∀ r r', R r r' → p r = true → R (f r) (g r')) :
    Matches R (t.updateWhere p f hf) (u.updateWhere q g hg) := by
  refine List.forall₂_map_left_iff.mpr (List.forall₂_map_right_iff.mpr (h.imp ?_))
  intro a b hab
  rw [← hpq a b hab]
  split
  · rename_i hp; exact hfg a b hab hp
  · exact hab

theorem Matches.updateWhere_right (h : Matches R t u) (hf : ∀ r, key (f r) = key r)
    (hfg : ∀ r r', R r r' → p r' = true → R r (f r')) : Matches R t (u.updateWhere p f hf) := by
  refine List.forall₂_map_right_iff.mpr (h.imp fun a b hab => ?_)
  split
  · rename_i hp; exact hfg a b hab hp
  · exact hab

theorem Matches.trans {T : ρ → ρ → Prop} {v : Table key} (h : Matches R t u) (h' : Matches S u v)
    (hT : ∀ a b c, R a b → S b c → T a c) : Matches T t v := by
  unfold Matches at *
  generalize t.rows = ts, u.rows = us, v.rows = vs at h h'
  induction h generalizing vs with
  | nil => cases h'; exact .nil
  | cons hab _ ih =>
    cases h' with
    | cons hbc htail => exact .cons (hT _ _ _ hab hbc) (ih _ htail)

theorem Matches.symm (h : Matches R t u) : Matches (fun a b => R b a) u t :=
  List.Forall₂.flip h

theorem Matches.countWhere (h : Matches R t u) (hpq : ∀ r r', R r r' → p r = q r') :
    t.countWhere p = u.countWhere q := by
  unfold Table.countWhere
  unfold Matches at h
  generalize t.rows = ts, u.rows = us at h
  induction h with
  | nil => rfl
  | @cons a b as bs hab _ ih => rw [List.countP_cons, List.countP_cons, ih, hpq a b hab]

theorem Matches.deleteWhere (h : Matches R t u) (hpq : ∀ r r', R r r' → p r = q r') :
    Matches R (t.deleteWhere p) (u.deleteWhere q) := by
  unfold Matches at *
  simp only [rows_deleteWhere]
  generalize t.rows = ts, u.rows = us at h
  induction h with
  | nil => exact List.Forall₂.nil
  | @cons a b as bs hab _ ih =>
    rw [List.filter_cons, List.filter_cons, hpq a b hab]
    split
    · exact List.Forall₂.cons hab ih
    · exact ih

theorem Matches.imp (h : Matches R t u) (hRS : ∀ r r', R r r' → S r r') : Matches S t u :=
  List.Forall₂.imp hRS h

/-- A row corresponds to one. -/
theorem Matches.exists_of_mem (h : Matches R t u) (hr' : r' ∈ u) : ∃ r ∈ t, R r r' := by
  obtain ⟨i, hi, rfl⟩ := List.mem_iff_getElem.mp hr'
  obtain ⟨hlength, hget⟩ := List.forall₂_iff_get.mp h
  exact ⟨t.rows.get ⟨i, hlength ▸ hi⟩, List.get_mem _ _, hget i (hlength ▸ hi) hi⟩

/-- Corresponding tables satisfy corresponding conditions on all rows. -/
theorem Matches.forall_mem_iff (h : Matches R t u) {P Q : ρ → Prop}
    (hPQ : ∀ r r', R r r' → (P r ↔ Q r')) : (∀ r ∈ t, P r) ↔ ∀ r ∈ u, Q r := by
  unfold Matches at h
  simp only [mem_def]
  generalize t.rows = ts, u.rows = us at h
  induction h with
  | nil => simp
  | cons hr _ ih => simp only [List.forall_mem_cons, hPQ _ _ hr, ih]

end

end Matches

end Table
