import Mathlib.Data.List.Basic

/-!
# Fallible computations, read backwards

Every operation of the model is a chain of checks and lookups in `Except`, with the state passed
along explicitly. The proofs never run such a chain forwards: they start from the fact that it
returned, and want every check it passed and every value it found. This module gives the two
primitive checks, `ensure` and `require`, and for each construct an equivalence that turns
"returned this value" into what must have held. `ok_iff` is all four of them at once.
-/

namespace Outcome

universe u v

variable {ε : Type u} {α β σ : Type v}

variable {x : Except ε α} {o : Option α} {c : Prop} {a : α} {e error : ε}

/-- Succeed exactly when `c` holds. -/
def ensure (c : Prop) [Decidable c] (error : ε) : Except ε Unit :=
  if c then .ok () else .error error

/-- The value of an option, or an error. -/
def require (o : Option α) (error : ε) : Except ε α :=
  match o with
  | some a => .ok a
  | none => .error error

@[simp] theorem ensure_ok_iff [Decidable c] {u : Unit} : ensure c error = .ok u ↔ c := by
  unfold ensure
  split <;> simp_all

theorem ensure_error_iff [Decidable c] : ensure c error = .error e ↔ ¬c ∧ error = e := by
  unfold ensure
  split <;> simp_all

theorem ensure_of [Decidable c] (h : c) : ensure c error = .ok () :=
  ensure_ok_iff.mpr h

@[simp] theorem require_ok_iff : require o error = .ok a ↔ o = some a := by
  cases o <;> simp [require]

theorem require_error_iff : require o error = .error e ↔ o = none ∧ error = e := by
  cases o <;> simp [require]

@[simp] theorem require_some (a : α) (error : ε) : require (some a) error = .ok a := rfl

@[simp] theorem bind_ok_iff {f : α → Except ε β} {b : β} :
    (x >>= f) = .ok b ↔ ∃ a, x = .ok a ∧ f a = .ok b := by
  cases x with
  | error e => simp [bind, Except.bind]
  | ok a => simp [bind, Except.bind]

theorem bind_error_iff {f : α → Except ε β} :
    (x >>= f) = .error e ↔ x = .error e ∨ ∃ a, x = .ok a ∧ f a = .error e := by
  cases x with
  | error e => simp [bind, Except.bind]
  | ok a => simp [bind, Except.bind]

@[simp] theorem ok_bind (a : α) (f : α → Except ε β) : ((Except.ok a : Except ε α) >>= f) = f a :=
  rfl

@[simp] theorem error_bind (e : ε) (f : α → Except ε β) :
    ((Except.error e : Except ε α) >>= f) = .error e := rfl

@[simp] theorem pure_ok_iff {b : α} : (pure a : Except ε α) = .ok b ↔ a = b := by
  simp [pure, Except.pure]

@[simp] theorem pure_error_iff : (pure a : Except ε α) = .error e ↔ False := by
  simp [pure, Except.pure]

@[simp] theorem map_ok_iff {f : α → β} {b : β} : (f <$> x) = .ok b ↔ ∃ a, x = .ok a ∧ f a = b := by
  cases x <;> simp [Functor.map, Except.map]

/-- The rules of a chain of checks and lookups, for the simplifier to take a returned one apart. -/
theorem ok_iff :
    (∀ {ε α β : Type} {x : Except ε α} {f : α → Except ε β} {b : β},
      (x >>= f) = .ok b ↔ ∃ a, x = .ok a ∧ f a = .ok b) ∧
    (∀ {ε : Type} {c : Prop} [Decidable c] {error : ε} {u : Unit}, ensure c error = .ok u ↔ c) ∧
    (∀ {ε α : Type} {o : Option α} {error : ε} {a : α}, require o error = .ok a ↔ o = some a) ∧
    ∀ {ε α : Type} {a b : α}, (pure a : Except ε α) = .ok b ↔ a = b :=
  ⟨bind_ok_iff, ensure_ok_iff, require_ok_iff, pure_ok_iff⟩

/-- The rules of pairs, for a chain that returns a value together with a state. -/
theorem pair_iff {α β : Type} :
    (∀ {p : α × β → Prop}, (∃ x, p x) ↔ ∃ a b, p (a, b)) ∧
    ∀ {a c : α} {b d : β}, (a, b) = (c, d) ↔ a = c ∧ b = d :=
  ⟨Prod.exists, Iff.of_eq (Prod.mk.injEq _ _ _ _)⟩

/-- A computation that is known to return has a result. -/
theorem exists_ok (h : x.toBool = true) : ∃ a, x = .ok a := by
  cases x with
  | error e => cases h
  | ok a => exact ⟨a, rfl⟩

theorem exists_of_map_fst {x : Except ε (α × β)} (h : x.map Prod.fst = .ok a) :
    ∃ b, x = .ok (a, b) := by
  cases x with
  | error e => cases h
  | ok r =>
    obtain rfl := Except.ok.inj h
    exact ⟨r.2, rfl⟩

/-- Every result of a traversal that returned is the result at some element. -/
theorem exists_of_mem_mapM {β : Type u} {f : α → Except ε β} {l : List α} {r : List β}
    (h : l.mapM f = .ok r) {b : β} (hb : b ∈ r) : ∃ a ∈ l, f a = .ok b := by
  induction l generalizing r with
  | nil =>
    cases h
    cases hb
  | cons a l ih =>
    simp only [List.mapM_cons, bind_ok_iff, pure_ok_iff] at h
    obtain ⟨first, hfirst, rest, hrest, rfl⟩ := h
    rcases List.mem_cons.mp hb with rfl | hb
    · exact ⟨a, List.mem_cons_self, hfirst⟩
    · obtain ⟨x, hx, hfx⟩ := ih hrest hb
      exact ⟨x, List.mem_cons_of_mem _ hx, hfx⟩

@[simp] theorem mapError_ok_iff {ε' : Type u} {f : ε → ε'} : x.mapError f = .ok a ↔ x = .ok a := by
  cases x <;> simp [Except.mapError]

/-- A fold that stops at the first error. -/
def foldOk (step : σ → α → Except ε σ) : σ → List α → Except ε σ
  | s, [] => .ok s
  | s, a :: as => do
    let s' ← step s a
    foldOk step s' as

@[simp] theorem foldOk_nil (step : σ → α → Except ε σ) (s : σ) : foldOk step s [] = .ok s := rfl

@[simp] theorem foldOk_cons (step : σ → α → Except ε σ) (s : σ) (a : α) (as : List α) :
    foldOk step s (a :: as) = step s a >>= fun s' => foldOk step s' as := rfl

theorem foldOk_append (step : σ → α → Except ε σ) (s : σ) (as bs : List α) :
    foldOk step s (as ++ bs) = foldOk step s as >>= fun s' => foldOk step s' bs := by
  induction as generalizing s with
  | nil => rfl
  | cons a as ih =>
    simp only [List.cons_append, foldOk_cons]
    cases step s a with
    | error e => rfl
    | ok s' => exact ih s'

/-- A fold that returned kept whatever each of its steps keeps. -/
theorem foldOk_invariant {step : σ → α → Except ε σ} {P : σ → Prop} {as : List α}
    (hstep : ∀ s s' a, a ∈ as → P s → step s a = .ok s' → P s') {s s' : σ} (hs : P s)
    (h : foldOk step s as = .ok s') : P s' := by
  induction as generalizing s with
  | nil => simp only [foldOk_nil, Except.ok.injEq] at h; exact h ▸ hs
  | cons a as ih =>
    obtain ⟨t, ht, h⟩ := bind_ok_iff.mp h
    exact ih (fun s s' b hb => hstep s s' b (List.mem_cons_of_mem _ hb))
      (hstep s t a List.mem_cons_self hs ht) h

end Outcome
