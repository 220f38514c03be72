import Mathlib.Tactic.Common

/-!
# Programs that keep their state when they fail

A program over a state either returns a value or fails, and leaves a state in both cases: what it
did to the outside world before it failed stays done. Such a program is an `EStateM`. This module
gives the weakest precondition of one, with a postcondition for each way to end, and its rules.

The rules are equivalences and rewrite from left to right, so the weakest precondition of a block
unfolds to its conditions by `simp`. A recursive program gets a lemma by induction, which enters
the proofs of its callers through `wp_mono`.
-/

namespace Program

universe u

variable {ε σ α β : Type u}

variable {x : EStateM ε σ α} {f : α → EStateM ε σ β} {Q' : α → σ → Prop} {E' : ε → σ → Prop}
  {P : σ → Prop}

/-- A run from this state returns with `Q`, or fails with `E`. -/
def wp (x : EStateM ε σ α) (Q : α → σ → Prop) (E : ε → σ → Prop) (s : σ) : Prop :=
  match x s with
  | .ok a s => Q a s
  | .error e s => E e s

variable {Q : α → σ → Prop} {E : ε → σ → Prop} {s : σ}

@[simp] theorem wp_pure (a : α) : wp (pure a : EStateM ε σ α) Q E s ↔ Q a s := Iff.rfl

@[simp] theorem wp_throw (e : ε) : wp (throw e : EStateM ε σ α) Q E s ↔ E e s := Iff.rfl

@[simp] theorem wp_get {Q : σ → σ → Prop} : wp (get : EStateM ε σ σ) Q E s ↔ Q s s := Iff.rfl

@[simp] theorem wp_modify (f : σ → σ) {Q : PUnit → σ → Prop} :
    wp (modify f : EStateM ε σ PUnit) Q E s ↔ Q ⟨⟩ (f s) := Iff.rfl

@[simp] theorem wp_bind (x : EStateM ε σ α) (f : α → EStateM ε σ β) {Q : β → σ → Prop} :
    wp (x >>= f) Q E s ↔ wp x (fun a s => wp (f a) Q E s) E s := by
  change wp (EStateM.bind x f) Q E s ↔ _
  unfold wp EStateM.bind
  cases x s <;> rfl

theorem wp_mono (h : wp x Q E s) (hQ : ∀ a s, Q a s → Q' a s) (hE : ∀ e s, E e s → E' e s) :
    wp x Q' E' s := by
  unfold wp at h ⊢
  cases hx : x s with
  | ok a s => exact hQ a s (by simpa [hx] using h)
  | error e s => exact hE e s (by simpa [hx] using h)

theorem wp_and (h : wp x Q E s) (h' : wp x Q' E' s) :
    wp x (fun a s => Q a s ∧ Q' a s) (fun e s => E e s ∧ E' e s) s := by
  unfold wp at h h' ⊢
  cases hx : x s with
  | ok a s => exact ⟨by simpa [hx] using h, by simpa [hx] using h'⟩
  | error e s => exact ⟨by simpa [hx] using h, by simpa [hx] using h'⟩

/-- However a run from this state ends, the state it leaves has `P`. -/
abbrev Ends (x : EStateM ε σ α) (P : σ → Prop) (s : σ) : Prop := wp x (fun _ => P) (fun _ => P) s

theorem Ends.mono {P' : σ → Prop} (h : Ends x P s) (hP : ∀ s, P s → P' s) : Ends x P' s :=
  wp_mono h (fun _ => hP) fun _ => hP

/-- The state a run leaves. -/
def after (x : EStateM ε σ α) (s : σ) : σ :=
  match x s with
  | .ok _ s => s
  | .error _ s => s

theorem wp_after (h : Ends x P s) : P (after x s) := by
  unfold Ends wp at h
  unfold after
  cases hx : x s with
  | ok a s => simpa [hx] using h
  | error e s => simpa [hx] using h

/-- However a run ends, it ends in a state that is related to the one it began in. -/
def Moves (R : σ → σ → Prop) (x : EStateM ε σ α) : Prop := ∀ s, Ends x (R s) s

namespace Moves

variable {R : σ → σ → Prop} [IsPreorder σ R]

theorem of_pure (a : α) : Moves R (pure a : EStateM ε σ α) := fun s => refl s

theorem of_throw (e : ε) : Moves R (throw e : EStateM ε σ α) := fun s => refl s

theorem of_get : Moves R (get : EStateM ε σ σ) := fun s => refl s

omit [IsPreorder σ R] in
theorem of_modify {f : σ → σ} (h : ∀ s, R s (f s)) : Moves R (modify f : EStateM ε σ PUnit) := h

/-- A block moves from a state if its first part does, and its second part from every state the
first may lead to. -/
theorem wp_bind_of (hx : Ends x (R s) s) (hf : ∀ a s', R s s' → Ends (f a) (R s') s') :
    Ends (x >>= f) (R s) s := by
  rw [Ends, wp_bind]
  refine wp_mono hx (fun a s' hs => ?_) (fun _ _ hs => hs)
  exact wp_mono (hf a s' hs) (fun _ _ => Trans.trans hs) (fun _ _ => Trans.trans hs)

omit [IsPreorder σ R] in
theorem mono {R' : σ → σ → Prop} (h : Moves R x) (hR : ∀ s s', R s s' → R' s s') :
    Moves R' x := fun s => wp_mono (h s) (fun _ => hR s) (fun _ => hR s)

theorem of_bind (hx : Moves R x) (hf : ∀ a, Moves R (f a)) : Moves R (x >>= f) :=
  fun s => wp_bind_of (hx s) fun a s' _ => hf a s'

end Moves

end Program
