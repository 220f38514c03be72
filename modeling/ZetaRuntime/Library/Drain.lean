import Mathlib.Data.List.Sort
import Mathlib.Data.Set.BooleanAlgebra
import Mathlib.Order.CompletePartialOrder

/-!
# Draining what is due

A system in which some things are due. A step that takes the one with the earliest deadline, and
after which nothing is due that was not due before, makes the set smaller. So a run of such steps
takes what it takes in the order of the deadlines and takes nothing twice.

Steps carry labels, which say what else is to be known about them; `item` reads off what a step
takes.
-/

namespace Drain

variable {σ ι lab δ : Type*} [Preorder δ] {due : σ → Set ι} {deadline : ι → δ}

/-- From one state to another, what is due first is taken, and nothing becomes due. -/
structure Takes (due : σ → Set ι) (deadline : ι → δ) (s : σ) (i : ι) (s' : σ) : Prop where
  mem : i ∈ due s
  least : ∀ j ∈ due s, deadline i ≤ deadline j
  rest : due s' ⊆ due s \ {i}

/-- A sequence of labelled steps. -/
inductive Run (step : σ → lab → σ → Prop) : σ → List lab → σ → Prop
  | nil (s : σ) : Run step s [] s
  | cons {s t u : σ} {l : lab} {ls : List lab} : step s l t → Run step t ls u →
    Run step s (l :: ls) u

namespace Run

variable {step : σ → lab → σ → Prop} {item : lab → ι} {s t : σ} {ls : List lab}

/-- What a run takes was due, and is not due after it. -/
theorem due_subset (h : Run step s ls t)
    (hstep : ∀ s l s', step s l s' → Takes due deadline s (item l) s') :
    (∀ i ∈ ls.map item, i ∈ due s) ∧ due t ⊆ due s \ {i | i ∈ ls.map item} := by
  induction h with
  | nil s => exact ⟨by simp, by simp⟩
  | cons hfirst _ ih =>
    obtain ⟨hmem, hsub⟩ := ih
    have htakes := hstep _ _ _ hfirst
    constructor
    · intro i hi
      rw [List.map_cons, List.mem_cons] at hi
      rcases hi with rfl | hi
      · exact htakes.mem
      · exact (htakes.rest (hmem i hi)).1
    · intro i hi
      obtain ⟨hdue, hnot⟩ := hsub hi
      obtain ⟨hbefore, hne⟩ := htakes.rest hdue
      refine ⟨hbefore, fun htaken => ?_⟩
      rw [Set.mem_ofPred_eq, List.map_cons, List.mem_cons] at htaken
      rcases htaken with heq | htaken
      · exact hne heq
      · exact hnot htaken

/-- Nothing is taken twice. -/
theorem nodup (h : Run step s ls t)
    (hstep : ∀ s l s', step s l s' → Takes due deadline s (item l) s') : (ls.map item).Nodup := by
  induction h with
  | nil s => exact List.nodup_nil
  | cons hfirst hrest ih =>
    rw [List.map_cons, List.nodup_cons]
    exact ⟨fun hi => ((hstep _ _ _ hfirst).rest ((hrest.due_subset hstep).1 _ hi)).2 rfl, ih⟩

/-- What is due earlier is taken earlier. -/
theorem sorted (h : Run step s ls t)
    (hstep : ∀ s l s', step s l s' → Takes due deadline s (item l) s') :
    (ls.map item).Pairwise fun i j => deadline i ≤ deadline j := by
  induction h with
  | nil s => exact List.Pairwise.nil
  | cons hfirst hrest ih =>
    rw [List.map_cons, List.pairwise_cons]
    have htakes := hstep _ _ _ hfirst
    exact ⟨fun j hj => htakes.least j (htakes.rest ((hrest.due_subset hstep).1 j hj)).1, ih⟩

end Run

end Drain

/-- The first of the elements that a key orders is one of them, and has the least key. -/
theorem head?_insertionSort_spec {α κ : Type*} [LinearOrder κ] (key : α → κ) {r : α → α → Prop}
    [DecidableRel r] (hr : ∀ a b, r a b ↔ key a ≤ key b) (l : List α) :
    (∀ a ∈ (l.insertionSort r).head?, a ∈ l) ∧
      ∀ b ∈ l, ∃ a ∈ (l.insertionSort r).head?, key a ≤ key b := by
  have : Std.Total r := ⟨fun a b => by rw [hr, hr]; exact le_total _ _⟩
  have : IsTrans α r := ⟨fun a b c => by rw [hr, hr, hr]; exact le_trans⟩
  refine ⟨fun a ha => (List.mem_insertionSort r).mp (List.mem_of_mem_head? ha), fun b hb => ?_⟩
  have hsorted := l.pairwise_insertionSort r
  rw [← List.mem_insertionSort r] at hb
  cases hcase : l.insertionSort r with
  | nil =>
    rw [hcase] at hb
    cases hb
  | cons a rest =>
    rw [hcase] at hb hsorted
    refine ⟨a, rfl, ?_⟩
    rcases List.mem_cons.mp hb with rfl | hmem
    · exact le_rfl
    · exact (hr a b).mp ((List.pairwise_cons.mp hsorted).1 b hmem)
