/-
Greedy pruning of a directed graph to a clique: while the remaining vertex whose remaining
neighbourhood scores least does not see every remaining vertex, drop it. With a score that grows
with the set, the pruning ends in a clique; with self-loops it never drops the last vertex.
-/
import Mathlib.Data.Finset.Basic
import Mathlib.Logic.Relation
import Mathlib.Order.Basic

namespace GreedyClique

section

variable {V β : Type} [DecidableEq V] [LinearOrder β] (N : V → Finset V) (score : Finset V → β)

/-- A remaining vertex whose remaining neighbourhood scores least. -/
def Least (R : Finset V) (v : V) : Prop := v ∈ R ∧ ∀ u ∈ R, score (N v ∩ R) ≤ score (N u ∩ R)

/-- One turn: a least vertex that does not see every remaining vertex is dropped. -/
inductive Step : Finset V → Finset V → Prop
  | drop {R : Finset V} {v : V} : Least N score R v → ¬ R ⊆ N v → Step R (R.erase v)

/-- The pruning ends when nothing remains, or a least vertex sees all that remain. -/
def Settled (R : Finset V) : Prop := R = ∅ ∨ ∃ v, Least N score R v ∧ R ⊆ N v

variable {N score}

theorem Step.subset {R R' : Finset V} (h : Step N score R R') : R' ⊆ R := by
  cases h with
  | drop _ _ => exact Finset.erase_subset ..

theorem steps_subset {R R' : Finset V} (h : Relation.ReflTransGen (Step N score) R R') : R' ⊆ R := by
  induction h with
  | refl => exact Finset.Subset.refl _
  | tail _ hs ih => exact hs.subset.trans ih

/-- With self-loops the pruning keeps at least one vertex. -/
theorem steps_nonempty {R₀ R : Finset V} (hself : ∀ v ∈ R₀, v ∈ N v)
    (h : Relation.ReflTransGen (Step N score) R₀ R) (h₀ : R₀.Nonempty) : R.Nonempty := by
  induction h with
  | refl => exact h₀
  | @tail R' R hR hs ih =>
    cases hs with
    | @drop v hl hn =>
      obtain ⟨u, hu, hnu⟩ := Finset.not_subset.1 hn
      have huv : u ≠ v := by
        rintro rfl
        exact hnu (hself u (steps_subset hR hu))
      exact ⟨u, Finset.mem_erase.2 ⟨huv, hu⟩⟩

/-- Nothing is dropped from a set of vertices that all see each other. -/
theorem steps_of_clique {R₀ R : Finset V} (hall : ∀ v ∈ R₀, R₀ ⊆ N v)
    (h : Relation.ReflTransGen (Step N score) R₀ R) : R = R₀ := by
  rcases h.cases_head with rfl | ⟨R', hs, -⟩
  · rfl
  · cases hs with
    | drop hl hn => exact absurd (hall _ hl.1) hn

/-- If larger sets score more, every vertex left at the end sees every vertex left. -/
theorem clique_of_settled (hmono : ∀ s t : Finset V, s ⊂ t → score s < score t) {R : Finset V}
    (h : Settled N score R) : ∀ u ∈ R, R ⊆ N u := by
  rcases h with rfl | ⟨v, ⟨hv, hleast⟩, hsub⟩
  · simp
  · intro u hu
    by_contra hnot
    have hvR : N v ∩ R = R := Finset.inter_eq_right.2 hsub
    have hlt : N u ∩ R ⊂ R := by
      refine Finset.ssubset_iff_subset_ne.2 ⟨Finset.inter_subset_right, fun he => hnot ?_⟩
      exact Finset.inter_eq_right.1 he
    have h1 := hleast u hu
    rw [hvR] at h1
    exact absurd (hmono _ _ hlt) (not_lt.2 h1)

end

end GreedyClique
