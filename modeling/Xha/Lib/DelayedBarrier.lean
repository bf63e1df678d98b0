/-
A barrier between parties that pass the positions 0, 1, 2, … and see each other's position late: a party
leaves a position once it has met everybody there, that is, has seen everybody there or one further,
where what it sees of a position is only its residue.
-/
import Mathlib.Data.Nat.ModEq

namespace DelayedBarrier

variable {ι : Type}

/-- What holds of the positions, of what each party has seen, and of the parties that have met everybody
at their position. -/
structure Barrier (mem : ι → Prop) (pos : ι → Nat) (seen : ι → ι → Nat) (met : ι → Prop) : Prop where
  seen_le : ∀ i j, mem i → mem j → seen i j ≤ pos j
  le_seen : ∀ i j, mem i → mem j → pos i ≤ seen i j + 1
  met_le : ∀ i j, mem i → mem j → met i → pos i ≤ seen i j

/-- `v` shows the position `p` or the next one, as far as residues go. -/
def ShowsNear (m p v : Nat) : Prop := v ≡ p [MOD m] ∨ v ≡ p + 1 [MOD m]

variable {mem : ι → Prop} {pos pos' : ι → Nat} {seen seen' : ι → ι → Nat} {met met' : ι → Prop}

theorem Barrier.init (hpos : ∀ i, mem i → pos i = 0) (hseen : ∀ i j, mem i → mem j → seen i j = 0) :
    Barrier mem pos seen met := by
  refine ⟨fun i j hi hj => ?_, fun i j hi _ => ?_, fun i j hi _ _ => ?_⟩
  · rw [hseen i j hi hj]; exact Nat.zero_le _
  · rw [hpos i hi]; exact Nat.zero_le _
  · rw [hpos i hi]; exact Nat.zero_le _

/-- Any two positions differ by at most one. -/
theorem Barrier.adjacent (h : Barrier mem pos seen met) {i j : ι} (hi : mem i) (hj : mem j) : pos i ≤ pos j + 1 :=
  le_trans (h.le_seen i j hi hj) (Nat.succ_le_succ (h.seen_le i j hi hj))

/-- Who has met everybody is not ahead of anybody. -/
theorem Barrier.le_of_met (h : Barrier mem pos seen met) {i j : ι} (hi : mem i) (hj : mem j) (hm : met i) :
    pos i ≤ pos j :=
  le_trans (h.met_le i j hi hj hm) (h.seen_le i j hi hj)

/-- Nothing that matters changed. -/
theorem Barrier.congr (h : Barrier mem pos seen met) (hpos : ∀ i, mem i → pos' i = pos i)
    (hseen : ∀ i j, mem i → mem j → seen' i j = seen i j) (hmet : ∀ i, mem i → met' i → met i) :
    Barrier mem pos' seen' met' := by
  refine ⟨fun i j hi hj => ?_, fun i j hi hj => ?_, fun i j hi hj hm => ?_⟩
  · rw [hseen i j hi hj, hpos j hj]; exact h.seen_le i j hi hj
  · rw [hseen i j hi hj, hpos i hi]; exact h.le_seen i j hi hj
  · rw [hseen i j hi hj, hpos i hi]; exact h.met_le i j hi hj (hmet i hi hm)

/-- Parties see something newer. -/
theorem Barrier.see (h : Barrier mem pos seen met) (hold : ∀ i j, mem i → mem j → seen i j ≤ seen' i j)
    (hnew : ∀ i j, mem i → mem j → seen' i j ≤ pos j) : Barrier mem pos seen' met := by
  refine ⟨hnew, fun i j hi hj => ?_, fun i j hi hj hm => ?_⟩
  · exact le_trans (h.le_seen i j hi hj) (Nat.succ_le_succ (hold i j hi hj))
  · exact le_trans (h.met_le i j hi hj hm) (hold i j hi hj)

/-- A residue that shows a position or the next one cannot come from the position before. -/
theorem le_of_showsNear {m p v : Nat} (hm : 3 ≤ m) (h : ShowsNear m p v) (hlow : p ≤ v + 1) : p ≤ v := by
  by_contra hlt
  obtain rfl : p = v + 1 := by omega
  rcases h with h | h
  · have h01 : 0 ≡ 1 [MOD m] := Nat.ModEq.add_left_cancel' v h
    rw [Nat.ModEq, Nat.zero_mod, Nat.mod_eq_of_lt (by omega)] at h01
    omega
  · have h02 : 0 ≡ 2 [MOD m] := Nat.ModEq.add_left_cancel' v h
    rw [Nat.ModEq, Nat.zero_mod, Nat.mod_eq_of_lt (by omega)] at h02
    omega

/-- Parties meet everybody once everybody's residue shows their position or the next one. -/
theorem Barrier.meet {m : Nat} (hm : 3 ≤ m) (h : Barrier mem pos seen met)
    (hmet : ∀ i, mem i → met' i → met i ∨ ∀ j, mem j → ShowsNear m (pos i) (seen i j)) : Barrier mem pos seen met' := by
  refine ⟨h.seen_le, h.le_seen, fun i j hi hj hi' => ?_⟩
  rcases hmet i hi hi' with hold | hnear
  · exact h.met_le i j hi hj hold
  · exact le_of_showsNear hm (hnear j hj) (h.le_seen i j hi hj)

/-- A party that has met everybody goes on. -/
theorem Barrier.go {k : ι} (h : Barrier mem pos seen met) (hk : met k) (hpos : pos' k = pos k + 1)
    (hoth : ∀ i, i ≠ k → mem i → pos' i = pos i) (hmet : ∀ i, mem i → met' i → i ≠ k ∧ met i) :
    Barrier mem pos' seen met' := by
  have hle : ∀ i, mem i → pos i ≤ pos' i := fun i hi => by
    by_cases hik : i = k
    · subst hik; omega
    · exact Nat.le_of_eq (hoth i hik hi).symm
  refine ⟨fun i j hi hj => le_trans (h.seen_le i j hi hj) (hle j hj), fun i j hi hj => ?_, fun i j hi hj hm => ?_⟩
  · by_cases hik : i = k
    · subst hik
      rw [hpos]
      exact Nat.succ_le_succ (h.met_le i j hi hj hk)
    · rw [hoth i hik hi]
      exact h.le_seen i j hi hj
  · obtain ⟨hik, hold⟩ := hmet i hi hm
    rw [hoth i hik hi]
    exact h.met_le i j hi hj hold

end DelayedBarrier
