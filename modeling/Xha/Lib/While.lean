/-
`while` loops on explicit fuel: what a loop returns does not depend on the fuel, and the rules for loops that
return, for what they return, and for loops that never do.
-/
import Mathlib.Order.Basic

namespace While

variable {σ β : Type} (turn : σ → σ ⊕ β)

/-- At most `fuel` turns of a loop, each of which goes on or returns. -/
def run : Nat → σ → Option β
  | 0, _ => none
  | fuel + 1, s => match turn s with
    | .inl t => run fuel t
    | .inr b => some b

/-- The loop returns in the end. -/
def Returns (s : σ) (b : β) : Prop := ∃ fuel, run turn fuel s = some b

variable {turn}

theorem run_mono {fuel fuel' : Nat} {s : σ} {b : β} (h : run turn fuel s = some b) (hle : fuel ≤ fuel') :
    run turn fuel' s = some b := by
  induction fuel generalizing fuel' s with
  | zero => cases h
  | succ fuel ih =>
    obtain ⟨rest, rfl⟩ := Nat.exists_eq_add_of_le' hle
    rw [← Nat.add_assoc, run]
    rw [run] at h
    cases ht : turn s with
    | inl t =>
      rw [ht] at h
      exact ih h (Nat.le_add_left ..)
    | inr a =>
      rw [ht] at h
      exact h

theorem returns_inl {s t : σ} {b : β} (ht : turn s = .inl t) : Returns turn s b ↔ Returns turn t b := by
  constructor
  · rintro ⟨fuel, h⟩
    cases fuel with
    | zero => cases h
    | succ fuel =>
      rw [run, ht] at h
      exact ⟨fuel, h⟩
  · rintro ⟨fuel, h⟩
    refine ⟨fuel + 1, ?_⟩
    rw [run, ht]
    exact h

theorem returns_inr {s : σ} {a : β} (ht : turn s = .inr a) : Returns turn s a :=
  ⟨1, by rw [run, ht]⟩

/-- What a loop returns it returns from a state that meets the invariant. -/
theorem Returns.inv {s : σ} {b : β} (h : Returns turn s b) (I : σ → Prop) (h0 : I s)
    (hturn : ∀ s t, I s → turn s = .inl t → I t) : ∃ t, I t ∧ turn t = .inr b := by
  obtain ⟨fuel, h⟩ := h
  induction fuel generalizing s with
  | zero => cases h
  | succ fuel ih =>
    rw [run] at h
    cases ht : turn s with
    | inl t =>
      rw [ht] at h
      exact ih (hturn s t h0 ht) h
    | inr a =>
      rw [ht] at h
      cases h
      exact ⟨s, h0, ht⟩

/-- A loop returns if every turn that goes on makes a measure smaller. -/
theorem exists_returns {s : σ} (I : σ → Prop) (measure : σ → Nat) (h0 : I s)
    (hturn : ∀ s t, I s → turn s = .inl t → I t ∧ measure t < measure s) : ∃ b, Returns turn s b := by
  induction hm : measure s using Nat.strongRecOn generalizing s with
  | _ m ih =>
    cases ht : turn s with
    | inl t =>
      obtain ⟨hI, hlt⟩ := hturn s t h0 ht
      obtain ⟨b, hb⟩ := ih (measure t) (hm ▸ hlt) hI rfl
      exact ⟨b, (returns_inl ht).2 hb⟩
    | inr b => exact ⟨b, returns_inr ht⟩

/-- A loop never returns if every turn goes on. -/
theorem run_eq_none {s : σ} (I : σ → Prop) (h0 : I s) (hturn : ∀ s, I s → ∃ t, turn s = .inl t ∧ I t) :
    ∀ fuel, run turn fuel s = none := by
  intro fuel
  induction fuel generalizing s with
  | zero => rfl
  | succ fuel ih =>
    obtain ⟨t, ht, hI⟩ := hturn s h0
    rw [run, ht]
    exact ih hI

end While
