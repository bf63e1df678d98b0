/-
A register with one writer, read late: the reader holds one of the versions written and moves on to a later
one whenever it reads. What is still ahead of a reader, and the properties that, once they hold of a
version, hold of every later one.
-/
import Mathlib.Data.List.Basic

namespace DelayedRegister

variable {α : Type} {p : α → Prop} {written : List α} {seen m : Nat} {current : α}

/-- The versions from the one the reader holds to the one in the writer's memory. -/
def ahead (written : List α) (seen : Nat) (current : α) : List α := written.drop seen ++ [current]

/-- Once `p` holds of a version, it holds of all later ones. -/
def Rising (p : α → Prop) (l : List α) : Prop := l.Pairwise fun a b => p a → p b

theorem current_mem_ahead : current ∈ ahead written seen current := by simp [ahead]

theorem mem_ahead_of_drop {a : α} (h : a ∈ written.drop seen) : a ∈ ahead written seen current :=
  List.mem_append_left _ h

/-- What the reader holds is ahead of it. -/
theorem held_mem {a : α} (h : written[seen]? = some a) : a ∈ written.drop seen := by
  obtain ⟨hlt, rfl⟩ := List.getElem?_eq_some_iff.1 h
  rw [List.drop_eq_getElem_cons hlt]
  exact List.mem_cons_self

theorem drop_subset (h : seen ≤ m) {a : α} (ha : a ∈ written.drop m) : a ∈ written.drop seen :=
  List.drop_subset_drop_left written h ha

/-- Everything ahead of a reader that holds a version with the property has it. -/
theorem Rising.of_held (h : Rising p (ahead written seen current)) {a : α} (ha : written[seen]? = some a) (hp : p a) :
    ∀ b ∈ ahead written seen current, p b := by
  obtain ⟨hlt, rfl⟩ := List.getElem?_eq_some_iff.1 ha
  unfold Rising ahead at h
  intro b hb
  rw [ahead, List.drop_eq_getElem_cons hlt, List.cons_append] at hb
  rw [List.drop_eq_getElem_cons hlt, List.cons_append, List.pairwise_cons] at h
  rcases List.mem_cons.1 hb with rfl | hb
  · exact hp
  · exact h.1 b hb hp

/-- What holds of a version ahead holds in the writer's memory. -/
theorem Rising.holds_current (h : Rising p (ahead written seen current)) {a : α}
    (ha : a ∈ ahead written seen current) (hp : p a) :
    p current := by
  rcases List.mem_append.1 ha with ha | ha
  · exact (List.pairwise_append.1 h).2.2 a ha current (List.mem_singleton_self _) hp
  · rw [List.mem_singleton] at ha
    exact ha ▸ hp

/-- Reading leaves less ahead. -/
theorem Rising.read (h : Rising p (ahead written seen current)) (hm : seen ≤ m) : Rising p (ahead written m current) := by
  have hsub : (written.drop m).Sublist (written.drop seen) := by
    obtain ⟨d, rfl⟩ := Nat.exists_eq_add_of_le hm
    rw [← List.drop_drop]
    exact List.drop_sublist ..
  exact List.Pairwise.sublist (hsub.append_right [current]) h

/-- The writer may change its memory as long as it keeps the property. -/
theorem Rising.change (h : Rising p (ahead written seen current)) {current' : α} (hc : p current → p current') :
    Rising p (ahead written seen current') := by
  obtain ⟨hd, _, hlast⟩ := List.pairwise_append.1 h
  refine List.pairwise_append.2 ⟨hd, List.pairwise_singleton .., fun a ha b hb hp => ?_⟩
  rw [List.mem_singleton] at hb
  rw [hb]
  exact hc (hlast a ha current (List.mem_singleton_self _) hp)

/-- Writing the memory out puts one more version with the same property ahead. -/
theorem Rising.write (h : Rising p (ahead written seen current)) : Rising p (ahead (written ++ [current]) seen current) := by
  unfold ahead
  rw [List.drop_append]
  have hdrop : ∀ k, ([current] : List α).drop k = [current] ∨ ([current] : List α).drop k = [] := fun k => by
    cases k
    · exact .inl rfl
    · exact .inr (by simp)
  rcases hdrop (seen - written.length) with hk | hk <;> rw [hk]
  · refine List.pairwise_append.2 ⟨h, List.pairwise_singleton .., fun a ha b hb hp => ?_⟩
    rw [List.mem_singleton] at hb
    rw [hb]
    exact h.holds_current ha hp
  · rw [List.append_nil]
    exact h

theorem mem_ahead_write {a : α} (h : a ∈ ahead (written ++ [current]) seen current) : a ∈ ahead written seen current := by
  unfold ahead at h ⊢
  rw [List.drop_append] at h
  rcases List.mem_append.1 h with h | h
  · rcases List.mem_append.1 h with h | h
    · exact List.mem_append_left _ h
    · exact List.mem_append_right _ (List.mem_of_mem_drop h)
  · exact List.mem_append_right _ h

/-- Nothing that the reader may still get has the property. -/
theorem rising_of_none (h : ∀ a ∈ written.drop seen, ¬ p a) : Rising p (ahead written seen current) := by
  refine List.pairwise_append.2 ⟨?_, List.pairwise_singleton .., fun a ha b _ hp => absurd hp (h a ha)⟩
  exact List.pairwise_iff_forall_sublist.2 fun {a b} hs hp =>
    absurd hp (h a (hs.subset List.mem_cons_self))

end DelayedRegister
