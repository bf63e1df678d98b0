/-
Taking one entry out of a table by putting the last one in its place: what is left is what `eraseP` leaves, in some order.
-/
import Mathlib.Data.List.Perm.Basic
import Mathlib.Data.List.Basic

namespace List

variable {α : Type}

/-- Takes out the first entry that meets `p`; the last one takes its place. -/
def swapRemove (p : α → Bool) (l : List α) : List α :=
  match l.findIdx? p, l.getLast? with
  | some i, some last => (l.set i last).dropLast
  | _, _ => l

variable {p : α → Bool}

theorem findIdx?_append_cons {l₁ l₂ : List α} {a : α} (h : ∀ b ∈ l₁, ¬ p b = true) (ha : p a = true) :
    (l₁ ++ a :: l₂).findIdx? p = some l₁.length := by
  induction l₁ with
  | nil => rw [nil_append, findIdx?_cons, if_pos ha, length_nil]
  | cons b l₁ ih =>
    obtain ⟨hb, hrest⟩ := forall_mem_cons.1 h
    rw [cons_append, findIdx?_cons, if_neg hb, ih hrest, Option.map_some, length_cons]

theorem swapRemove_perm (l : List α) : (l.swapRemove p).Perm (l.eraseP p) := by
  rcases exists_or_eq_self_of_eraseP p l with heq | ⟨a, l₁, l₂, hl₁, ha, rfl, herase⟩
  · rw [heq]
    unfold swapRemove
    have hnone : l.findIdx? p = none := by
      rw [findIdx?_eq_none_iff]
      intro b hb
      by_contra hpb
      obtain ⟨a, l₁, l₂, -, -, hl, herase⟩ := exists_of_eraseP hb (Bool.of_not_eq_false hpb)
      rw [heq] at herase
      have hlen := congrArg length (hl.symm.trans herase)
      simp at hlen
    rw [hnone]
  · rw [herase]
    unfold swapRemove
    rw [findIdx?_append_cons hl₁ ha]
    rcases eq_nil_or_concat l₂ with rfl | ⟨mid, last, rfl⟩
    · simp
    · -- the last entry moves to the front of what was behind the gap
      rw [concat_eq_append]
      have hlast : (l₁ ++ a :: (mid ++ [last])).getLast? = some last := by
        rw [← cons_append, ← append_assoc, getLast?_concat]
      have hset : (l₁ ++ a :: (mid ++ [last])).set l₁.length last = l₁ ++ last :: mid ++ [last] := by simp
      rw [hlast]
      dsimp only
      rw [hset, dropLast_concat]
      exact (perm_append_singleton last mid).symm.append_left l₁

end List
