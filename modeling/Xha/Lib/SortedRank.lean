/-
Ranks in a sorted list: the elements are compared by a key, the rank of a key is the number of elements
before it. The first element with the key stands at its rank, and no element with the key before it.
-/
import Mathlib.Data.List.Count
import Mathlib.Order.Lattice
import Mathlib.Order.Nat

namespace SortedRank

variable {α κ : Type} [LinearOrder κ] (key : α → κ)

/-- Sorted by the key; elements with the same key are in any order. -/
def Sorted (l : List α) : Prop := l.Pairwise fun a b => key a ≤ key b

/-- The number of elements before a key. -/
def rank (l : List α) (k : κ) : Nat := l.countP fun a => key a < k

variable {key}

theorem rank_append (l l' : List α) (k : κ) : rank key (l ++ l') k = rank key l k + rank key l' k := List.countP_append

theorem rank_perm {l l' : List α} (h : l.Perm l') (k : κ) : rank key l k = rank key l' k := h.countP_eq _

theorem rank_eq_zero {l : List α} {k : κ} : rank key l k = 0 ↔ ∀ a ∈ l, k ≤ key a := by
  simp [rank, List.countP_eq_zero]

/-- Before an element that is not before the key, nothing of a sorted list is. -/
theorem rank_cons_of_le {l : List α} {a : α} {k : κ} (hl : Sorted key (a :: l)) (ha : k ≤ key a) :
    rank key (a :: l) k = 0 := by
  rw [rank_eq_zero]
  rintro b hb
  rcases List.mem_cons.1 hb with rfl | hb
  · exact ha
  · exact ha.trans ((List.pairwise_cons.1 hl).1 b hb)

theorem rank_cons_of_lt {l : List α} {a : α} {k : κ} (ha : key a < k) : rank key (a :: l) k = rank key l k + 1 :=
  List.countP_cons_of_pos (decide_eq_true ha)

/-- An element with the key does not stand before its rank. -/
theorem rank_le_of_getElem? {l : List α} {a : α} {i : Nat} (hl : Sorted key l) (hi : l[i]? = some a) :
    rank key l (key a) ≤ i := by
  induction l generalizing i with
  | nil => simp at hi
  | cons b l ih =>
    cases i with
    | zero =>
      obtain rfl : b = a := by simpa using hi
      exact (rank_cons_of_le hl le_rfl).le
    | succ i =>
      have hi' : l[i]? = some a := by simpa using hi
      rcases lt_or_ge (key b) (key a) with hb | hb
      · rw [rank_cons_of_lt hb]
        exact Nat.succ_le_succ (ih (List.pairwise_cons.1 hl).2 hi')
      · rw [rank_cons_of_le hl hb]
        exact Nat.zero_le _

/-- At the rank of a key that occurs stands an element with that key. -/
theorem getElem?_rank {l : List α} {k : κ} (hl : Sorted key l) (hk : ∃ a ∈ l, key a = k) :
    ∃ a, l[rank key l k]? = some a ∧ key a = k := by
  induction l with
  | nil => simp at hk
  | cons b l ih =>
    obtain ⟨hle, hrest⟩ := List.pairwise_cons.1 hl
    obtain ⟨a, ha, rfl⟩ := hk
    rcases lt_or_ge (key b) (key a) with hb | hb
    · have hal : a ∈ l := (List.mem_cons.1 ha).resolve_left fun h => hb.ne (by rw [h])
      rw [rank_cons_of_lt hb, List.getElem?_cons_succ]
      exact ih hrest ⟨a, hal, rfl⟩
    · rw [rank_cons_of_le hl hb]
      refine ⟨b, List.getElem?_cons_zero, le_antisymm ?_ hb⟩
      rcases List.mem_cons.1 ha with rfl | hal
      · exact le_rfl
      · exact hle a hal

/-- The first element with a key stands at its rank. -/
theorem rank_of_findIdx? {l : List α} {k : κ} {p : α → Bool} (hp : ∀ a, p a = true ↔ key a = k) (hl : Sorted key l)
    {i : Nat} (hi : l.findIdx? p = some i) : rank key l k = i := by
  obtain ⟨hlt, hpi, hbefore⟩ := List.findIdx?_eq_some_iff_getElem.1 hi
  have hkey : key l[i] = k := (hp _).1 hpi
  apply le_antisymm
  · rw [← hkey]
    exact rank_le_of_getElem? hl (List.getElem?_eq_getElem hlt)
  · obtain ⟨a, ha, hak⟩ := getElem?_rank hl ⟨_, List.getElem_mem hlt, hkey⟩
    by_contra hr
    obtain ⟨hr', rfl⟩ := List.getElem?_eq_some_iff.1 ha
    exact absurd ((hp _).2 hak) (by simpa using hbefore _ (Nat.lt_of_not_le hr))

/-! ## Strict orders -/

/-- In a strictly sorted list the place of an element is the number of elements before it. -/
theorem countP_of_pairwise {r : α → α → Prop} [DecidableRel r] (hasymm : ∀ a b, r a b → ¬r b a)
    {l : List α} (h : l.Pairwise r) {i : Nat} {x : α} (hx : l[i]? = some x) : l.countP (fun a => r a x) = i := by
  induction l generalizing i with
  | nil => cases hx
  | cons a l ih =>
    rw [List.pairwise_cons] at h
    cases i with
    | zero =>
      obtain rfl : a = x := by simpa using hx
      rw [List.countP_eq_zero]
      intro b hb
      rcases List.mem_cons.mp hb with rfl | hb
      · simpa using fun hbb => hasymm b b hbb hbb
      · simpa using hasymm _ _ (h.1 b hb)
    | succ i =>
      have hx' : l[i]? = some x := by simpa using hx
      have hax : r a x := h.1 x (List.mem_of_getElem? hx')
      rw [List.countP_cons_of_pos (by simpa using hax), ih h.2 hx']

end SortedRank
