/-
Regions of a sequence: what stands in one, what writing into one leaves, and writing behind the end of a file, where
the gap is filled.
-/
import Mathlib.Data.List.Basic
import Mathlib.Tactic.Ring

namespace Region

variable {α : Type}

/-- The elements from `pos` on, at most `len` of them. -/
def slice (l : List α) (pos len : Nat) : List α := (l.drop pos).take len

/-- The sequence with other elements from `pos` on. -/
def patch (l : List α) (pos : Nat) (new : List α) : List α := l.take pos ++ new ++ l.drop (pos + new.length)

theorem getElem?_slice (l : List α) (pos len k : Nat) : (slice l pos len)[k]? = if k < len then l[pos + k]? else none := by
  rw [slice, List.getElem?_take, List.getElem?_drop]

theorem length_slice {l : List α} {pos len : Nat} (h : pos + len ≤ l.length) : (slice l pos len).length = len := by
  rw [slice, List.length_take, List.length_drop]
  omega

/-- A region is full exactly when it does not end behind the sequence. -/
theorem length_slice_eq_iff {l : List α} {pos len : Nat} :
    (slice l pos len).length = len ↔ len = 0 ∨ pos + len ≤ l.length := by
  rw [slice, List.length_take, List.length_drop]
  omega

/-- A region and the one behind it. -/
theorem slice_add (l : List α) (pos n m : Nat) : slice l pos n ++ slice l (pos + n) m = slice l pos (n + m) := by
  rw [slice, slice, slice, List.take_add, List.drop_drop]

theorem take_append_slice (l : List α) (pos len : Nat) : l.take pos ++ slice l pos len = l.take (pos + len) := by
  rw [slice, List.take_add]

theorem slice_take {l : List α} {pos len n : Nat} (h : n ≤ len) : (slice l pos len).take n = slice l pos n := by
  rw [slice, slice, List.take_take, Nat.min_eq_left h]

theorem slice_slice {l : List α} {pos len p n : Nat} (h : p + n ≤ len) : slice (slice l pos len) p n = slice l (pos + p) n := by
  apply List.ext_getElem?
  intro k
  simp only [getElem?_slice, Nat.add_assoc]
  split
  · rw [if_pos (by omega)]
  · rfl

theorem getElem?_patch {l : List α} {pos : Nat} {new : List α} (hpos : pos ≤ l.length) (k : Nat) :
    (patch l pos new)[k]? = if pos ≤ k ∧ k < pos + new.length then new[k - pos]? else l[k]? := by
  have htake : (l.take pos).length = pos := List.length_take_of_le hpos
  rw [patch, List.append_assoc]
  by_cases hk : k < pos
  · rw [if_neg (by omega), List.getElem?_append_left (by omega), List.getElem?_take_of_lt hk]
  · rw [List.getElem?_append_right (by omega), htake]
    by_cases hnew : k < pos + new.length
    · rw [if_pos (by omega), List.getElem?_append_left (by omega)]
    · rw [if_neg (by omega), List.getElem?_append_right (by omega), List.getElem?_drop]
      congr 1
      omega

theorem patch_append (l m r : List α) {new : List α} (h : new.length = m.length) :
    patch (l ++ (m ++ r)) l.length new = l ++ (new ++ r) := by
  have hdrop : (l ++ (m ++ r)).drop (l.length + new.length) = r := by
    rw [← List.append_assoc, h, ← List.length_append, List.drop_left]
  rw [patch, List.take_left, hdrop, List.append_assoc]

theorem length_patch {l : List α} {pos : Nat} {new : List α} (hpos : pos ≤ l.length) :
    (patch l pos new).length = max l.length (pos + new.length) := by
  simp only [patch, List.length_append, List.length_take, List.length_drop]
  omega

/-- The sequence up to the end of what has been written. -/
theorem take_patch {l : List α} {pos : Nat} {new : List α} (hpos : pos ≤ l.length) :
    (patch l pos new).take (pos + new.length) = l.take pos ++ new := by
  have hlen : (l.take pos ++ new).length = pos + new.length := by
    rw [List.length_append, List.length_take_of_le hpos]
  rw [patch, ← hlen, List.take_left]

theorem take_patch_before {l : List α} {pos n : Nat} {new : List α} (hpos : pos ≤ l.length) (hn : n ≤ pos) :
    (patch l pos new).take n = l.take n := by
  have hle : n ≤ (l.take pos).length := by rwa [List.length_take_of_le hpos]
  rw [patch, List.append_assoc, List.take_append_of_le_length hle, List.take_take, Nat.min_eq_left hn]

/-- What has been written can be read. -/
theorem slice_patch {l : List α} {pos : Nat} {new : List α} (hpos : pos ≤ l.length) :
    slice (patch l pos new) pos new.length = new := by
  apply List.ext_getElem?
  intro k
  rw [getElem?_slice, getElem?_patch hpos]
  split
  · rw [if_pos (by omega), Nat.add_sub_cancel_left]
  · rw [List.getElem?_eq_none (by omega)]

/-- One write behind the other. -/
theorem patch_patch {l : List α} {pos : Nat} (hpos : pos ≤ l.length) (a b : List α) :
    patch (patch l pos a) (pos + a.length) b = patch l pos (a ++ b) := by
  have hlen : pos + a.length ≤ (patch l pos a).length := by
    rw [length_patch hpos]
    exact Nat.le_max_right ..
  apply List.ext_getElem?
  intro k
  rw [getElem?_patch hlen, getElem?_patch hpos, getElem?_patch hpos, List.length_append, List.getElem?_append]
  have hsub : k - (pos + a.length) = k - pos - a.length := by omega
  rw [hsub]
  by_cases hb : pos + a.length ≤ k ∧ k < pos + a.length + b.length
  · rw [if_pos hb, if_pos (by omega), if_neg (by omega)]
  · rw [if_neg hb]
    by_cases ha : pos ≤ k ∧ k < pos + a.length
    · rw [if_pos ha, if_pos (by omega), if_pos (by omega)]
    · rw [if_neg ha, if_neg (by omega)]

/-- Writing into a part of a region. -/
theorem slice_patch_inside {l : List α} {pos len p : Nat} {new : List α} (hl : pos + len ≤ l.length)
    (hp : p + new.length ≤ len) :
    slice (patch l (pos + p) new) pos len = patch (slice l pos len) p new := by
  have hslice : (slice l pos len).length = len := length_slice hl
  apply List.ext_getElem?
  intro k
  rw [getElem?_slice, getElem?_patch (by omega), getElem?_patch (by omega), getElem?_slice]
  by_cases hk : k < len
  · by_cases hin : p ≤ k ∧ k < p + new.length
    · rw [if_pos hk, if_pos (by omega), if_pos hin]
      congr 1
      omega
    · rw [if_pos hk, if_neg (by omega), if_neg hin, if_pos hk]
  · rw [if_neg hk, if_neg (by omega), if_neg hk]

/-! ## Files -/

variable (fill : α)

/-- A file after a write at `pos`: a gap before it is filled, and writing nothing changes nothing. -/
def write (file : List α) (pos : Nat) (new : List α) : List α :=
  if new = [] then file else patch (file ++ List.replicate (pos - file.length) fill) pos new

variable {fill}

theorem length_write {file : List α} {pos : Nat} {new : List α} :
    (write fill file pos new).length = if new = [] then file.length else max file.length (pos + new.length) := by
  unfold write
  split
  · rfl
  · rw [length_patch (by rw [List.length_append, List.length_replicate]; omega), List.length_append, List.length_replicate]
    omega

theorem getElem?_write_outside {file : List α} {pos k : Nat} {new : List α} (hk : k < pos ∨ pos + new.length ≤ k)
    (hlt : k < file.length) : (write fill file pos new)[k]? = file[k]? := by
  unfold write
  split
  · rfl
  · rw [getElem?_patch (by rw [List.length_append, List.length_replicate]; omega), if_neg (by omega),
      List.getElem?_append_left hlt]

theorem getElem?_write_behind {file : List α} {pos k : Nat} {new : List α} (hk : pos + new.length ≤ k) :
    (write fill file pos new)[k]? = file[k]? := by
  rcases Nat.lt_or_ge k file.length with hlt | hge
  · exact getElem?_write_outside (.inr hk) hlt
  · have hlen : (write fill file pos new).length ≤ k := by
      rw [length_write]
      split <;> omega
    rw [List.getElem?_eq_none hlen, List.getElem?_eq_none hge]

theorem getElem?_write_inside {file : List α} {pos k : Nat} {new : List α} (hpos : pos ≤ k) (hk : k < pos + new.length) :
    (write fill file pos new)[k]? = new[k - pos]? := by
  have hne : new ≠ [] := by
    rintro rfl
    rw [List.length_nil] at hk
    omega
  rw [write, if_neg hne, getElem?_patch (by rw [List.length_append, List.length_replicate]; omega), if_pos ⟨hpos, hk⟩]

/-- What has been written can be read. -/
theorem slice_write {file : List α} {pos : Nat} {new : List α} : slice (write fill file pos new) pos new.length = new := by
  apply List.ext_getElem?
  intro k
  rw [getElem?_slice]
  by_cases hk : k < new.length
  · rw [if_pos hk, getElem?_write_inside (Nat.le_add_right ..) (by omega), Nat.add_sub_cancel_left]
  · rw [if_neg hk, List.getElem?_eq_none (by omega)]

/-- After a part of it has been written, a region holds the whole exactly when it held the rest before. -/
theorem slice_write_take_iff {file : List α} {pos n len : Nat} {new : List α} (hlen : len ≤ new.length) :
    slice (write fill file pos (new.take n)) pos len = new.take len ↔
      ∀ k, n ≤ k → k < len → file[pos + k]? = new[k]? := by
  have htake : (new.take n).length = min n new.length := List.length_take
  have hrest : ∀ k, n ≤ k → (write fill file pos (new.take n))[pos + k]? = file[pos + k]? :=
    fun k hk => getElem?_write_behind (by omega)
  constructor
  · rintro h k hn hk
    have helem := congrArg (·[k]?) h
    simp only [getElem?_slice, if_pos hk, List.getElem?_take_of_lt hk] at helem
    rw [← helem, hrest k hn]
  · intro h
    apply List.ext_getElem?
    intro k
    rw [getElem?_slice, List.getElem?_take]
    by_cases hk : k < len
    · rw [if_pos hk, if_pos hk]
      by_cases hn : n ≤ k
      · rw [hrest k hn]
        exact h k hn hk
      · rw [getElem?_write_inside (Nat.le_add_right ..) (by omega), Nat.add_sub_cancel_left,
          List.getElem?_take_of_lt (by omega)]
    · rw [if_neg hk, if_neg hk]

end Region
