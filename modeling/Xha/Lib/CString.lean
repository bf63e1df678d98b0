/-
C strings: texts without a zero byte, and the comparisons of `strncmp` and `strncasecmp`, which end at the
first zero byte. Both are the lexicographic comparison of the keys of the characters before it.
-/
import Mathlib.Data.Char
import Mathlib.Data.List.Lex
import Mathlib.Data.List.TakeWhile

/-- A C string: its characters, up to the terminator. -/
structure CString where
  chars : List Char
  no_nul : '\x00' ∉ chars
  deriving DecidableEq

namespace CString

/-- Compares at most `n` characters of two arrays by a key; an array that ends is read as zero bytes. -/
def cmpBy (key : Char → Nat) : Nat → List Char → List Char → Ordering
  | 0, _, _ => .eq
  | n + 1, s, t =>
    let a := s.headD '\x00'
    let b := t.headD '\x00'
    if key a ≠ key b then compare (key a) (key b)
    else if a = '\x00' then .eq
    else cmpBy key n s.tail t.tail

/-- `strncmp`. -/
def strncmp (n : Nat) (s t : List Char) : Ordering := cmpBy Char.toNat n s t

/-- `strncasecmp` in the C locale. -/
def strncasecmp (n : Nat) (s t : List Char) : Ordering := cmpBy (fun c => c.toLower.toNat) n s t

/-- What a comparison of `n` characters looks at. -/
def cut (n : Nat) (s : List Char) : List Char := (s.take n).takeWhile (· ≠ '\x00')

@[simp] theorem cut_zero (s : List Char) : cut 0 s = [] := by simp [cut]

/-- One character at a time. -/
theorem cut_succ (n : Nat) (s : List Char) :
    cut (n + 1) s = if s.headD '\x00' = '\x00' then [] else s.headD '\x00' :: cut n s.tail := by
  cases s with
  | nil => simp [cut]
  | cons a s => by_cases h : a = '\x00' <;> simp [cut, h]

/-- An array without a zero byte is looked at as a whole. -/
theorem cut_full {n : Nat} {s : List Char} (hl : s.length = n) (hs : '\x00' ∉ s) : cut n s = s := by
  rw [cut, ← hl, List.take_length, List.takeWhile_eq_self_iff]
  intro c hc
  exact decide_eq_true fun h => hs (h ▸ hc)

section

variable {key : Char → Nat} (hkey : ∀ c, key c = 0 ↔ c = '\x00')
include hkey

theorem cmpBy_eq (n : Nat) (s t : List Char) :
    cmpBy key n s t = .eq ↔ (cut n s).map key = (cut n t).map key := by
  induction n generalizing s t with
  | zero => simp [cmpBy]
  | succ n ih =>
    rw [cmpBy, cut_succ, cut_succ]
    generalize s.headD '\x00' = a
    generalize t.headD '\x00' = b
    by_cases hk : key a = key b
    · by_cases ha : a = '\x00'
      · have hb : b = '\x00' := by rw [← hkey, ← hk, hkey, ha]
        simp [ha, hb]
      · have hb : b ≠ '\x00' := by rw [ne_eq, ← hkey, ← hk, hkey]; exact ha
        simp [hk, ha, hb, ih]
    · have hne : compare (key a) (key b) ≠ .eq := by simpa using hk
      by_cases ha : a = '\x00' <;> by_cases hb : b = '\x00' <;> simp_all

theorem cmpBy_lt (n : Nat) (s t : List Char) :
    cmpBy key n s t = .lt ↔ (cut n s).map key < (cut n t).map key := by
  induction n generalizing s t with
  | zero => simp [cmpBy]
  | succ n ih =>
    rw [cmpBy, cut_succ, cut_succ]
    generalize s.headD '\x00' = a
    generalize t.headD '\x00' = b
    by_cases hk : key a = key b
    · by_cases ha : a = '\x00'
      · have hb : b = '\x00' := by rw [← hkey, ← hk, hkey, ha]
        simp [ha, hb]
      · have hb : b ≠ '\x00' := by rw [ne_eq, ← hkey, ← hk, hkey]; exact ha
        simp [hk, ha, hb, ih]
    · have h0 : key '\x00' = 0 := (hkey _).mpr rfl
      rw [if_pos hk, Nat.compare_eq_lt]
      by_cases ha : a = '\x00'
      · have hb : b ≠ '\x00' := fun hb => hk (by rw [ha, hb])
        have hpos : key b ≠ 0 := (hkey b).not.mpr hb
        simp [ha, hb, h0, Nat.pos_of_ne_zero hpos]
      · by_cases hb : b = '\x00'
        · simp [ha, hb, h0]
        · simp [ha, hb, hk, List.cons_lt_cons_iff]

/-- The comparison is a total preorder: that of the lists of keys. -/
theorem cmpBy_ne_gt (n : Nat) (s t : List Char) :
    cmpBy key n s t ≠ .gt ↔ (cut n s).map key ≤ (cut n t).map key := by
  rw [le_iff_lt_or_eq, ← cmpBy_lt hkey, ← cmpBy_eq hkey]
  cases cmpBy key n s t <;> simp

end

/-! ## `strncmp` -/

theorem toNat_eq_zero (c : Char) : c.toNat = 0 ↔ c = '\x00' := by
  rw [← Char.toNat_inj]; rfl

/-- Only an array itself compares equal to one without a zero byte. -/
theorem strncmp_eq {n : Nat} {s t : List Char} (hs : s.length = n) (ht : t.length = n) (hs0 : '\x00' ∉ s) :
    strncmp n s t = .eq ↔ s = t := by
  rw [strncmp, cmpBy_eq toNat_eq_zero, cut_full hs hs0,
    (List.map_injective_iff.mpr fun _ _ => Char.toNat_inj.mp).eq_iff]
  constructor
  · intro h
    have hcut : cut n t <+: t := by
      rw [cut, ← ht, List.take_length]
      exact List.takeWhile_prefix _
    exact h.trans (hcut.eq_of_length (by rw [← h, hs, ht]))
  · rintro rfl
    exact (cut_full hs hs0).symm

theorem strncmp_self (n : Nat) (s : List Char) : strncmp n s s = .eq := (cmpBy_eq toNat_eq_zero n s s).mpr rfl

theorem strncmp_trans {n : Nat} {s t u : List Char} (h1 : strncmp n s t ≠ .gt) (h2 : strncmp n t u ≠ .gt) :
    strncmp n s u ≠ .gt := by
  rw [strncmp, cmpBy_ne_gt toNat_eq_zero] at *
  exact le_trans h1 h2

theorem strncmp_total (n : Nat) (s t : List Char) : strncmp n s t ≠ .gt ∨ strncmp n t s ≠ .gt := by
  rw [strncmp, strncmp, cmpBy_ne_gt toNat_eq_zero, cmpBy_ne_gt toNat_eq_zero]
  exact le_total _ _

theorem strncmp_lt {n : Nat} {s t : List Char} (h : strncmp n s t ≠ .gt) (hne : strncmp n s t ≠ .eq) :
    strncmp n s t = .lt := by
  cases hc : strncmp n s t with
  | lt => rfl
  | eq => exact absurd hc hne
  | gt => exact absurd hc h

theorem strncmp_antisymm {n : Nat} {s t : List Char} (h1 : strncmp n s t ≠ .gt) (h2 : strncmp n t s ≠ .gt) :
    strncmp n s t = .eq := by
  rw [strncmp, cmpBy_ne_gt toNat_eq_zero] at h1 h2
  rw [strncmp, cmpBy_eq toNat_eq_zero]
  exact le_antisymm h1 h2

/-! ## `strncasecmp` -/

theorem toLower_eq_nul (c : Char) : c.toLower = '\x00' ↔ c = '\x00' := by
  unfold Char.toLower
  split
  · -- an upper-case letter and its lower-case one
    rename_i h
    have hlow : 65 ≤ c.val.toNat := UInt32.le_iff_toNat_le.1 h.1
    have hhigh : c.val.toNat ≤ 90 := UInt32.le_iff_toNat_le.1 h.2
    have hsum : (c.val + ('a'.val - 'A'.val)).toNat = c.val.toNat + 32 := by
      have hdiff : ('a'.val - 'A'.val).toNat = 32 := by decide
      rw [UInt32.toNat_add, hdiff]
      omega
    constructor
    · intro he
      have hzero : (c.val + ('a'.val - 'A'.val)).toNat = 0 := congrArg (fun d : Char => d.val.toNat) he
      omega
    · rintro rfl
      exact absurd hlow (by decide)
  · rfl

theorem strncasecmp_eq (n : Nat) (s t : List Char) :
    strncasecmp n s t = .eq ↔ (cut n s).map Char.toLower = (cut n t).map Char.toLower := by
  have hkey : ∀ c : Char, c.toLower.toNat = 0 ↔ c = '\x00' := fun c => (toNat_eq_zero _).trans (toLower_eq_nul c)
  rw [strncasecmp, cmpBy_eq hkey]
  have hmap : ∀ l : List Char, l.map (fun c => c.toLower.toNat) = (l.map Char.toLower).map Char.toNat :=
    fun l => by rw [List.map_map]; rfl
  rw [hmap, hmap]
  exact (List.map_injective_iff.mpr fun _ _ => Char.toNat_inj.mp).eq_iff

theorem cut_map {f : Char → Char} (hf : ∀ c, f c = '\x00' ↔ c = '\x00') (n : Nat) (s : List Char) :
    cut n (s.map f) = (cut n s).map f := by
  rw [cut, cut, ← List.map_take, List.takeWhile_map]
  congr 2
  funext c
  simp [hf]

/-- An array is what a comparison looks at, and the rest from the first zero byte on. -/
theorem cut_append_drop {n : Nat} {s : List Char} (hs : s.length = n) : cut n s ++ s.drop (cut n s).length = s := by
  rw [cut, ← hs, List.take_length]
  exact List.prefix_iff_eq_append.1 (List.takeWhile_prefix _)

/-- Arrays agree but for case when they do up to the first zero byte, and behind it. -/
theorem map_toLower_eq_iff {n : Nat} {s t : List Char} (hs : s.length = n) (ht : t.length = n) :
    s.map Char.toLower = t.map Char.toLower ↔ strncasecmp n s t = .eq ∧
      (s.drop (cut n t).length).map Char.toLower = (t.drop (cut n t).length).map Char.toLower := by
  rw [strncasecmp_eq]
  constructor
  · intro h
    refine ⟨?_, ?_⟩
    · rw [← cut_map toLower_eq_nul, ← cut_map toLower_eq_nul, h]
    · rw [List.map_drop, List.map_drop, h]
  · rintro ⟨hcut, hdrop⟩
    have hlen : (cut n s).length = (cut n t).length := by
      have := congrArg List.length hcut
      rwa [List.length_map, List.length_map] at this
    rw [← cut_append_drop hs, ← cut_append_drop ht, List.map_append, List.map_append, hcut, hlen, hdrop]

end CString
