/-
Words of a fixed width as integers: what a number becomes when it is stored in a word, and when it is read
back unchanged.
-/
import Mathlib.Algebra.Order.Ring.Int
import Mathlib.Data.Int.Basic

namespace Xha.Wrap

variable {w : Nat}

/-- A number is read back from a signed word exactly when it stays below the sign bit. -/
theorem toInt_ofNat_eq_iff (hw : 0 < w) (n : Nat) : (BitVec.ofNat w n).toInt = n ↔ n < 2 ^ (w - 1) := by
  constructor
  · intro h
    have hlt := BitVec.toInt_lt (x := BitVec.ofNat w n)
    rw [h] at hlt
    exact_mod_cast hlt
  · intro h
    have hpow : 2 ^ w = 2 * 2 ^ (w - 1) := by rw [← Nat.pow_succ', Nat.succ_eq_add_one, Nat.sub_add_cancel hw]
    rw [BitVec.toInt_eq_toNat_cond, BitVec.toNat_ofNat, Nat.mod_eq_of_lt (by omega), if_pos (by omega)]

/-! ## Integers as words -/

theorem ofInt_sub (x y : Int) : BitVec.ofInt w (x - y) = BitVec.ofInt w x - BitVec.ofInt w y := by
  rw [Int.sub_eq_add_neg, BitVec.ofInt_add, BitVec.ofInt_neg, BitVec.sub_eq_add_neg]

/-- What an unsigned word keeps of an integer. -/
theorem toNat_ofInt_eq_emod (i : Int) : ((BitVec.ofInt w i).toNat : Int) = i % 2 ^ w := by
  have hpos : (0 : Int) < 2 ^ w := Int.pow_pos (by omega)
  have hmod := Int.emod_nonneg i (ne_of_gt hpos)
  rw [BitVec.toNat_ofInt]
  push_cast
  omega

/-- An unsigned word in a wider one. -/
theorem setWidth_eq_ofInt (v : Nat) (x : BitVec w) : x.setWidth v = BitVec.ofInt v (x.toNat : Int) := by
  rw [BitVec.ofInt_natCast, BitVec.ofNat_toNat]

/-! ## Counters -/

/-- Adding a number leaves a word alone exactly when the number is a multiple of `2^w`. -/
theorem add_ofNat_eq_self_iff (x : BitVec w) (n : Nat) : x + BitVec.ofNat w n = x ↔ 2 ^ w ∣ n := by
  rw [BitVec.add_right_eq_self, ← BitVec.toNat_inj, BitVec.toNat_ofNat, BitVec.toNat_ofNat, Nat.zero_mod]
  exact (Nat.dvd_iff_mod_eq_zero).symm

end Xha.Wrap
