/-
Values laid out as a fixed number of units, as the fields of a structure are in memory: numbers in little-endian
order, arrays, one field after the other, and structures by their tuples of fields.
-/
import Mathlib.Data.Vector.Basic
import Mathlib.Logic.Equiv.Defs
import Mathlib.Tactic.Ring
import Xha.Lib.Region

/-- How the values of a type are laid out as `size` units, any of which are the layout of a value. -/
structure Layout (ω α : Type) where
  size : Nat
  encode : α → List ω
  decode : List ω → α
  length_encode : ∀ a, (encode a).length = size
  decode_encode : ∀ a, decode (encode a) = a
  encode_decode : ∀ l, l.length = size → encode (decode l) = l

namespace Layout

variable {ω α β : Type}

/-- One value behind the other. -/
def prod (L : Layout ω α) (M : Layout ω β) : Layout ω (α × β) where
  size := L.size + M.size
  encode p := L.encode p.1 ++ M.encode p.2
  decode l := (L.decode (l.take L.size), M.decode (l.drop L.size))
  length_encode p := by rw [List.length_append, L.length_encode, M.length_encode]
  decode_encode p := by
    rw [← L.length_encode p.1, List.take_left, List.drop_left, L.decode_encode, M.decode_encode]
  encode_decode l h := by
    dsimp only
    rw [L.encode_decode _ (by rw [List.length_take]; omega), M.encode_decode _ (by rw [List.length_drop]; omega),
      List.take_append_drop]

theorem prod_decode_append (L : Layout ω α) (M : Layout ω β) {l : List ω} (h : l.length = L.size) (r : List ω) :
    (L.prod M).decode (l ++ r) = (L.decode l, M.decode r) := by
  have hdecode : (L.prod M).decode (l ++ r) = (L.decode ((l ++ r).take L.size), M.decode ((l ++ r).drop L.size)) := rfl
  rw [hdecode, ← h, List.take_left, List.drop_left]

/-- The same layout for a type that corresponds to another one. -/
def map (L : Layout ω α) (e : α ≃ β) : Layout ω β where
  size := L.size
  encode b := L.encode (e.symm b)
  decode l := e (L.decode l)
  length_encode b := L.length_encode _
  decode_encode b := by rw [L.decode_encode, e.apply_symm_apply]
  encode_decode l h := by rw [e.symm_apply_apply, L.encode_decode l h]

/-- One unit. -/
def single [Inhabited ω] : Layout ω ω where
  size := 1
  encode a := [a]
  decode l := l.headD default
  length_encode _ := rfl
  decode_encode _ := rfl
  encode_decode l h := by
    obtain ⟨a, rfl⟩ := List.length_eq_one_iff.1 h
    rfl

/-! ## Arrays -/

/-- The elements of an array. -/
def encodeArray (L : Layout ω α) (l : List α) : List ω := l.flatMap L.encode

def decodeArray (L : Layout ω α) : Nat → List ω → List α
  | 0, _ => []
  | n + 1, l => L.decode (l.take L.size) :: decodeArray L n (l.drop L.size)

theorem encodeArray_append (L : Layout ω α) (l m : List α) :
    L.encodeArray (l ++ m) = L.encodeArray l ++ L.encodeArray m := List.flatMap_append

theorem encodeArray_cons (L : Layout ω α) (a : α) (l : List α) :
    L.encodeArray (a :: l) = L.encode a ++ L.encodeArray l := List.flatMap_cons

theorem length_encodeArray (L : Layout ω α) (l : List α) : (L.encodeArray l).length = l.length * L.size := by
  induction l with
  | nil => simp [encodeArray]
  | cons a l ih =>
    rw [encodeArray_cons, List.length_append, L.length_encode, ih, List.length_cons]
    ring

theorem length_decodeArray (L : Layout ω α) (n : Nat) (l : List ω) : (L.decodeArray n l).length = n := by
  induction n generalizing l with
  | zero => rfl
  | succ n ih => rw [decodeArray, List.length_cons, ih]

theorem decodeArray_encodeArray (L : Layout ω α) (l : List α) (rest : List ω) :
    L.decodeArray l.length (L.encodeArray l ++ rest) = l := by
  induction l with
  | nil => rfl
  | cons a l ih =>
    rw [encodeArray_cons, List.append_assoc, List.length_cons, decodeArray, ← L.length_encode a, List.take_left,
      List.drop_left, L.decode_encode, ih]

theorem encodeArray_decodeArray (L : Layout ω α) (n : Nat) (l : List ω) (h : l.length = n * L.size) :
    L.encodeArray (L.decodeArray n l) = l := by
  induction n generalizing l with
  | zero =>
    rw [Nat.zero_mul] at h
    exact (List.length_eq_zero_iff.1 h).symm
  | succ n ih =>
    have hsize : l.length = L.size + n * L.size := by rw [h]; ring
    have htake : (l.take L.size).length = L.size := by
      rw [List.length_take]
      omega
    have hdrop : (l.drop L.size).length = n * L.size := by
      rw [List.length_drop]
      omega
    rw [decodeArray, encodeArray_cons, ih _ hdrop, L.encode_decode _ htake, List.take_append_drop]

/-- Another value in one place of an array. -/
theorem encodeArray_set (L : Layout ω α) {l : List α} {i : Nat} (hi : i < l.length) (a : α) :
    L.encodeArray (l.set i a) = Region.patch (L.encodeArray l) (i * L.size) (L.encode a) := by
  have hfront : (L.encodeArray (l.take i)).length = i * L.size := by
    rw [length_encodeArray, List.length_take_of_le hi.le]
  have hsplit : L.encodeArray l = L.encodeArray (l.take i) ++ (L.encode l[i] ++ L.encodeArray (l.drop (i + 1))) := by
    rw [← encodeArray_cons, ← encodeArray_append, ← List.drop_eq_getElem_cons hi, List.take_append_drop]
  rw [List.set_eq_take_append_cons_drop, if_pos hi, encodeArray_append, encodeArray_cons, hsplit, ← hfront,
    Region.patch_append _ _ _ (by rw [L.length_encode, L.length_encode])]

theorem slice_encodeArray (L : Layout ω α) {l : List α} {i : Nat} (hi : i < l.length) :
    Region.slice (L.encodeArray l) (i * L.size) L.size = L.encode l[i] := by
  have hset := L.encodeArray_set hi l[i]
  have hpos : i * L.size ≤ (L.encodeArray l).length := by
    rw [length_encodeArray]
    exact Nat.mul_le_mul_right _ hi.le
  have hslice : Region.slice (Region.patch (L.encodeArray l) (i * L.size) (L.encode l[i])) (i * L.size) (L.encode l[i]).length =
      L.encode l[i] := Region.slice_patch hpos
  rwa [← hset, List.set_getElem_self, L.length_encode] at hslice

/-- An array of `n` values. -/
def array (L : Layout ω α) (n : Nat) : Layout ω (List.Vector α n) where
  size := n * L.size
  encode v := L.encodeArray v.1
  decode l := ⟨L.decodeArray n l, L.length_decodeArray n l⟩
  length_encode v := by rw [length_encodeArray, v.2]
  decode_encode v := by
    have h := L.decodeArray_encodeArray v.1 []
    rw [v.2, List.append_nil] at h
    exact Subtype.ext h
  encode_decode l h := L.encodeArray_decodeArray n l h

/-! ## Numbers -/

/-- The digits of a number to the base 256, the lowest one first. -/
def digits : Nat → Nat → List (BitVec 8)
  | 0, _ => []
  | n + 1, v => BitVec.ofNat 8 v :: digits n (v / 256)

def ofDigits (l : List (BitVec 8)) : Nat := l.foldr (fun b v => b.toNat + 256 * v) 0

theorem length_digits (n v : Nat) : (digits n v).length = n := by
  induction n generalizing v with
  | zero => rfl
  | succ n ih => rw [digits, List.length_cons, ih]

theorem ofDigits_digits (n v : Nat) : ofDigits (digits n v) = v % 256 ^ n := by
  induction n generalizing v with
  | zero => rw [Nat.pow_zero, Nat.mod_one]; rfl
  | succ n ih =>
    have hfold : ofDigits (digits (n + 1) v) = v % 2 ^ 8 + 256 * ofDigits (digits n (v / 256)) := rfl
    have hpow : 256 ^ (n + 1) = 256 * 256 ^ n := Nat.pow_succ'
    rw [hfold, ih, hpow]
    exact Nat.mod_mul.symm

theorem digits_ofDigits (l : List (BitVec 8)) : digits l.length (ofDigits l) = l := by
  induction l with
  | nil => rfl
  | cons b l ih =>
    have hb : b.toNat < 256 := b.isLt
    have hfold : ofDigits (b :: l) = b.toNat + 256 * ofDigits l := rfl
    have hdiv : ofDigits (b :: l) / 256 = ofDigits l := by omega
    rw [List.length_cons, digits, hdiv, ih, hfold]
    congr 1
    apply BitVec.eq_of_toNat_eq
    rw [BitVec.toNat_ofNat]
    omega

theorem ofDigits_lt (l : List (BitVec 8)) : ofDigits l < 256 ^ l.length := by
  induction l with
  | nil => exact Nat.one_pos
  | cons b l ih =>
    have hb : b.toNat < 256 := b.isLt
    have hfold : ofDigits (b :: l) = b.toNat + 256 * ofDigits l := rfl
    rw [hfold, List.length_cons, Nat.pow_succ']
    omega

/-- A word of `n` bytes, the lowest one first. -/
def littleEndian (n w : Nat) (hw : 2 ^ w = 256 ^ n) : Layout (BitVec 8) (BitVec w) where
  size := n
  encode x := digits n x.toNat
  decode l := BitVec.ofNat w (ofDigits l)
  length_encode x := length_digits ..
  decode_encode x := by
    rw [ofDigits_digits, ← hw, Nat.mod_eq_of_lt x.isLt, BitVec.ofNat_toNat, BitVec.setWidth_eq]
  encode_decode l h := by
    rw [BitVec.toNat_ofNat, hw, ← h, Nat.mod_eq_of_lt (ofDigits_lt l), digits_ofDigits]

end Layout
