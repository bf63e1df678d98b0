/-
`MTC_HOSTMAP` (sm.h): a bitmap with one bit a host, `MAX_HOST_NUM` bits in two 32-bit words, and the
macros on it. Hosts below `hostnum` are configured; the bits above are never meant to be set, but the
code compares and copies whole words, so the model keeps all 64.
-/
import Mathlib.Data.Finset.Basic
import Mathlib.Data.Finset.Filter
import Mathlib.Data.Finset.Range
import Xha.Lib.Loop

namespace Xha

open Loop

/-- `MAX_HOST_NUM` (xha.h). -/
def maxHostNum : Nat := 64

/-- `MTC_HOSTMAP`. -/
abbrev HostMap := BitVec maxHostNum

namespace HostMap

/-- `MTC_HOSTMAP_ISON`. -/
def isOn (b : HostMap) (i : Nat) : Bool := b.getLsbD i

/-- `MTC_HOSTMAP_SET`. -/
def set (b : HostMap) (i : Nat) : HostMap := b ||| BitVec.twoPow maxHostNum i

/-- `MTC_HOSTMAP_RESET`. -/
def reset (b : HostMap) (i : Nat) : HostMap := b &&& ~~~ BitVec.twoPow maxHostNum i

/-- `MTC_HOSTMAP_SET_BOOLEAN`. -/
def setBoolean (b : HostMap) (i : Nat) (v : Bool) : HostMap := if v then b.set i else b.reset i

/-- `MTC_HOSTMAP_INIT_RESET`. -/
def empty : HostMap := 0

/-- `MTC_HOSTMAP_INIT_SET`. -/
def full : HostMap := ~~~ 0

/-- `MTC_HOSTMAP_SUBSETEQUAL`. -/
def subsetEqual (a b : HostMap) : Bool := (List.range maxHostNum).all fun i => !(a.isOn i && !b.isOn i)

/-- `MTC_HOSTMAP_DIFFERENCE`. -/
def diff (a b : HostMap) : HostMap := a &&& ~~~ b

/-- `MTC_HOSTMAP_MASK_UNCONFIG`. -/
def maskUnconfig (n : Nat) (b : HostMap) : HostMap :=
  forRange maxHostNum b fun b i => if i < n then b else b.reset i

/-! ## The bits of each operation -/

theorem ext {a b : HostMap} (h : ∀ i, a.isOn i = b.isOn i) : a = b :=
  BitVec.eq_of_getLsbD_eq fun i _ => h i

theorem lt_of_isOn {b : HostMap} {i : Nat} (h : b.isOn i = true) : i < maxHostNum :=
  BitVec.lt_of_getLsbD h

@[simp] theorem isOn_and (a b : HostMap) (i : Nat) : (a &&& b).isOn i = (a.isOn i && b.isOn i) :=
  BitVec.getLsbD_and ..

@[simp] theorem isOn_or (a b : HostMap) (i : Nat) : (a ||| b).isOn i = (a.isOn i || b.isOn i) :=
  BitVec.getLsbD_or ..

@[simp] theorem isOn_empty (i : Nat) : empty.isOn i = false := BitVec.getLsbD_zero ..

@[simp] theorem isOn_zero (i : Nat) : (0 : HostMap).isOn i = false := BitVec.getLsbD_zero ..

@[simp] theorem isOn_full (i : Nat) : full.isOn i = decide (i < maxHostNum) := by
  simp [isOn, full]

@[simp] theorem isOn_set (b : HostMap) (i j : Nat) :
    (b.set i).isOn j = (b.isOn j || decide (i = j ∧ j < maxHostNum)) := by
  simp only [set, isOn, BitVec.getLsbD_or, BitVec.getLsbD_twoPow]
  by_cases h : i = j
  · subst h; simp
  · simp [h]

@[simp] theorem isOn_reset (b : HostMap) (i j : Nat) : (b.reset i).isOn j = (b.isOn j && decide (i ≠ j)) := by
  by_cases hj : j < maxHostNum
  · by_cases h : i = j
    · subst h; simp [reset, isOn, hj]
    · simp only [reset, isOn, BitVec.getLsbD_and, BitVec.getLsbD_not, BitVec.getLsbD_twoPow]
      simp [hj, h]
  · have : b.isOn j = false := by
      cases h : b.isOn j
      · rfl
      · exact absurd (lt_of_isOn h) hj
    rw [this, Bool.false_and, reset, isOn_and, this, Bool.false_and]

@[simp] theorem isOn_diff (a b : HostMap) (i : Nat) : (a.diff b).isOn i = (a.isOn i && !b.isOn i) := by
  cases h : a.isOn i
  · rw [diff, isOn_and, h, Bool.false_and, Bool.false_and]
  · have hi := lt_of_isOn h
    simp only [isOn] at h
    simp [diff, isOn, hi, h]

theorem isOn_setBoolean (b : HostMap) (i j : Nat) (v : Bool) (hi : i < maxHostNum) :
    (b.setBoolean i v).isOn j = if i = j then v else b.isOn j := by
  unfold setBoolean
  by_cases h : i = j
  · subst h; cases v <;> simp [hi]
  · cases v <;> simp [h]

theorem isOn_maskUnconfig (n : Nat) (b : HostMap) (i : Nat) :
    (b.maskUnconfig n).isOn i = (b.isOn i && decide (i < n)) := by
  have key : ∀ m, (forRange m b fun b i => if i < n then b else b.reset i).isOn i =
      (b.isOn i && decide (i < n ∨ m ≤ i)) := by
    intro m
    induction m with
    | zero => simp
    | succ m ih =>
      rw [forRange_succ]
      by_cases hm : m < n
      · rw [if_pos hm, ih]
        congr 1
        have : (i < n ∨ m ≤ i) ↔ (i < n ∨ m + 1 ≤ i) := by omega
        simp only [this]
      · rw [if_neg hm, isOn_reset, ih, Bool.and_assoc]
        congr 1
        rw [← Bool.decide_and]
        have : ((i < n ∨ m ≤ i) ∧ m ≠ i) ↔ (i < n ∨ m + 1 ≤ i) := by omega
        simp only [this]
  rw [maskUnconfig, key]
  cases h : b.isOn i
  · simp
  · have := lt_of_isOn h
    congr 1
    have : (i < n ∨ maxHostNum ≤ i) ↔ i < n := by omega
    simp only [this]

attribute [simp] isOn_maskUnconfig

/-- A property of the hosts of a map needs checking for `MAX_HOST_NUM` hosts only. -/
theorem forall_isOn {b : HostMap} {p : Nat → Prop} (h : ∀ i < maxHostNum, b.isOn i = true → p i) :
    ∀ i, b.isOn i = true → p i :=
  fun i hi => h i (lt_of_isOn hi) hi

theorem subsetEqual_iff {a b : HostMap} : a.subsetEqual b = true ↔ ∀ i, a.isOn i = true → b.isOn i = true := by
  simp only [subsetEqual, List.all_eq_true, List.mem_range, Bool.not_eq_true', Bool.and_eq_false_imp,
    Bool.not_eq_false']
  exact ⟨fun h i hi => h i (lt_of_isOn hi) hi, fun h i _ hi => h i hi⟩

/-! ## The configured hosts of a map -/

/-- The configured hosts whose bit is on. -/
def hosts (n : Nat) (b : HostMap) : Finset Nat := (Finset.range n).filter fun i => b.isOn i = true

@[simp] theorem mem_hosts {n : Nat} {b : HostMap} {i : Nat} : i ∈ b.hosts n ↔ i < n ∧ b.isOn i = true := by
  simp [hosts]

@[simp] theorem hosts_maskUnconfig (n : Nat) (b : HostMap) : (b.maskUnconfig n).hosts n = b.hosts n := by
  ext i
  rw [mem_hosts, mem_hosts, isOn_maskUnconfig, Bool.and_eq_true, decide_eq_true_eq]
  tauto

end HostMap

end Xha
