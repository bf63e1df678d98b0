/-
The order of the scores of the merge (sm.c `get_partition_score`): three numbers packed into one of 64 bits
compare as the triple does, weight first, and a partition scores less than any larger one
(`partition_score_order`). Each of the lower numbers is less than the factor of the next, so none carries over.
-/
import Mathlib.Data.Finset.Max
import Mathlib.Data.Prod.Lex
import Xha.Sm.Partition

namespace Xha

/-! ## Packed numbers -/

/-- Two digits compare as the first ones do, and if these are equal as the second ones. -/
theorem mul_add_lt_iff {r a b x y : Nat} (hx : x < r) (hy : y < r) :
    a * r + x < b * r + y ↔ a < b ∨ a = b ∧ x < y := by
  constructor
  · intro h
    rcases Nat.lt_trichotomy a b with hlt | rfl | hgt
    · exact .inl hlt
    · exact .inr ⟨rfl, by omega⟩
    · have hle : (b + 1) * r ≤ a * r := Nat.mul_le_mul_right r hgt
      rw [Nat.add_mul, Nat.one_mul] at hle
      omega
  · rintro (hlt | ⟨rfl, hlt⟩)
    · have hle : (a + 1) * r ≤ b * r := Nat.mul_le_mul_right r hlt
      rw [Nat.add_mul, Nat.one_mul] at hle
      omega
    · exact Nat.add_lt_add_left hlt _

theorem toInt_ofNat_small {m : Nat} (h : m < 2 ^ 63) : (BitVec.ofNat 64 m).toInt = m := by
  rw [BitVec.toInt_eq_toNat_cond, BitVec.toNat_ofNat, Nat.mod_eq_of_lt (by omega), if_pos (by omega)]

theorem saddOverflow_small {a b : Nat} (h : a + b < 2 ^ 63) :
    (BitVec.ofNat 64 a).saddOverflow (BitVec.ofNat 64 b) = false := by
  rw [BitVec.saddOverflow, toInt_ofNat_small (by omega), toInt_ofNat_small (by omega), Bool.or_eq_false_iff,
    decide_eq_false_iff_not, decide_eq_false_iff_not]
  omega

theorem smulOverflow_small {a b : Nat} (ha : a < 2 ^ 63) (hb : b < 2 ^ 63) (h : a * b < 2 ^ 63) :
    (BitVec.ofNat 64 a).smulOverflow (BitVec.ofNat 64 b) = false := by
  rw [BitVec.smulOverflow, toInt_ofNat_small ha, toInt_ofNat_small hb, Bool.or_eq_false_iff, decide_eq_false_iff_not,
    decide_eq_false_iff_not]
  have hcast : (a : Int) * b = ((a * b : Nat) : Int) := (Int.natCast_mul a b).symm
  rw [hcast]
  omega

/-! ## What a score says -/

/-- 64 minus the smallest index; nothing for no host. -/
def smallestIndexScore (s : Finset Nat) : Nat := if h : s.Nonempty then maxHostNum - s.min' h else 0

theorem smallestIndexScore_eq (s : Finset Nat) : smallestIndexScore s = s.sup fun i => maxHostNum - i := by
  unfold smallestIndexScore
  split
  · rename_i h
    apply le_antisymm
    · exact Finset.le_sup (f := fun i => maxHostNum - i) (s.min'_mem h)
    · exact Finset.sup_le fun i hi => Nat.sub_le_sub_left (s.min'_le i hi) _
  · rename_i h
    rw [Finset.not_nonempty_iff_eq_empty.1 h, Finset.sup_empty]
    rfl

/-- The triple that a score stands for: total weight, number of hosts, 64 minus the smallest index. -/
def scoreKey (weight : Nat → MtcU32) (s : Finset Nat) : ℕ ×ₗ ℕ ×ₗ ℕ :=
  toLex (∑ i ∈ s, (weight i).toNat, toLex (s.card, smallestIndexScore s))

/-- The scores of sets of configured hosts are in the lexicographic order of the triples. -/
theorem scoreOfHosts_lt_iff {n : Nat} (hn : n ≤ maxHostNum) (weight : Nat → MtcU32) {s t : Finset Nat}
    (hs : s ⊆ Finset.range n) (ht : t ⊆ Finset.range n) :
    scoreOfHosts weight s < scoreOfHosts weight t ↔ scoreKey weight s < scoreKey weight t := by
  obtain ⟨-, hcards, hsups⟩ := score_parts_le hn weight hs
  obtain ⟨-, hcardt, hsupt⟩ := score_parts_le hn weight ht
  have hpack : ∀ u, scoreOfHosts weight u =
      (∑ i ∈ u, (weight i).toNat) * 0x10000 + (u.card * 0x100 + u.sup fun i => maxHostNum - i) :=
    fun u => Nat.add_assoc ..
  unfold maxHostNum at hcards hcardt hsups hsupt
  rw [hpack, hpack, mul_add_lt_iff (by unfold maxHostNum; omega) (by unfold maxHostNum; omega),
    mul_add_lt_iff (by unfold maxHostNum; omega) (by unfold maxHostNum; omega)]
  rw [scoreKey, scoreKey, Prod.Lex.toLex_lt_toLex, Prod.Lex.toLex_lt_toLex, smallestIndexScore_eq, smallestIndexScore_eq]

/-! ## No overflow -/

/-- No operation of `get_partition_score` overflows: the additions of a turn for a host that is on, and the
operations that put the sums together. -/
structure ScoreExact (n : Nat) (b : HostMap) (weight : Nat → MtcU32) : Prop where
  addWeight : ∀ k < n, b.isOn (n - 1 - k) = true →
    (scoreSums n b weight k).weightScore.saddOverflow ((weight (n - 1 - k)).setWidth 64) = false
  addSize : ∀ k < n, b.isOn (n - 1 - k) = true → (scoreSums n b weight k).sizeScore.saddOverflow 1 = false
  weightShift : (scoreSums n b weight n).weightScore.smulOverflow 0x10000 = false
  sizeShift : (scoreSums n b weight n).sizeScore.smulOverflow 0x100 = false
  upper : ((scoreSums n b weight n).weightScore * 0x10000).saddOverflow
    ((scoreSums n b weight n).sizeScore * 0x100) = false
  whole : ((scoreSums n b weight n).weightScore * 0x10000 + (scoreSums n b weight n).sizeScore * 0x100).saddOverflow
    (scoreSums n b weight n).indexScore = false

theorem lastHosts_subset_range (n : Nat) (b : HostMap) (k : Nat) : lastHosts n b k ⊆ Finset.range n :=
  (Finset.filter_subset ..).trans (hosts_subset_range n b)

theorem scoreExact {n : Nat} (hn : n ≤ maxHostNum) (b : HostMap) (weight : Nat → MtcU32) : ScoreExact n b weight := by
  have hbound : ∀ k, ∑ i ∈ lastHosts n b k, (weight i).toNat ≤ 2 ^ 38 ∧ (lastHosts n b k).card ≤ 64 ∧
      ((lastHosts n b k).sup fun i => maxHostNum - i) ≤ 64 :=
    fun k => score_parts_le hn weight (lastHosts_subset_range n b k)
  obtain ⟨hsum, hcard, hsup⟩ := hbound n
  refine ⟨fun k hk _ => ?_, fun k hk _ => ?_, ?_, ?_, ?_, ?_⟩
  · obtain ⟨hsum, -, -⟩ := hbound k
    have hlt := (weight (n - 1 - k)).isLt
    have hw : (weight (n - 1 - k)).setWidth 64 = BitVec.ofNat 64 (weight (n - 1 - k)).toNat := by
      apply BitVec.eq_of_toNat_eq
      simp
    rw [scoreSums_eq hk.le, hw]
    exact saddOverflow_small (by omega)
  · obtain ⟨-, hcard, -⟩ := hbound k
    rw [scoreSums_eq hk.le]
    exact saddOverflow_small (b := 1) (by omega)
  all_goals rw [scoreSums_eq le_rfl]
  · exact smulOverflow_small (b := 0x10000) (by omega) (by omega) (by omega)
  · exact smulOverflow_small (b := 0x100) (by omega) (by omega) (by omega)
  · have h := saddOverflow_small (a := (∑ i ∈ lastHosts n b n, (weight i).toNat) * 0x10000)
      (b := (lastHosts n b n).card * 0x100) (by omega)
    rwa [BitVec.ofNat_mul, BitVec.ofNat_mul] at h
  · have h := saddOverflow_small (a := (∑ i ∈ lastHosts n b n, (weight i).toNat) * 0x10000 +
      (lastHosts n b n).card * 0x100) (b := (lastHosts n b n).sup fun i => maxHostNum - i) (by omega)
    rwa [BitVec.ofNat_add, BitVec.ofNat_mul, BitVec.ofNat_mul] at h

/-! ## The order of the scores -/

/-- The scores of two sets of configured hosts are exact and compare as weight, size and smallest index do, and a
larger set scores more. -/
theorem partition_score_order (c : HaConfig) (weight : Nat → MtcU32) (a b : HostMap) :
    ScoreExact c.hostnum a weight ∧
      ((getPartitionScore c.hostnum a weight).toInt : Int) = (∑ i ∈ a.hosts c.hostnum, (weight i).toNat) * 0x10000 +
        (a.hosts c.hostnum).card * 0x100 + smallestIndexScore (a.hosts c.hostnum) ∧
      ((getPartitionScore c.hostnum a weight).slt (getPartitionScore c.hostnum b weight) = true ↔
        scoreKey weight (a.hosts c.hostnum) < scoreKey weight (b.hosts c.hostnum)) ∧
      (a.hosts c.hostnum ⊂ b.hosts c.hostnum →
        (getPartitionScore c.hostnum a weight).slt (getPartitionScore c.hostnum b weight) = true) := by
  have hn := c.hostnum_le
  have hslt : (getPartitionScore c.hostnum a weight).slt (getPartitionScore c.hostnum b weight) = true ↔
      scoreOfHosts weight (a.hosts c.hostnum) < scoreOfHosts weight (b.hosts c.hostnum) := by
    rw [BitVec.slt_iff_toInt_lt, getPartitionScore_toInt hn, getPartitionScore_toInt hn, Int.ofNat_lt]
  refine ⟨scoreExact hn a weight, ?_, ?_, fun hsub => ?_⟩
  · rw [getPartitionScore_toInt hn, scoreOfHosts, smallestIndexScore_eq]
    push_cast
    rfl
  · rw [hslt]
    exact scoreOfHosts_lt_iff hn weight (hosts_subset_range ..) (hosts_subset_range ..)
  · rw [hslt]
    exact scoreOfHosts_lt hsub

end Xha
