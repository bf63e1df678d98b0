/-
The weight of a partition (sm.c): `get_partition_size` for the vote, `get_partition_score` for the
merge, and the vote itself, `am_I_in_largest_partition`. Sizes are signed 32-bit and scores signed
64-bit as in the code; each is proven equal to a sum over the hosts of the partition.
-/
import Mathlib.Algebra.BigOperators.Group.Finset.Basic
import Mathlib.Algebra.Order.BigOperators.Group.Finset
import Mathlib.Data.Finset.Lattice.Fold
import Mathlib.Order.Lattice.Nat
import Mathlib.Tactic.Ring
import Xha.Com

namespace Xha

open Loop

/-- `is_empty_liveset`: no configured host is on. -/
def isEmptyLiveset (n : Nat) (liveset : HostMap) : Bool := (List.range n).all fun i => !liveset.isOn i

/-- `is_all_hosts_up`: every configured host is on. -/
def isAllHostsUp (n : Nat) (hostmap : HostMap) : Bool := (List.range n).all fun i => hostmap.isOn i

/-- `get_partition_size`: one and 256 times its weight for each host in both domains, in 32 bits (the
callers always pass a weight vector). -/
def getPartitionSize (n : Nat) (sfdomain hbdomain : HostMap) (weight : Nat → MtcU32) : BitVec 32 :=
  if isEmptyLiveset n sfdomain then 0
  else forRange n 0 fun size i =>
    if sfdomain.isOn i && hbdomain.isOn i then size + 1 + 0x100 * weight i else size

/-- The running sums of `get_partition_score`. -/
structure ScoreSums where
  sizeScore : BitVec 64
  indexScore : BitVec 64
  weightScore : BitVec 64

/-- `get_partition_score`: total weight, then the number of hosts, then the smallest index; the
hosts are visited from the last to the first. -/
def getPartitionScore (n : Nat) (hostmap : HostMap) (weight : Nat → MtcU32) : BitVec 64 :=
  let s := forRange n (⟨0, 0, 0⟩ : ScoreSums) fun s k =>
    let i := n - 1 - k
    if hostmap.isOn i then
      { sizeScore := s.sizeScore + 1
        indexScore := BitVec.ofNat 64 (maxHostNum - i)
        weightScore := s.weightScore + (weight i).setWidth 64 }
    else s
  s.weightScore * 0x10000 + s.sizeScore * 0x100 + s.indexScore

/-- The running sums of `get_partition_score` after `k` turns. -/
def scoreSums (n : Nat) (hostmap : HostMap) (weight : Nat → MtcU32) (k : Nat) : ScoreSums :=
  forRange k ⟨0, 0, 0⟩ fun s k =>
    let i := n - 1 - k
    if hostmap.isOn i then
      { sizeScore := s.sizeScore + 1
        indexScore := BitVec.ofNat 64 (maxHostNum - i)
        weightScore := s.weightScore + (weight i).setWidth 64 }
    else s

/-- The size `am_I_in_largest_partition` gives host `index`: nothing outside the local State-File
domain, the local domains for the local host, the State-File record for the others. -/
def partitionSizeAt (c : HaConfig) (phb : ComDataHb) (psf : ComDataSf) (weight : Nat → MtcU32) (index : Nat) :
    BitVec 32 :=
  if !psf.sfdomain.isOn index then 0
  else if index = c.myIndex then getPartitionSize c.hostnum psf.sfdomain phb.hbdomain weight
  else getPartitionSize c.hostnum (psf.raw index).sfdomain (psf.raw index).hbdomain weight

/-- The winner of a vote (`winner_index`, none for -1): the first host with the largest positive size. -/
def electWinner (n : Nat) (size : Nat → BitVec 32) : Option Nat :=
  (forRange n ((none, 0) : Option Nat × BitVec 32) fun w i =>
    if w.2.slt (size i) then (some i, size i) else w).1

/-- `am_I_in_largest_partition`: the local host is the winner, or it and the winner see each other
in all four domains. -/
def amIInLargestPartition (c : HaConfig) (phb : ComDataHb) (psf : ComDataSf) (weight : Nat → MtcU32) : Bool :=
  match electWinner c.hostnum (partitionSizeAt c phb psf weight) with
  | none => false
  | some w =>
    w = c.myIndex ||
      ((psf.raw w).sfdomain.isOn c.myIndex && (psf.raw w).hbdomain.isOn c.myIndex &&
        psf.sfdomain.isOn w && phb.hbdomain.isOn w)

/-! ## Empty and full livesets -/

theorem isEmptyLiveset_iff {n : Nat} {b : HostMap} : isEmptyLiveset n b = true ↔ ∀ i < n, b.isOn i = false := by
  simp [isEmptyLiveset]

theorem isEmptyLiveset_eq_false {n : Nat} {b : HostMap} :
    isEmptyLiveset n b = false ↔ ∃ i, i < n ∧ b.isOn i = true := by
  rw [← Bool.not_eq_true, isEmptyLiveset_iff]
  push Not
  simp only [ne_eq, Bool.not_eq_false]

theorem isAllHostsUp_iff {n : Nat} {b : HostMap} : isAllHostsUp n b = true ↔ ∀ i < n, b.isOn i = true := by
  simp [isAllHostsUp]

/-! ## The size of a partition -/

/-- What `get_partition_size` counts: one and 256 times the weight for every host of `s`. -/
def sizeOfHosts (weight : Nat → MtcU32) (s : Finset Nat) : Nat := ∑ i ∈ s, (1 + 0x100 * (weight i).toNat)

theorem sizeOfHosts_pos {weight : Nat → MtcU32} {s : Finset Nat} (h : s.Nonempty) : 0 < sizeOfHosts weight s :=
  Finset.sum_pos (fun _ _ => by omega) h

theorem sizeOfHosts_mono {weight : Nat → MtcU32} {s t : Finset Nat} (h : s ⊆ t) :
    sizeOfHosts weight s ≤ sizeOfHosts weight t :=
  Finset.sum_le_sum_of_subset h

/-- The hosts of a map below `n + 1`. -/
theorem hosts_succ (n : Nat) (b : HostMap) :
    b.hosts (n + 1) = if b.isOn n then insert n (b.hosts n) else b.hosts n := by
  ext i
  by_cases hn : b.isOn n = true
  · rw [if_pos hn, Finset.mem_insert, HostMap.mem_hosts, HostMap.mem_hosts]
    constructor
    · rintro ⟨h1, h2⟩
      rcases Nat.lt_succ_iff_lt_or_eq.1 h1 with h | h
      · exact .inr ⟨h, h2⟩
      · exact .inl h
    · rintro (rfl | ⟨h1, h2⟩)
      · exact ⟨by omega, hn⟩
      · exact ⟨by omega, h2⟩
  · rw [if_neg hn, HostMap.mem_hosts, HostMap.mem_hosts]
    constructor
    · rintro ⟨h1, h2⟩
      rcases Nat.lt_succ_iff_lt_or_eq.1 h1 with h | rfl
      · exact ⟨h, h2⟩
      · exact absurd h2 hn
    · rintro ⟨h1, h2⟩; exact ⟨by omega, h2⟩

theorem not_mem_hosts_self (n : Nat) (b : HostMap) : n ∉ b.hosts n := by simp

/-- `get_partition_size` is the sum over the hosts in both domains, modulo `2^32`. -/
theorem getPartitionSize_eq (n : Nat) (sfdomain hbdomain : HostMap) (weight : Nat → MtcU32) :
    getPartitionSize n sfdomain hbdomain weight =
      BitVec.ofNat 32 (sizeOfHosts weight ((sfdomain &&& hbdomain).hosts n)) := by
  have loop : ∀ m, forRange m (0 : BitVec 32) (fun size i =>
      if sfdomain.isOn i && hbdomain.isOn i then size + 1 + 0x100 * weight i else size) =
      BitVec.ofNat 32 (sizeOfHosts weight ((sfdomain &&& hbdomain).hosts m)) := by
    intro m
    induction m with
    | zero => simp [sizeOfHosts, HostMap.hosts]
    | succ m ih =>
      rw [forRange_succ, ih, hosts_succ, HostMap.isOn_and]
      split
      · unfold sizeOfHosts
        rw [Finset.sum_insert (not_mem_hosts_self m _)]
        apply BitVec.eq_of_toNat_eq
        simp only [BitVec.ofNat_eq_ofNat, BitVec.toNat_add, BitVec.toNat_mul, BitVec.toNat_ofNat]
        omega
      · rfl
  unfold getPartitionSize
  split
  · rename_i he
    have hs : (sfdomain &&& hbdomain).hosts n = ∅ := by
      refine Finset.eq_empty_of_forall_notMem fun i hi => ?_
      obtain ⟨h1, h2⟩ := HostMap.mem_hosts.1 hi
      rw [HostMap.isOn_and, isEmptyLiveset_iff.1 he i h1] at h2
      simp at h2
    simp [hs, sizeOfHosts]
  · exact loop n

/-- Without overflow, `get_partition_size` is the sum itself. -/
theorem getPartitionSize_toInt {n : Nat} {sfdomain hbdomain : HostMap} {weight : Nat → MtcU32}
    (h : sizeOfHosts weight ((sfdomain &&& hbdomain).hosts n) < 2 ^ 31) :
    (getPartitionSize n sfdomain hbdomain weight).toInt = sizeOfHosts weight ((sfdomain &&& hbdomain).hosts n) := by
  rw [getPartitionSize_eq, BitVec.toInt_eq_toNat_cond, BitVec.toNat_ofNat]
  have h1 : sizeOfHosts weight ((sfdomain &&& hbdomain).hosts n) % 2 ^ 32 =
      sizeOfHosts weight ((sfdomain &&& hbdomain).hosts n) := Nat.mod_eq_of_lt (by omega)
  rw [h1, if_pos (by omega)]

/-! ## The score of a partition -/

/-- What `get_partition_score` computes: total weight, number of hosts and `64 - smallest index`,
the first the most significant. -/
def scoreOfHosts (weight : Nat → MtcU32) (s : Finset Nat) : Nat :=
  (∑ i ∈ s, (weight i).toNat) * 0x10000 + s.card * 0x100 + s.sup fun i => maxHostNum - i

/-- Adding a host raises the score, even a host of weight zero. -/
theorem scoreOfHosts_lt {weight : Nat → MtcU32} {s t : Finset Nat} (h : s ⊂ t) :
    scoreOfHosts weight s < scoreOfHosts weight t := by
  have h1 : ∑ i ∈ s, (weight i).toNat ≤ ∑ i ∈ t, (weight i).toNat := Finset.sum_le_sum_of_subset h.1
  have h2 : s.card < t.card := Finset.card_lt_card h
  have h3 : (s.sup fun i => maxHostNum - i) ≤ t.sup fun i => maxHostNum - i := Finset.sup_mono h.1
  unfold scoreOfHosts
  omega

/-- The hosts visited in the first `k` turns: those from `n - k` on. -/
def lastHosts (n : Nat) (b : HostMap) (k : Nat) : Finset Nat := (b.hosts n).filter fun i => n - k ≤ i

theorem lastHosts_succ {n k : Nat} (b : HostMap) (hk : k < n) :
    lastHosts n b (k + 1) =
      if b.isOn (n - 1 - k) then insert (n - 1 - k) (lastHosts n b k) else lastHosts n b k := by
  ext i
  by_cases hon : b.isOn (n - 1 - k) = true
  · rw [if_pos hon]
    simp only [lastHosts, Finset.mem_filter, HostMap.mem_hosts, Finset.mem_insert]
    constructor
    · rintro ⟨⟨h1, h2⟩, h3⟩
      by_cases hi : i = n - 1 - k
      · exact .inl hi
      · exact .inr ⟨⟨h1, h2⟩, by omega⟩
    · rintro (rfl | ⟨⟨h1, h2⟩, h3⟩)
      · exact ⟨⟨by omega, hon⟩, by omega⟩
      · exact ⟨⟨h1, h2⟩, by omega⟩
  · rw [if_neg hon]
    simp only [lastHosts, Finset.mem_filter, HostMap.mem_hosts]
    constructor
    · rintro ⟨⟨h1, h2⟩, h3⟩
      by_cases hi : i = n - 1 - k
      · subst hi; exact absurd h2 hon
      · exact ⟨⟨h1, h2⟩, by omega⟩
    · rintro ⟨⟨h1, h2⟩, h3⟩
      exact ⟨⟨h1, h2⟩, by omega⟩

/-- A host below all hosts of `s` decides the index part of the score. -/
theorem sup_insert_index {s : Finset Nat} {i : Nat} (h : ∀ j ∈ s, i ≤ j) :
    (insert i s).sup (fun j => maxHostNum - j) = maxHostNum - i := by
  rw [Finset.sup_insert]
  apply sup_eq_left.2
  exact Finset.sup_le fun j hj => by have := h j hj; omega

/-- The running sums are those of the hosts visited. -/
theorem scoreSums_eq {n k : Nat} (hk : k ≤ n) (b : HostMap) (weight : Nat → MtcU32) :
    scoreSums n b weight k =
      ⟨BitVec.ofNat 64 (lastHosts n b k).card, BitVec.ofNat 64 ((lastHosts n b k).sup fun i => maxHostNum - i),
        BitVec.ofNat 64 (∑ i ∈ lastHosts n b k, (weight i).toNat)⟩ := by
  have h0 : lastHosts n b 0 = ∅ := by
    refine Finset.eq_empty_of_forall_notMem fun i hi => ?_
    simp only [lastHosts, Finset.mem_filter, HostMap.mem_hosts] at hi
    omega
  refine forRange_inv (fun k (s : ScoreSums) => s = ⟨BitVec.ofNat 64 (lastHosts n b k).card,
    BitVec.ofNat 64 ((lastHosts n b k).sup fun i => maxHostNum - i),
    BitVec.ofNat 64 (∑ i ∈ lastHosts n b k, (weight i).toNat)⟩) ?_ ?_
  · simp [h0]
  · rintro m s hm rfl
    rw [lastHosts_succ b (lt_of_lt_of_le hm hk)]
    by_cases hon : b.isOn (n - 1 - m) = true
    · have hnot : n - 1 - m ∉ lastHosts n b m := by
        simp only [lastHosts, Finset.mem_filter, HostMap.mem_hosts]; omega
      have hlow : ∀ j ∈ lastHosts n b m, n - 1 - m ≤ j := by
        intro j hj; simp only [lastHosts, Finset.mem_filter] at hj; omega
      simp only [hon, if_true]
      rw [Finset.card_insert_of_notMem hnot, sup_insert_index hlow, Finset.sum_insert hnot]
      congr 1
      · apply BitVec.eq_of_toNat_eq; simp
      · apply BitVec.eq_of_toNat_eq
        simp only [BitVec.toNat_add, BitVec.toNat_ofNat, BitVec.toNat_setWidth]
        omega
    · simp only [hon]
      rfl

theorem lastHosts_all (n : Nat) (b : HostMap) : lastHosts n b n = b.hosts n := by
  simp [lastHosts]

/-- The parts of a score of configured hosts, in a pool of at most 64 hosts. -/
theorem score_parts_le {n : Nat} (hn : n ≤ maxHostNum) (weight : Nat → MtcU32) {s : Finset Nat} (hs : s ⊆ Finset.range n) :
    ∑ i ∈ s, (weight i).toNat ≤ 2 ^ 38 ∧ s.card ≤ maxHostNum ∧ (s.sup fun i => maxHostNum - i) ≤ maxHostNum := by
  have hcard : s.card ≤ maxHostNum := by
    have hle := Finset.card_le_card hs
    rw [Finset.card_range] at hle
    exact le_trans hle hn
  have hsum : ∑ i ∈ s, (weight i).toNat ≤ s.card * 2 ^ 32 := by
    have hle := Finset.sum_le_card_nsmul s (fun i => (weight i).toNat) (2 ^ 32) fun i _ => (weight i).isLt.le
    simpa using hle
  refine ⟨le_trans hsum ?_, hcard, Finset.sup_le fun i _ => Nat.sub_le ..⟩
  calc s.card * 2 ^ 32 ≤ maxHostNum * 2 ^ 32 := Nat.mul_le_mul_right _ hcard
    _ = 2 ^ 38 := rfl

theorem hosts_subset_range (n : Nat) (b : HostMap) : b.hosts n ⊆ Finset.range n := Finset.filter_subset ..

/-- `get_partition_score` never overflows. -/
theorem getPartitionScore_toInt {n : Nat} (hn : n ≤ maxHostNum) (b : HostMap) (weight : Nat → MtcU32) :
    (getPartitionScore n b weight).toInt = scoreOfHosts weight (b.hosts n) := by
  obtain ⟨hsum, hcard, hsup⟩ := score_parts_le hn weight (hosts_subset_range n b)
  have hlt : scoreOfHosts weight (b.hosts n) < 2 ^ 55 := by
    unfold scoreOfHosts maxHostNum at *
    omega
  have key : getPartitionScore n b weight = BitVec.ofNat 64 (scoreOfHosts weight (b.hosts n)) := by
    show (scoreSums n b weight n).weightScore * 0x10000 + (scoreSums n b weight n).sizeScore * 0x100 +
      (scoreSums n b weight n).indexScore = _
    rw [scoreSums_eq le_rfl, lastHosts_all, scoreOfHosts]
    simp only [BitVec.ofNat_add, BitVec.ofNat_mul]
    rfl
  rw [key, BitVec.toInt_eq_toNat_cond, BitVec.toNat_ofNat, Nat.mod_eq_of_lt (by omega), if_pos (by omega)]

/-! ## The vote -/

/-- The state of the vote after `k` hosts: no winner and no positive size, or the first largest. -/
def Elected (size : Nat → BitVec 32) (k : Nat) (w : Option Nat × BitVec 32) : Prop :=
  (w = (none, 0) ∧ ∀ i < k, (size i).toInt ≤ 0) ∨
  ∃ i < k, w = (some i, size i) ∧ 0 < (size i).toInt ∧ (∀ j < k, (size j).toInt ≤ (size i).toInt) ∧
    ∀ j < i, (size j).toInt < (size i).toInt

theorem elected_loop (n : Nat) (size : Nat → BitVec 32) :
    Elected size n (forRange n ((none, 0) : Option Nat × BitVec 32) fun w i =>
      if w.2.slt (size i) then (some i, size i) else w) := by
  refine forRange_inv (Elected size) (.inl ⟨rfl, by simp⟩) fun k w _ hw => ?_
  have slt_iff : ∀ x y : BitVec 32, (x.slt y = true) ↔ x.toInt < y.toInt := fun x y => BitVec.slt_iff_toInt_lt
  have zero : (0 : BitVec 32).toInt = 0 := by decide
  rcases hw with ⟨rfl, hle⟩ | ⟨i, hik, rfl, hpos, hmax, hfirst⟩
  · by_cases h : (0 : BitVec 32).slt (size k) = true
    · have hk := (slt_iff _ _).1 h
      simp only [zero] at hk
      rw [if_pos h]
      refine .inr ⟨k, by omega, rfl, hk, fun j hj => ?_, fun j hj => ?_⟩
      · rcases Nat.lt_succ_iff_lt_or_eq.1 hj with h | rfl
        · have := hle j h; omega
        · exact le_refl _
      · have := hle j hj; omega
    · rw [if_neg h]
      simp only [slt_iff, zero] at h
      refine .inl ⟨rfl, fun j hj => ?_⟩
      rcases Nat.lt_succ_iff_lt_or_eq.1 hj with h' | rfl
      · exact hle j h'
      · omega
  · by_cases h : (size i).slt (size k) = true
    · have hk := (slt_iff _ _).1 h
      rw [if_pos h]
      refine .inr ⟨k, by omega, rfl, by omega, fun j hj => ?_, fun j hj => ?_⟩
      · rcases Nat.lt_succ_iff_lt_or_eq.1 hj with h' | rfl
        · have := hmax j h'; omega
        · exact le_refl _
      · have := hmax j hj; omega
    · rw [if_neg h]
      rw [slt_iff] at h
      refine .inr ⟨i, by omega, rfl, hpos, fun j hj => ?_, hfirst⟩
      rcases Nat.lt_succ_iff_lt_or_eq.1 hj with h' | rfl
      · exact hmax j h'
      · omega

/-- The winner has the largest size, a positive one, and every earlier host has a smaller one. -/
theorem electWinner_some {n w : Nat} {size : Nat → BitVec 32} (h : electWinner n size = some w) :
    w < n ∧ 0 < (size w).toInt ∧ (∀ j < n, (size j).toInt ≤ (size w).toInt) ∧
      ∀ j < w, (size j).toInt < (size w).toInt := by
  unfold electWinner at h
  rcases elected_loop n size with ⟨he, -⟩ | ⟨i, hi, he, h1, h2, h3⟩
  · rw [he] at h; cases h
  · rw [he] at h; cases h; exact ⟨hi, h1, h2, h3⟩

/-- There is no winner exactly when no host has a positive size. -/
theorem electWinner_none {n : Nat} {size : Nat → BitVec 32} (h : electWinner n size = none) :
    ∀ j < n, (size j).toInt ≤ 0 := by
  unfold electWinner at h
  rcases elected_loop n size with ⟨-, hle⟩ | ⟨i, hi, he, -⟩
  · exact hle
  · rw [he] at h; cases h

end Xha
