/-
Partition sizes for the weights that hosts can have: the signed 32-bit sum of `get_partition_size` is the
weight of the partition exactly as long as that stays below `2^31`, which eight hosts always do and nine may not
(`partition_sizes_exact_iff`).
-/
import Xha.Lib.Wrap
import Xha.Sm.Partition
import Xha.Weight.Map

namespace Xha

open Wrap

/-! ## Legal weights -/

/-- The weight of a host whose table holds weights that `weight_set` accepts. -/
def LegalWeight (weight : MtcU32) : Prop :=
  ∃ t : WeightTable, (∀ e ∈ t.classes, e.weight.toNat ≤ maxHostWeightValue) ∧ calcHostweight t = weight

/-- Sixteen classes and the builtin one. -/
def maxLegalWeight : Nat := builtinHostWeightValue.toNat + maxHostWeightClassNum * maxHostWeightValue

theorem LegalWeight.le {weight : MtcU32} (h : LegalWeight weight) : weight.toNat ≤ maxLegalWeight := by
  obtain ⟨t, hle, rfl⟩ := h
  rw [calcHostweight_toNat hle]
  exact Nat.add_le_add_left (sum_classes_le hle) _

/-- The table that a host has before any weight is set. -/
theorem legalWeight_builtin : LegalWeight builtinHostWeightValue := ⟨.empty, by decide, by decide⟩

/-! ## Sizes -/

/-- The size is the sum over the hosts of both domains, and a partition with hosts has a positive one. -/
structure SizeExact (n : Nat) (sfdomain hbdomain : HostMap) (weight : Nat → MtcU32) : Prop where
  exact : (getPartitionSize n sfdomain hbdomain weight).toInt = sizeOfHosts weight ((sfdomain &&& hbdomain).hosts n)
  positive : ((sfdomain &&& hbdomain).hosts n).Nonempty → 0 < (getPartitionSize n sfdomain hbdomain weight).toInt

theorem sizeExact_iff (n : Nat) (sfdomain hbdomain : HostMap) (weight : Nat → MtcU32) :
    SizeExact n sfdomain hbdomain weight ↔ sizeOfHosts weight ((sfdomain &&& hbdomain).hosts n) < 2 ^ 31 := by
  have hexact : (getPartitionSize n sfdomain hbdomain weight).toInt =
      sizeOfHosts weight ((sfdomain &&& hbdomain).hosts n) ↔
      sizeOfHosts weight ((sfdomain &&& hbdomain).hosts n) < 2 ^ 31 := by
    rw [getPartitionSize_eq]
    exact toInt_ofNat_eq_iff (by omega) _
  constructor
  · intro h
    exact hexact.1 h.exact
  · intro h
    refine ⟨hexact.2 h, fun hne => ?_⟩
    rw [hexact.2 h]
    exact_mod_cast sizeOfHosts_pos hne

theorem sizeOfHosts_eq (weight : Nat → MtcU32) (s : Finset Nat) :
    sizeOfHosts weight s = s.card + 0x100 * ∑ i ∈ s, (weight i).toNat := by
  rw [sizeOfHosts, Finset.sum_add_distrib, Finset.mul_sum, Finset.sum_const, smul_eq_mul, Nat.mul_one]

/-- Eight hosts of the largest weight still fit. -/
theorem sizeOfHosts_lt_of_card {weight : Nat → MtcU32} {s : Finset Nat} (hw : ∀ i ∈ s, LegalWeight (weight i))
    (hs : s.card ≤ 8) : sizeOfHosts weight s < 2 ^ 31 := by
  have hsum : ∑ i ∈ s, (weight i).toNat ≤ s.card * maxLegalWeight := by
    have := Finset.sum_le_card_nsmul s (fun i => (weight i).toNat) maxLegalWeight fun i hi => (hw i hi).le
    rwa [smul_eq_mul] at this
  have hmax : s.card * maxLegalWeight ≤ 8 * maxLegalWeight := Nat.mul_le_mul_right _ hs
  have hfit : 8 + 0x100 * (8 * maxLegalWeight) < 2 ^ 31 := by decide
  rw [sizeOfHosts_eq]
  omega

/-! ## The vote -/

/-- The hosts whose weight is counted for host `index` in the vote. -/
def partitionHosts (c : HaConfig) (phb : ComDataHb) (psf : ComDataSf) (index : Nat) : Finset Nat :=
  if !psf.sfdomain.isOn index then ∅
  else if index = c.myIndex then (psf.sfdomain &&& phb.hbdomain).hosts c.hostnum
  else ((psf.raw index).sfdomain &&& (psf.raw index).hbdomain).hosts c.hostnum

section

variable {c : HaConfig} {phb : ComDataHb} {psf : ComDataSf} {weight : Nat → MtcU32}

theorem partitionSizeAt_eq (index : Nat) :
    partitionSizeAt c phb psf weight index = BitVec.ofNat 32 (sizeOfHosts weight (partitionHosts c phb psf index)) := by
  unfold partitionSizeAt partitionHosts
  split
  · rfl
  · split
    · exact getPartitionSize_eq ..
    · exact getPartitionSize_eq ..

/-- The vote by the integer sizes: it finds a winner if some partition has a host, and a partition of larger
total weight with at least as many hosts does not lose. -/
structure VoteExact (c : HaConfig) (phb : ComDataHb) (psf : ComDataSf) (weight : Nat → MtcU32) : Prop where
  exact : ∀ i < c.hostnum, (partitionSizeAt c phb psf weight i).toInt = sizeOfHosts weight (partitionHosts c phb psf i)
  winner : (∃ i < c.hostnum, (partitionHosts c phb psf i).Nonempty) →
    ∃ w, electWinner c.hostnum (partitionSizeAt c phb psf weight) = some w
  heavier : ∀ i < c.hostnum, ∀ j < c.hostnum,
    (partitionHosts c phb psf j).card ≤ (partitionHosts c phb psf i).card →
    ∑ k ∈ partitionHosts c phb psf j, (weight k).toNat < ∑ k ∈ partitionHosts c phb psf i, (weight k).toNat →
    electWinner c.hostnum (partitionSizeAt c phb psf weight) ≠ some j

theorem voteExact_of_exact
    (h : ∀ i < c.hostnum, (partitionSizeAt c phb psf weight i).toInt = sizeOfHosts weight (partitionHosts c phb psf i)) :
    VoteExact c phb psf weight where
  exact := h
  winner := by
    rintro ⟨i, hi, hne⟩
    cases hw : electWinner c.hostnum (partitionSizeAt c phb psf weight) with
    | some w => exact ⟨w, rfl⟩
    | none =>
      have hle := electWinner_none hw i hi
      have hpos : 0 < sizeOfHosts weight (partitionHosts c phb psf i) := sizeOfHosts_pos hne
      rw [h i hi] at hle
      omega
  heavier := by
    intro i hi j hj hcard hsum hw
    obtain ⟨-, -, hmax, -⟩ := electWinner_some hw
    have hle := hmax i hi
    rw [h i hi, h j hj, sizeOfHosts_eq, sizeOfHosts_eq] at hle
    omega

theorem voteExact_iff :
    VoteExact c phb psf weight ↔
      ∀ i < c.hostnum, sizeOfHosts weight (partitionHosts c phb psf i) < 2 ^ 31 := by
  have hexact : ∀ i, (partitionSizeAt c phb psf weight i).toInt = sizeOfHosts weight (partitionHosts c phb psf i) ↔
      sizeOfHosts weight (partitionHosts c phb psf i) < 2 ^ 31 := by
    intro i
    rw [partitionSizeAt_eq]
    exact toInt_ofNat_eq_iff (by omega) _
  constructor
  · intro h i hi
    exact (hexact i).1 (h.exact i hi)
  · intro h
    exact voteExact_of_exact fun i hi => (hexact i).2 (h i hi)

end

/-- Partition sizes are the integer sums, and the vote is the vote by these, exactly as long as the sums of the
partitions stay below `2^31`; eight hosts with legal weights always do. -/
theorem partition_sizes_exact_iff (c : HaConfig) (weight : Nat → MtcU32)
    (hw : ∀ i < c.hostnum, LegalWeight (weight i)) :
    (∀ sfdomain hbdomain, SizeExact c.hostnum sfdomain hbdomain weight ↔
      sizeOfHosts weight ((sfdomain &&& hbdomain).hosts c.hostnum) < 2 ^ 31) ∧
    (∀ phb psf, VoteExact c phb psf weight ↔
      ∀ i < c.hostnum, sizeOfHosts weight (partitionHosts c phb psf i) < 2 ^ 31) ∧
    ∀ hosts : HostMap, (hosts.hosts c.hostnum).card ≤ 8 → sizeOfHosts weight (hosts.hosts c.hostnum) < 2 ^ 31 := by
  refine ⟨fun sfdomain hbdomain => sizeExact_iff c.hostnum sfdomain hbdomain weight, fun phb psf => voteExact_iff,
    fun hosts hcard => ?_⟩
  exact sizeOfHosts_lt_of_card (fun i hi => hw i (HostMap.mem_hosts.1 hi).1) hcard

/-- Two hosts without classes. -/
theorem partition_sizes_exact_iff_pair :
    SizeExact 2 .full .full (fun _ => builtinHostWeightValue) ∧
      (getPartitionSize 2 .full .full fun _ => builtinHostWeightValue).toInt = 514 := by
  obtain ⟨hsize, -, hfew⟩ :=
    partition_sizes_exact_iff .pair (fun _ => builtinHostWeightValue) fun i _ => legalWeight_builtin
  refine ⟨(hsize .full .full).2 (hfew _ (by decide)), by decide⟩

/-! ## Nine heavy hosts -/

/-- A table whose classes all have the largest weight. -/
def heavyTable : WeightTable :=
  ⟨(List.range maxHostWeightClassNum).map fun k =>
    ⟨['v', 'm', Char.ofNat ('a'.toNat + k)], BitVec.ofNat 32 maxHostWeightValue⟩, by decide⟩

def heavyWeight : Nat → MtcU32 := fun _ => calcHostweight heavyTable

/-- A pool of ten hosts, seen from the first one. -/
def HaConfig.ten : HaConfig where
  hostnum := 10
  myIndex := 0
  hostnum_le := by decide
  myIndex_lt := by decide

/-- The first nine hosts see each other, the last one only itself. -/
def nineHosts : HostMap := 0x1ff

def lastHost : HostMap := 0x200

def nineHb : ComDataHb := { ComDataHb.initial with hbdomain := nineHosts }

def nineSf : ComDataSf :=
  { ComDataSf.initial 0 with
    sfdomain := .full
    raw := fun i => if i < 9 then { RawData.initial with hbdomain := nineHosts, sfdomain := .full }
      else { RawData.initial with hbdomain := lastHost, sfdomain := .full } }

theorem legalWeight_heavy (i : Nat) : LegalWeight (heavyWeight i) := ⟨heavyTable, by decide +kernel, rfl⟩

/-- Nine hosts with the largest legal weight have a negative size, and lose to a single one. -/
theorem heaviest_partition_loses :
    (∀ i < 10, LegalWeight (heavyWeight i)) ∧
    ¬ SizeExact 10 nineHosts nineHosts heavyWeight ∧ ¬ VoteExact .ten nineHb nineSf heavyWeight ∧
    (getPartitionSize 10 nineHosts nineHosts heavyWeight).toInt = -1879082743 ∧
    electWinner 10 (partitionSizeAt .ten nineHb nineSf heavyWeight) = some 9 ∧
    amIInLargestPartition .ten nineHb nineSf heavyWeight = false := by
  refine ⟨fun i _ => legalWeight_heavy i, ?_, ?_, by decide +kernel⟩
  · intro h
    exact absurd h.exact (by decide +kernel)
  · intro h
    exact h.heavier 0 (by decide) 9 (by decide) (by decide +kernel) (by decide +kernel) (by decide +kernel)

end Xha
