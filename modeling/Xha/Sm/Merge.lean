/-
The partition merge on the timeout path of `wait_until_all_hosts_have_consistent_view` (sm.c): hosts
are dropped one by one until those left all hear each other. The loop refines the greedy pruning of
`GreedyClique` on the graph of State-File records, so it ends, in a clique, and keeps a host.
-/
import Xha.Lib.GreedyClique
import Xha.Sm.Partition

namespace Xha

open Loop

/-- What the merge edits: the State-File records (their `hbdomain`) and `removedhost`. -/
structure MergeState where
  raw : Nat → RawData
  removedhost : HostMap

/-- Remove host `i`: its record empty, its bit off in every other record, `removedhost` set. -/
def removeHost (n i : Nat) (s : MergeState) : MergeState where
  raw := forRange n (Function.update s.raw i { s.raw i with hbdomain := .empty }) fun raw i2 =>
    Function.update raw i2 { raw i2 with hbdomain := (raw i2).hbdomain.reset i }
  removedhost := s.removedhost.set i

/-- The host to remove next (`selected`, none for -1): the last host with the smallest score. -/
def mergeSelect (n : Nat) (weight : Nat → MtcU32) (s : MergeState) : Option Nat :=
  (forRange n ((none, -1) : Option Nat × BitVec 64) fun m k =>
    let i := n - 1 - k
    if s.removedhost.isOn i then m
    else
      let score := getPartitionScore n (s.raw i).hbdomain weight
      if m.1.isNone || score.slt m.2 then (some i, score) else m).1

/-- The exit test of the merge: the selected host hears all that is not removed. -/
def mergeDone (n : Nat) (weight : Nat → MtcU32) (s : MergeState) : Bool :=
  isAllHostsUp n (match mergeSelect n weight s with
    | none => s.removedhost
    | some v => (s.raw v).hbdomain ||| s.removedhost)

/-- The `while (TRUE)` of the merge, for at most `k` removals; `mergeLoop_done` shows that
`hostnum` of them reach the exit test. No host is selected only when all are removed, and then the
exit test has held. -/
def mergeLoop (n : Nat) (weight : Nat → MtcU32) : Nat → MergeState → MergeState
  | 0, s => s
  | k + 1, s =>
    if mergeDone n weight s then s
    else match mergeSelect n weight s with
      | none => s
      | some v => mergeLoop n weight k (removeHost n v s)

/-! ## Removing a host -/

theorem removeHost_raw {n i : Nat} (hi : i < n) (s : MergeState) (j : Nat) :
    (removeHost n i s).raw j =
      { s.raw j with hbdomain := if j = i then .empty else if j < n then (s.raw j).hbdomain.reset i
                                 else (s.raw j).hbdomain } := by
  simp only [removeHost]
  rw [forRange_update n _ (fun _ (r : RawData) => { r with hbdomain := r.hbdomain.reset i }) j]
  by_cases hj : j = i
  · subst hj
    simp only [hi, if_true, Function.update_self]
    congr 1
    exact HostMap.ext fun k => by simp
  · simp only [Function.update_of_ne hj, if_neg hj]
    split <;> rfl

@[simp] theorem removeHost_removedhost (n i : Nat) (s : MergeState) :
    (removeHost n i s).removedhost = s.removedhost.set i := rfl

theorem removeHost_sfdomain {n i : Nat} (hi : i < n) (s : MergeState) (j : Nat) :
    ((removeHost n i s).raw j).sfdomain = (s.raw j).sfdomain := by
  rw [removeHost_raw hi]

/-- The configured hosts not removed yet. -/
def remaining (n : Nat) (removed : HostMap) : Finset Nat :=
  (Finset.range n).filter fun i => removed.isOn i = false

@[simp] theorem mem_remaining {n : Nat} {removed : HostMap} {i : Nat} :
    i ∈ remaining n removed ↔ i < n ∧ removed.isOn i = false := by
  simp [remaining]

theorem remaining_set {n i : Nat} (hn : n ≤ maxHostNum) (removed : HostMap) :
    remaining n (removed.set i) = (remaining n removed).erase i := by
  ext j
  simp only [mem_remaining, HostMap.isOn_set, Bool.or_eq_false_iff, decide_eq_false_iff_not, not_and,
    Finset.mem_erase]
  constructor
  · rintro ⟨h1, h2, h3⟩
    exact ⟨fun he => h3 he.symm (by omega), h1, h2⟩
  · rintro ⟨h1, h2, h3⟩
    exact ⟨h2, h3, fun he => absurd he.symm h1⟩

/-! ## The selected host -/

/-- The state of the selection after `k` turns, over the hosts from `n - k` on. -/
def Selected (n : Nat) (weight : Nat → MtcU32) (s : MergeState) (k : Nat) (m : Option Nat × BitVec 64) : Prop :=
  (m.1 = none ∧ ∀ i < n, n - k ≤ i → s.removedhost.isOn i = true) ∨
  ∃ v, m = (some v, getPartitionScore n (s.raw v).hbdomain weight) ∧ v < n ∧ s.removedhost.isOn v = false ∧
    ∀ u < n, n - k ≤ u → s.removedhost.isOn u = false →
      (getPartitionScore n (s.raw v).hbdomain weight).toInt ≤ (getPartitionScore n (s.raw u).hbdomain weight).toInt

theorem selected_loop (n : Nat) (weight : Nat → MtcU32) (s : MergeState) :
    Selected n weight s n (forRange n ((none, -1) : Option Nat × BitVec 64) fun m k =>
      let i := n - 1 - k
      if s.removedhost.isOn i then m
      else
        let score := getPartitionScore n (s.raw i).hbdomain weight
        if m.1.isNone || score.slt m.2 then (some i, score) else m) := by
  refine forRange_inv (Selected n weight s) (.inl ⟨rfl, fun i hi h => by omega⟩) fun k m hk hm => ?_
  -- the hosts visited after turn `k` are those visited before and `n - 1 - k`
  have split : ∀ u, n - (k + 1) ≤ u → u = n - 1 - k ∨ n - k ≤ u := fun u hu => by omega
  simp only
  by_cases hr : s.removedhost.isOn (n - 1 - k) = true
  · rw [if_pos hr]
    rcases hm with ⟨h1, h2⟩ | ⟨v, rfl, hv, hvr, hmin⟩
    · refine .inl ⟨h1, fun i hi hle => ?_⟩
      rcases split i hle with rfl | h
      · exact hr
      · exact h2 i hi h
    · refine .inr ⟨v, rfl, hv, hvr, fun u hu hle hur => ?_⟩
      rcases split u hle with rfl | h
      · rw [hr] at hur; cases hur
      · exact hmin u hu h hur
  · rw [if_neg hr]
    have hr' : s.removedhost.isOn (n - 1 - k) = false := by simpa using hr
    rcases hm with ⟨h1, h2⟩ | ⟨v, rfl, hv, hvr, hmin⟩
    · rw [h1, Option.isNone_none, Bool.true_or, if_pos rfl]
      refine .inr ⟨_, rfl, by omega, hr', fun u hu hle hur => ?_⟩
      rcases split u hle with rfl | h
      · exact le_refl _
      · rw [h2 u hu h] at hur; cases hur
    · simp only [Option.isNone_some, Bool.false_or, BitVec.slt_iff_toInt_lt]
      split
      · rename_i hlt
        refine .inr ⟨_, rfl, by omega, hr', fun u hu hle hur => ?_⟩
        rcases split u hle with rfl | h
        · exact le_refl _
        · have := hmin u hu h hur; omega
      · rename_i hge
        refine .inr ⟨v, rfl, hv, hvr, fun u hu hle hur => ?_⟩
        rcases split u hle with rfl | h
        · omega
        · exact hmin u hu h hur

theorem mergeSelect_none {n : Nat} {weight : Nat → MtcU32} {s : MergeState} (h : mergeSelect n weight s = none) :
    remaining n s.removedhost = ∅ := by
  unfold mergeSelect at h
  rcases selected_loop n weight s with ⟨-, h2⟩ | ⟨v, he, -⟩
  · refine Finset.eq_empty_of_forall_notMem fun i hi => ?_
    obtain ⟨h3, h4⟩ := mem_remaining.1 hi
    rw [h2 i h3 (by omega)] at h4; cases h4
  · rw [he] at h; cases h

theorem mergeSelect_some {n v : Nat} {weight : Nat → MtcU32} {s : MergeState}
    (h : mergeSelect n weight s = some v) :
    v ∈ remaining n s.removedhost ∧ ∀ u ∈ remaining n s.removedhost,
      (getPartitionScore n (s.raw v).hbdomain weight).toInt ≤ (getPartitionScore n (s.raw u).hbdomain weight).toInt := by
  unfold mergeSelect at h
  rcases selected_loop n weight s with ⟨h1, -⟩ | ⟨v', he, hv, hvr, hmin⟩
  · rw [h1] at h; cases h
  · rw [he] at h; cases h
    refine ⟨mem_remaining.2 ⟨hv, hvr⟩, fun u hu => ?_⟩
    obtain ⟨h1, h2⟩ := mem_remaining.1 hu
    exact hmin u h1 (by omega) h2

/-! ## Refinement of the greedy pruning -/

/-- The records of the hosts left are the graph `N` cut down to the hosts left; those of the hosts
removed are empty. -/
structure MergeInv (n : Nat) (N : Nat → Finset Nat) (s : MergeState) : Prop where
  left : ∀ j ∈ remaining n s.removedhost, (s.raw j).hbdomain.hosts n = N j ∩ remaining n s.removedhost
  gone : ∀ j < n, s.removedhost.isOn j = true → (s.raw j).hbdomain = .empty

/-- A turn of the greedy pruning with the score of the merge. -/
abbrev PruneStep (weight : Nat → MtcU32) (N : Nat → Finset Nat) := GreedyClique.Step N (scoreOfHosts weight)

theorem MergeInv.removeHost {n v : Nat} (hn : n ≤ maxHostNum) {N : Nat → Finset Nat} {s : MergeState}
    (h : MergeInv n N s) (hv : v < n) : MergeInv n N (removeHost n v s) := by
  constructor
  · intro j hj
    rw [removeHost_removedhost, remaining_set hn] at hj ⊢
    obtain ⟨hjv, hj⟩ := Finset.mem_erase.1 hj
    obtain ⟨hjn, -⟩ := mem_remaining.1 hj
    have hmem := h.left j hj
    rw [removeHost_raw hv]
    simp only [if_neg hjv, if_pos hjn]
    ext i
    have hi := Finset.ext_iff.1 hmem i
    simp only [HostMap.mem_hosts, Finset.mem_inter] at hi
    simp only [HostMap.mem_hosts, HostMap.isOn_reset, Bool.and_eq_true, decide_eq_true_eq, Finset.mem_inter,
      Finset.mem_erase]
    constructor
    · rintro ⟨h1, h2, h3⟩
      exact ⟨(hi.1 ⟨h1, h2⟩).1, fun he => h3 he.symm, (hi.1 ⟨h1, h2⟩).2⟩
    · rintro ⟨h1, h2, h3⟩
      exact ⟨(hi.2 ⟨h1, h3⟩).1, (hi.2 ⟨h1, h3⟩).2, fun he => h2 he.symm⟩
  · intro j hj hr
    rw [removeHost_raw hv]
    by_cases hjv : j = v
    · simp [hjv]
    · simp only [if_neg hjv, if_pos hj]
      rw [removeHost_removedhost, HostMap.isOn_set] at hr
      have hr' : s.removedhost.isOn j = true := by
        have hvj : ¬ v = j := fun he => hjv he.symm
        simpa [hvj] using hr
      rw [h.gone j hj hr']
      exact HostMap.ext fun k => by simp

/-- The selected host is a least vertex of the graph. -/
theorem MergeInv.least {n v : Nat} (hn : n ≤ maxHostNum) {N : Nat → Finset Nat} {weight : Nat → MtcU32}
    {s : MergeState} (h : MergeInv n N s) (hs : mergeSelect n weight s = some v) :
    GreedyClique.Least N (scoreOfHosts weight) (remaining n s.removedhost) v := by
  obtain ⟨hv, hmin⟩ := mergeSelect_some hs
  refine ⟨hv, fun u hu => ?_⟩
  have := hmin u hu
  rw [getPartitionScore_toInt hn, getPartitionScore_toInt hn, h.left v hv, h.left u hu] at this
  exact_mod_cast this

theorem mergeDone_some {n v : Nat} {weight : Nat → MtcU32} {s : MergeState}
    (hs : mergeSelect n weight s = some v) :
    mergeDone n weight s = true ↔ remaining n s.removedhost ⊆ (s.raw v).hbdomain.hosts n := by
  unfold mergeDone
  rw [hs, isAllHostsUp_iff]
  simp only [HostMap.isOn_or, Bool.or_eq_true]
  constructor
  · intro h i hi
    obtain ⟨h1, h2⟩ := mem_remaining.1 hi
    rcases h i h1 with h3 | h3
    · exact HostMap.mem_hosts.2 ⟨h1, h3⟩
    · rw [h2] at h3; cases h3
  · intro h i hi
    cases hr : s.removedhost.isOn i
    · exact .inl (HostMap.mem_hosts.1 (h (mem_remaining.2 ⟨hi, hr⟩))).2
    · exact .inr rfl

theorem mergeDone_none {n : Nat} {weight : Nat → MtcU32} {s : MergeState} (hs : mergeSelect n weight s = none) :
    mergeDone n weight s = true := by
  have he := mergeSelect_none hs
  unfold mergeDone
  rw [hs, isAllHostsUp_iff]
  intro i hi
  cases hr : s.removedhost.isOn i
  · have : i ∈ remaining n s.removedhost := mem_remaining.2 ⟨hi, hr⟩
    rw [he] at this; cases this
  · rfl

/-- The merge runs the greedy pruning, keeps its invariant, and changes nothing but `hbdomain`. -/
theorem mergeLoop_prunes {n : Nat} (hn : n ≤ maxHostNum) (weight : Nat → MtcU32) (N : Nat → Finset Nat) :
    ∀ (k : Nat) (s : MergeState), MergeInv n N s →
      MergeInv n N (mergeLoop n weight k s) ∧
      Relation.ReflTransGen (PruneStep weight N) (remaining n s.removedhost)
        (remaining n (mergeLoop n weight k s).removedhost) ∧
      ∀ j, ((mergeLoop n weight k s).raw j).sfdomain = (s.raw j).sfdomain
  | 0, s, h => ⟨h, .refl, fun _ => rfl⟩
  | k + 1, s, h => by
    unfold mergeLoop
    by_cases hd : mergeDone n weight s = true
    · rw [if_pos hd]; exact ⟨h, .refl, fun _ => rfl⟩
    · rw [if_neg hd]
      cases hs : mergeSelect n weight s with
      | none => exact absurd (mergeDone_none hs) hd
      | some v =>
        simp only
        have hleast := h.least hn hs
        have hv : v < n := (mem_remaining.1 hleast.1).1
        have hnot : ¬ remaining n s.removedhost ⊆ N v := fun hsub => hd <| by
          rw [mergeDone_some hs, h.left v hleast.1]
          exact Finset.subset_inter hsub (Finset.Subset.refl _)
        obtain ⟨h1, h2, h3⟩ := mergeLoop_prunes hn weight N k _ (h.removeHost hn hv)
        rw [removeHost_removedhost, remaining_set hn] at h2
        exact ⟨h1, .head (.drop hleast hnot) h2, fun j => by rw [h3, removeHost_sfdomain hv]⟩

/-- As many turns as hosts are left reach the exit test: the loop of the code ends. -/
theorem mergeLoop_done {n : Nat} (hn : n ≤ maxHostNum) (weight : Nat → MtcU32) :
    ∀ (k : Nat) (s : MergeState), (remaining n s.removedhost).card ≤ k →
      mergeDone n weight (mergeLoop n weight k s) = true
  | 0, s, h => by
    have he : remaining n s.removedhost = ∅ := Finset.card_eq_zero.1 (Nat.le_zero.1 h)
    cases hs : mergeSelect n weight s with
    | none => exact mergeDone_none hs
    | some v => rw [mergeLoop, mergeDone_some hs, he]; exact Finset.empty_subset _
  | k + 1, s, h => by
    unfold mergeLoop
    by_cases hd : mergeDone n weight s = true
    · rw [if_pos hd]; exact hd
    · rw [if_neg hd]
      cases hs : mergeSelect n weight s with
      | none => exact absurd (mergeDone_none hs) hd
      | some v =>
        refine mergeLoop_done hn weight k _ ?_
        rw [removeHost_removedhost, remaining_set hn, Finset.card_erase_of_mem (mergeSelect_some hs).1]
        omega

theorem mergeLoop_of_done {n : Nat} {weight : Nat → MtcU32} {s : MergeState} (h : mergeDone n weight s = true) :
    ∀ k, mergeLoop n weight k s = s
  | 0 => rfl
  | k + 1 => by rw [mergeLoop, if_pos h]

/-- Once the exit test has held, more turns change nothing. -/
theorem mergeLoop_add {n : Nat} {weight : Nat → MtcU32} (m : Nat) :
    ∀ (k : Nat) (s : MergeState), mergeDone n weight (mergeLoop n weight k s) = true →
      mergeLoop n weight (k + m) s = mergeLoop n weight k s
  | 0, s, h => by rw [Nat.zero_add]; exact mergeLoop_of_done h m
  | k + 1, s, h => by
    rw [Nat.add_right_comm]
    rw [mergeLoop] at h ⊢
    by_cases hd : mergeDone n weight s = true
    · rw [if_pos hd, mergeLoop_of_done hd]
    · rw [if_neg hd] at h ⊢
      rw [mergeLoop, if_neg hd]
      cases hs : mergeSelect n weight s with
      | none => rfl
      | some v => exact mergeLoop_add m k _ (by rwa [hs] at h)

theorem settled_of_mergeDone {n : Nat} (hn : n ≤ maxHostNum) {weight : Nat → MtcU32} {N : Nat → Finset Nat}
    {s : MergeState} (h : MergeInv n N s) (hd : mergeDone n weight s = true) :
    GreedyClique.Settled N (scoreOfHosts weight) (remaining n s.removedhost) := by
  cases hs : mergeSelect n weight s with
  | none => exact .inl (mergeSelect_none hs)
  | some v =>
    have hleast := h.least hn hs
    rw [mergeDone_some hs, h.left v hleast.1] at hd
    exact .inr ⟨v, hleast, hd.trans Finset.inter_subset_left⟩

/-- The merge ends with a clique: every host left has exactly the hosts left in its record, every
other host an empty record. -/
theorem mergeLoop_clique {n : Nat} (hn : n ≤ maxHostNum) (weight : Nat → MtcU32) (N : Nat → Finset Nat)
    {s : MergeState} (h : MergeInv n N s) :
    let t := mergeLoop n weight n s
    remaining n t.removedhost ⊆ remaining n s.removedhost ∧
    (∀ j ∈ remaining n t.removedhost, (t.raw j).hbdomain.hosts n = remaining n t.removedhost) ∧
    (∀ j < n, t.removedhost.isOn j = true → (t.raw j).hbdomain = .empty) ∧
    ((remaining n s.removedhost).Nonempty → (∀ j ∈ remaining n s.removedhost, j ∈ N j) →
      (remaining n t.removedhost).Nonempty) := by
  intro t
  obtain ⟨hinv, hsteps, -⟩ := mergeLoop_prunes hn weight N n s h
  have hcard : (remaining n s.removedhost).card ≤ n :=
    le_trans (Finset.card_filter_le _ _) (by rw [Finset.card_range])
  have hdone := mergeLoop_done hn weight n s hcard
  have hclique := GreedyClique.clique_of_settled (fun _ _ => scoreOfHosts_lt)
    (settled_of_mergeDone hn hinv hdone)
  refine ⟨GreedyClique.steps_subset hsteps, fun j hj => ?_, hinv.gone, fun hne hself => ?_⟩
  · rw [hinv.left j hj]
    exact Finset.inter_eq_right.2 (hclique j hj)
  · exact GreedyClique.steps_nonempty hself hsteps hne

/-! ## The merge depends on the records of the configured hosts only -/

/-- Two merge states with the same records and the same removed hosts, as far as configured. -/
structure MergeEq (n : Nat) (s t : MergeState) : Prop where
  raw : ∀ j < n, (s.raw j).hbdomain.hosts n = (t.raw j).hbdomain.hosts n
  removed : ∀ i < n, s.removedhost.isOn i = t.removedhost.isOn i

theorem getPartitionScore_congr {n : Nat} (hn : n ≤ maxHostNum) {a b : HostMap} (h : a.hosts n = b.hosts n)
    (weight : Nat → MtcU32) : getPartitionScore n a weight = getPartitionScore n b weight := by
  apply BitVec.eq_of_toInt_eq
  rw [getPartitionScore_toInt hn, getPartitionScore_toInt hn, h]

theorem MergeEq.select {n : Nat} (hn : n ≤ maxHostNum) {s t : MergeState} (h : MergeEq n s t)
    (weight : Nat → MtcU32) : mergeSelect n weight s = mergeSelect n weight t := by
  unfold mergeSelect
  congr 1
  refine forRange_rel (· = ·) rfl fun k a b hk hab => ?_
  simp only [hab, h.removed (n - 1 - k) (by omega), getPartitionScore_congr hn (h.raw (n - 1 - k) (by omega)) weight]

theorem MergeEq.remaining {n : Nat} {s t : MergeState} (h : MergeEq n s t) :
    Xha.remaining n s.removedhost = Xha.remaining n t.removedhost := by
  ext i
  simp only [mem_remaining]
  constructor
  · rintro ⟨h1, h2⟩; exact ⟨h1, by rw [← h.removed i h1]; exact h2⟩
  · rintro ⟨h1, h2⟩; exact ⟨h1, by rw [h.removed i h1]; exact h2⟩

theorem MergeEq.done {n : Nat} (hn : n ≤ maxHostNum) {s t : MergeState} (h : MergeEq n s t)
    (weight : Nat → MtcU32) : mergeDone n weight s = mergeDone n weight t := by
  cases hs : mergeSelect n weight s with
  | none =>
    rw [mergeDone_none hs, mergeDone_none ((h.select hn weight).symm.trans hs)]
  | some v =>
    have ht : mergeSelect n weight t = some v := (h.select hn weight).symm.trans hs
    have hv := (mem_remaining.1 (mergeSelect_some hs).1).1
    rw [Bool.eq_iff_iff, mergeDone_some hs, mergeDone_some ht, h.remaining, h.raw v hv]

theorem MergeEq.removeHost {n v : Nat} {s t : MergeState} (h : MergeEq n s t) (hv : v < n) :
    MergeEq n (removeHost n v s) (removeHost n v t) := by
  constructor
  · intro j hj
    have hr := Finset.ext_iff.1 (h.raw j hj)
    simp only [HostMap.mem_hosts] at hr
    rw [removeHost_raw hv, removeHost_raw hv]
    by_cases hjv : j = v
    · simp [hjv]
    · simp only [if_neg hjv, if_pos hj]
      ext i
      simp only [HostMap.mem_hosts, HostMap.isOn_reset, Bool.and_eq_true]
      rw [← and_assoc, ← and_assoc, hr i]
  · intro i hi
    simp only [removeHost_removedhost, HostMap.isOn_set, h.removed i hi]

theorem MergeEq.loop {n : Nat} (hn : n ≤ maxHostNum) (weight : Nat → MtcU32) :
    ∀ (k : Nat) {s t : MergeState}, MergeEq n s t → MergeEq n (mergeLoop n weight k s) (mergeLoop n weight k t)
  | 0, _, _, h => h
  | k + 1, s, t, h => by
    unfold mergeLoop
    rw [h.done hn weight, h.select hn weight]
    split
    · exact h
    · split
      · exact h
      · rename_i v hv
        exact MergeEq.loop hn weight k (h.removeHost (mem_remaining.1 (mergeSelect_some hv).1).1)

end Xha
