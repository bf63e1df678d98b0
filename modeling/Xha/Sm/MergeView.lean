/-
What the timeout path of `wait_until_all_hosts_have_consistent_view` freezes: the State-File domain
without the peers that lost it, and the heartbeat domain of a clique of its hosts. `merge_computes_clique` carries what
the greedy pruning computes over to the bitmaps and records of the view.
-/
import Xha.Sm.View

namespace Xha

open Loop

/-! ## The records the merge starts from -/

theorem restrictRaw_apply (n : Nat) (liveset : HostMap) (raw : Nat → RawData) (j : Nat) :
    restrictRaw n liveset raw j = if j < n then (raw j).within liveset else raw j :=
  forRange_update n raw (fun _ r => r.within liveset) j

theorem mergeRaw_self (c : HaConfig) (liveset myHbdomain mySfdomain : HostMap) (raw : Nat → RawData) :
    mergeRaw c liveset myHbdomain mySfdomain raw c.myIndex =
      { raw c.myIndex with hbdomain := myHbdomain &&& liveset, sfdomain := mySfdomain &&& liveset } := by
  rw [mergeRaw, restrictRaw_apply, if_pos c.myIndex_lt, Function.update_self]
  rfl

theorem mergeRaw_peer (c : HaConfig) (liveset myHbdomain mySfdomain : HostMap) (raw : Nat → RawData) {j : Nat}
    (hj : j < c.hostnum) (hne : j ≠ c.myIndex) :
    mergeRaw c liveset myHbdomain mySfdomain raw j = (raw j).within liveset := by
  rw [mergeRaw, restrictRaw_apply, if_pos hj, Function.update_of_ne hne]

/-! ## Peers that lost the State-File -/

/-- A peer whose State-File or heartbeat record shows an empty State-File domain. -/
def lostStateFile (c : HaConfig) (hbRaw sfRaw : Nat → RawData) (i : Nat) : Bool :=
  i != c.myIndex && (isEmptyLiveset c.hostnum (sfRaw i).sfdomain || isEmptyLiveset c.hostnum (hbRaw i).sfdomain)

/-- Bit `i` of a map after `k` turns of the loop: off when host `i` was visited and is lost. -/
def keptAfter (lost : Nat → Bool) (k i : Nat) (b : Bool) : Bool := b && !(decide (i < k) && lost i)

theorem keptAfter_skip {lost : Nat → Bool} {k : Nat} (h : lost k = false) (i : Nat) (b : Bool) :
    keptAfter lost (k + 1) i b = keptAfter lost k i b := by
  unfold keptAfter
  by_cases hik : i = k
  · subst hik; simp [h]
  · have : i < k + 1 ↔ i < k := by omega
    simp only [this]

theorem keptAfter_drop {lost : Nat → Bool} {k : Nat} (h : lost k = true) (i : Nat) (b : Bool) :
    keptAfter lost (k + 1) i b = (keptAfter lost k i b && decide (k ≠ i)) := by
  unfold keptAfter
  by_cases hik : k = i
  · subst hik; simp [h]
  · have : i < k + 1 ↔ i < k := by omega
    simp [this, hik]

/-- The loop takes exactly the lost peers off the local State-File domain and the local records. -/
structure LostSpec (c : HaConfig) (s : LostState) (k : Nat) (t : LostState) : Prop where
  mine : ∀ i, t.mySfdomain.isOn i = keptAfter (lostStateFile c s.hbRaw s.sfRaw) k i (s.mySfdomain.isOn i)
  hbPeer : ∀ j, j ≠ c.myIndex → t.hbRaw j = s.hbRaw j
  sfPeer : ∀ j, j ≠ c.myIndex → t.sfRaw j = s.sfRaw j
  hbdomain : (t.sfRaw c.myIndex).hbdomain = (s.sfRaw c.myIndex).hbdomain
  sfSelf : ∀ i, (t.sfRaw c.myIndex).sfdomain.isOn i =
    keptAfter (lostStateFile c s.hbRaw s.sfRaw) k i ((s.sfRaw c.myIndex).sfdomain.isOn i)

theorem LostSpec.skip {c : HaConfig} {s t : LostState} {k : Nat} (h : LostSpec c s k t)
    (hl : lostStateFile c s.hbRaw s.sfRaw k = false) : LostSpec c s (k + 1) t :=
  ⟨fun i => by rw [h.mine, keptAfter_skip hl], h.hbPeer, h.sfPeer, h.hbdomain,
    fun i => by rw [h.sfSelf, keptAfter_skip hl]⟩

theorem LostSpec.drop {c : HaConfig} {s t : LostState} {k : Nat} (h : LostSpec c s k t)
    (hl : lostStateFile c s.hbRaw s.sfRaw k = true) :
    LostSpec c s (k + 1) { mySfdomain := t.mySfdomain.reset k
                           hbRaw := resetSfdomain t.hbRaw c.myIndex k
                           sfRaw := resetSfdomain t.sfRaw c.myIndex k } := by
  refine ⟨fun i => ?_, fun j hj => ?_, fun j hj => ?_, ?_, fun i => ?_⟩
  · rw [HostMap.isOn_reset, h.mine, keptAfter_drop hl]
  · simp only [resetSfdomain, Function.update_of_ne hj, h.hbPeer j hj]
  · simp only [resetSfdomain, Function.update_of_ne hj, h.sfPeer j hj]
  · simp only [resetSfdomain, Function.update_self, h.hbdomain]
  · simp only [resetSfdomain, Function.update_self, HostMap.isOn_reset, h.sfSelf, keptAfter_drop hl]

theorem dropLostStateFile_spec (c : HaConfig) (s : LostState) : LostSpec c s c.hostnum (dropLostStateFile c s) := by
  refine forRange_inv (LostSpec c s) ?_ fun k t _ ht => ?_
  · constructor <;> simp [keptAfter]
  · by_cases hme : k = c.myIndex
    · rw [if_pos hme]
      exact ht.skip (by simp [lostStateFile, hme])
    · rw [if_neg hme, ht.sfPeer k hme, ht.hbPeer k hme]
      split
      · rename_i hcond
        exact ht.drop (by simpa [lostStateFile, hme] using hcond)
      · rename_i hcond
        exact ht.skip (by simpa [lostStateFile, hme] using hcond)

/-! ## Hosts without State-File access -/

theorem removeNoStateFile_spec {n : Nat} (hn : n ≤ maxHostNum) (mySfdomain : HostMap) (raw : Nat → RawData) :
    let s := removeNoStateFile n mySfdomain raw
    MergeInv n (fun j => (raw j).hbdomain.hosts n) s ∧ remaining n s.removedhost = mySfdomain.hosts n ∧
      ∀ j, (s.raw j).sfdomain = (raw j).sfdomain := by
  have loop := forRange_inv (n := n) (s := (⟨raw, .empty⟩ : MergeState))
    (f := fun s i => if !mySfdomain.isOn i then removeHost n i s else s)
    (fun k s => MergeInv n (fun j => (raw j).hbdomain.hosts n) s ∧
      (∀ i < n, s.removedhost.isOn i = (decide (i < k) && !mySfdomain.isOn i)) ∧
      ∀ j, (s.raw j).sfdomain = (raw j).sfdomain) ?_ ?_
  · obtain ⟨h1, h2, h3⟩ := loop
    refine ⟨h1, ?_, h3⟩
    ext i
    rw [mem_remaining, HostMap.mem_hosts]
    constructor
    · rintro ⟨hi, hr⟩
      change (removeNoStateFile n mySfdomain raw).removedhost.isOn i = false at hr
      rw [removeNoStateFile, h2 i hi] at hr
      exact ⟨hi, by simpa [hi] using hr⟩
    · rintro ⟨hi, hon⟩
      refine ⟨hi, ?_⟩
      rw [removeNoStateFile, h2 i hi, hon]
      simp
  · refine ⟨⟨fun j _ => ?_, fun j _ h => ?_⟩, fun i _ => by simp, fun _ => rfl⟩
    · ext i
      simp only [HostMap.mem_hosts, Finset.mem_inter, mem_remaining, HostMap.isOn_empty, and_true]
      tauto
    · rw [HostMap.isOn_empty] at h; cases h
  · rintro k s hk ⟨h1, h2, h3⟩
    cases hon : mySfdomain.isOn k
    · simp only [Bool.not_false, if_true]
      refine ⟨h1.removeHost hn hk, fun i hi => ?_, fun j => by rw [removeHost_sfdomain hk, h3]⟩
      rw [removeHost_removedhost, HostMap.isOn_set, h2 i hi]
      by_cases hik : k = i
      · subst hik
        have : k < maxHostNum := by omega
        simp [hon, this]
      · have : i < k + 1 ↔ i < k := by omega
        simp [hik, this]
    · simp only [Bool.not_true]
      refine ⟨h1, fun i hi => ?_, h3⟩
      rw [if_neg (by simp), h2 i hi]
      by_cases hik : i = k
      · subst hik; simp [hon]
      · have : i < k + 1 ↔ i < k := by omega
        simp only [this]

/-! ## What the merge freezes -/

/-- The hosts the merge leaves. -/
def clique (c : HaConfig) (liveset myHbdomain mySfdomain : HostMap) (hb : ComDataHb) (sf : ComDataSf) : Finset Nat :=
  remaining c.hostnum (mergeEnd c liveset myHbdomain mySfdomain hb sf).removedhost

/-- The local State-File domain without the peers that lost the State-File. -/
def keptSfdomain (c : HaConfig) (liveset myHbdomain mySfdomain : HostMap) (hb : ComDataHb) (sf : ComDataSf) : HostMap :=
  (mergeLost c liveset myHbdomain mySfdomain hb sf).mySfdomain

section

variable (c : HaConfig) (liveset myHbdomain mySfdomain : HostMap) (hb : ComDataHb) (sf : ComDataSf)

/-- A peer is lost to the State-File when its records, cut down to the liveset, are empty. -/
def lostPeer (i : Nat) : Bool :=
  i != c.myIndex && (isEmptyLiveset c.hostnum ((sf.raw i).sfdomain &&& liveset) ||
    isEmptyLiveset c.hostnum ((hb.raw i).sfdomain &&& liveset))

theorem lostPeer_eq {i : Nat} (hi : i < c.hostnum) :
    lostStateFile c (mergeRaw c liveset myHbdomain mySfdomain hb.raw)
      (mergeRaw c liveset myHbdomain mySfdomain sf.raw) i = lostPeer c liveset hb sf i := by
  unfold lostStateFile lostPeer
  by_cases hme : i = c.myIndex
  · simp [hme]
  · rw [mergeRaw_peer c _ _ _ _ hi hme, mergeRaw_peer c _ _ _ _ hi hme]
    rfl

theorem keptSfdomain_isOn {i : Nat} (hi : i < c.hostnum) :
    (keptSfdomain c liveset myHbdomain mySfdomain hb sf).isOn i =
      (mySfdomain.isOn i && !lostPeer c liveset hb sf i) := by
  unfold keptSfdomain mergeLost
  rw [(dropLostStateFile_spec c _).mine i, keptAfter, lostPeer_eq c liveset myHbdomain mySfdomain hb sf hi]
  simp [hi]

/-- The graph of the merge: who hears whom, by the State-File records and the local domain. -/
def mergeGraph (j : Nat) : Finset Nat :=
  ((mergeLost c liveset myHbdomain mySfdomain hb sf).sfRaw j).hbdomain.hosts c.hostnum

theorem mergeGraph_self :
    mergeGraph c liveset myHbdomain mySfdomain hb sf c.myIndex = (myHbdomain &&& liveset).hosts c.hostnum := by
  unfold mergeGraph mergeLost
  rw [(dropLostStateFile_spec c _).hbdomain]
  dsimp only
  rw [mergeRaw_self]

theorem mergeGraph_peer {j : Nat} (hj : j < c.hostnum) (hne : j ≠ c.myIndex) :
    mergeGraph c liveset myHbdomain mySfdomain hb sf j = ((sf.raw j).hbdomain &&& liveset).hosts c.hostnum := by
  unfold mergeGraph mergeLost
  rw [(dropLostStateFile_spec c _).sfPeer j hne]
  dsimp only
  rw [mergeRaw_peer c _ _ _ _ hj hne]
  rfl

/-- The state in which the merge loop starts. -/
abbrev mergeStart : MergeState :=
  removeNoStateFile c.hostnum (mergeLost c liveset myHbdomain mySfdomain hb sf).mySfdomain
    (mergeLost c liveset myHbdomain mySfdomain hb sf).sfRaw

theorem mergeStart_spec :
    MergeInv c.hostnum (mergeGraph c liveset myHbdomain mySfdomain hb sf)
      (mergeStart c liveset myHbdomain mySfdomain hb sf) ∧
    remaining c.hostnum (mergeStart c liveset myHbdomain mySfdomain hb sf).removedhost =
      (keptSfdomain c liveset myHbdomain mySfdomain hb sf).hosts c.hostnum ∧
    ∀ j, ((mergeStart c liveset myHbdomain mySfdomain hb sf).raw j).sfdomain =
      ((mergeLost c liveset myHbdomain mySfdomain hb sf).sfRaw j).sfdomain :=
  removeNoStateFile_spec c.hostnum_le _ _

/-- The record of a host that is not left is empty. -/
theorem mergeEnd_gone {j : Nat} (hj : j < c.hostnum) (hnot : j ∉ clique c liveset myHbdomain mySfdomain hb sf) :
    ((mergeEnd c liveset myHbdomain mySfdomain hb sf).raw j).hbdomain = .empty := by
  obtain ⟨hinv, -⟩ := mergeStart_spec c liveset myHbdomain mySfdomain hb sf
  have hr : (mergeEnd c liveset myHbdomain mySfdomain hb sf).removedhost.isOn j = true := by
    by_contra hn
    exact hnot (mem_remaining.2 ⟨hj, by simpa using hn⟩)
  exact (mergeLoop_clique c.hostnum_le sf.weight _ hinv).2.2.1 j hj hr

/-- The hosts left are State-File hosts, their records are exactly the hosts left, the other records
are empty, and some host is left if the State-File hosts hear themselves. -/
theorem clique_spec :
    clique c liveset myHbdomain mySfdomain hb sf ⊆ (keptSfdomain c liveset myHbdomain mySfdomain hb sf).hosts c.hostnum ∧
    (∀ j < c.hostnum, ((mergeEnd c liveset myHbdomain mySfdomain hb sf).raw j).hbdomain.hosts c.hostnum =
      if j ∈ clique c liveset myHbdomain mySfdomain hb sf then clique c liveset myHbdomain mySfdomain hb sf else ∅) ∧
    (((keptSfdomain c liveset myHbdomain mySfdomain hb sf).hosts c.hostnum).Nonempty →
      (∀ j ∈ (keptSfdomain c liveset myHbdomain mySfdomain hb sf).hosts c.hostnum,
        j ∈ mergeGraph c liveset myHbdomain mySfdomain hb sf j) →
      (clique c liveset myHbdomain mySfdomain hb sf).Nonempty) := by
  obtain ⟨hinv, hrem, -⟩ := mergeStart_spec c liveset myHbdomain mySfdomain hb sf
  obtain ⟨h1, h2, -, h4⟩ := mergeLoop_clique c.hostnum_le sf.weight _ hinv
  rw [hrem] at h1 h4
  refine ⟨h1, fun j hj => ?_, h4⟩
  split
  · rename_i hmem; exact h2 j hmem
  · rename_i hmem
    rw [mergeEnd_gone c liveset myHbdomain mySfdomain hb sf hj hmem]
    simp [HostMap.hosts]

/-- A host left hears every host left. -/
theorem clique_subset_graph {j : Nat} (hj : j ∈ clique c liveset myHbdomain mySfdomain hb sf) :
    clique c liveset myHbdomain mySfdomain hb sf ⊆ mergeGraph c liveset myHbdomain mySfdomain hb sf j := by
  obtain ⟨hinv, -, -⟩ := mergeLoop_prunes c.hostnum_le sf.weight _ c.hostnum _
    (mergeStart_spec c liveset myHbdomain mySfdomain hb sf).1
  have hleft := hinv.left j hj
  have hrec := (clique_spec c liveset myHbdomain mySfdomain hb sf).2.1 j (mem_remaining.1 hj).1
  rw [if_pos hj] at hrec
  intro i hi
  rw [← hrec] at hi
  exact (Finset.mem_inter.1 (hleft ▸ hi)).1

/-- When the State-File hosts all hear each other, all of them are left. -/
theorem clique_of_complete
    (h : ∀ j ∈ (keptSfdomain c liveset myHbdomain mySfdomain hb sf).hosts c.hostnum,
      (keptSfdomain c liveset myHbdomain mySfdomain hb sf).hosts c.hostnum ⊆
        mergeGraph c liveset myHbdomain mySfdomain hb sf j) :
    clique c liveset myHbdomain mySfdomain hb sf = (keptSfdomain c liveset myHbdomain mySfdomain hb sf).hosts c.hostnum := by
  obtain ⟨hinv, hrem, -⟩ := mergeStart_spec c liveset myHbdomain mySfdomain hb sf
  have hsteps := (mergeLoop_prunes c.hostnum_le sf.weight _ c.hostnum _ hinv).2.1
  rw [hrem] at hsteps
  exact GreedyClique.steps_of_clique h hsteps

/-- The frozen records are those at the end, cut down to the liveset. -/
theorem mergeView_sfRaw {j : Nat} (hj : j < c.hostnum) : (mergeView c liveset myHbdomain mySfdomain hb sf).2.raw j =
    ((mergeEnd c liveset myHbdomain mySfdomain hb sf).raw j).within liveset := by
  show restrictRaw c.hostnum liveset _ j = _
  rw [restrictRaw_apply, if_pos hj]

theorem mergeView_hbRaw {j : Nat} (hj : j < c.hostnum) : (mergeView c liveset myHbdomain mySfdomain hb sf).1.raw j =
    ((mergeLost c liveset myHbdomain mySfdomain hb sf).hbRaw j).within liveset := by
  show restrictRaw c.hostnum liveset _ j = _
  rw [restrictRaw_apply, if_pos hj]

theorem hosts_within (n : Nat) (r : RawData) :
    (r.within liveset).hbdomain.hosts n = (r.hbdomain.hosts n).filter (liveset.isOn · = true) := by
  ext i
  simp only [RawData.within, HostMap.mem_hosts, HostMap.isOn_and, Bool.and_eq_true, Finset.mem_filter]
  tauto

/-- The records frozen on the timeout path. -/
theorem mergeView_record {j : Nat} (hj : j < c.hostnum) :
    let v := mergeView c liveset myHbdomain mySfdomain hb sf
    ((v.2.raw j).hbdomain.hosts c.hostnum = (if j ∈ clique c liveset myHbdomain mySfdomain hb sf
      then (clique c liveset myHbdomain mySfdomain hb sf).filter (liveset.isOn · = true) else ∅)) ∧
    (j ≠ c.myIndex → (v.2.raw j).sfdomain = (sf.raw j).sfdomain &&& liveset) ∧
    (j ≠ c.myIndex → (v.1.raw j).sfdomain = (hb.raw j).sfdomain &&& liveset) := by
  intro v
  have hsfRaw : v.2.raw j = _ := mergeView_sfRaw c liveset myHbdomain mySfdomain hb sf hj
  have hhbRaw : v.1.raw j = _ := mergeView_hbRaw c liveset myHbdomain mySfdomain hb sf hj
  have twice : ∀ b : HostMap, b &&& liveset &&& liveset = b &&& liveset := fun b => by
    rw [BitVec.and_assoc, BitVec.and_self]
  refine ⟨?_, fun hne => ?_, fun hne => ?_⟩
  · have hrec := (clique_spec c liveset myHbdomain mySfdomain hb sf).2.1 j hj
    rw [hsfRaw, hosts_within, hrec]
    split
    · rfl
    · simp
  · obtain ⟨hinv, -, hsf⟩ := mergeStart_spec c liveset myHbdomain mySfdomain hb sf
    have hend := (mergeLoop_prunes c.hostnum_le sf.weight _ c.hostnum _ hinv).2.2 j
    rw [hsfRaw]
    simp only [RawData.within]
    rw [mergeEnd, hend, hsf, mergeLost, (dropLostStateFile_spec c _).sfPeer j hne]
    dsimp only
    rw [mergeRaw_peer c _ _ _ _ hj hne]
    exact twice _
  · rw [hhbRaw]
    simp only [RawData.within]
    rw [mergeLost, (dropLostStateFile_spec c _).hbPeer j hne]
    dsimp only
    rw [mergeRaw_peer c _ _ _ _ hj hne]
    exact twice _

end

/-- Two hosts that keep the same State-File hosts, with the same records of these, merge alike. -/
theorem clique_congr (c : HaConfig) {a b : Nat} (ha : a < c.hostnum) (hb : b < c.hostnum)
    {liveset liveset' myHbdomain myHbdomain' mySfdomain mySfdomain' : HostMap} {hbA hbB : ComDataHb}
    {sfA sfB : ComDataSf}
    (hkept : (keptSfdomain (c.at a ha) liveset myHbdomain mySfdomain hbA sfA).hosts c.hostnum =
      (keptSfdomain (c.at b hb) liveset' myHbdomain' mySfdomain' hbB sfB).hosts c.hostnum)
    (hgraph : ∀ j ∈ (keptSfdomain (c.at a ha) liveset myHbdomain mySfdomain hbA sfA).hosts c.hostnum,
      mergeGraph (c.at a ha) liveset myHbdomain mySfdomain hbA sfA j =
        mergeGraph (c.at b hb) liveset' myHbdomain' mySfdomain' hbB sfB j)
    (hweight : sfA.weight = sfB.weight) :
    clique (c.at a ha) liveset myHbdomain mySfdomain hbA sfA =
      clique (c.at b hb) liveset' myHbdomain' mySfdomain' hbB sfB := by
  obtain ⟨invA, remA, -⟩ := mergeStart_spec (c.at a ha) liveset myHbdomain mySfdomain hbA sfA
  obtain ⟨invB, remB, -⟩ := mergeStart_spec (c.at b hb) liveset' myHbdomain' mySfdomain' hbB sfB
  have hendA : clique (c.at a ha) liveset myHbdomain mySfdomain hbA sfA = remaining c.hostnum
      (mergeLoop c.hostnum sfA.weight c.hostnum
        (mergeStart (c.at a ha) liveset myHbdomain mySfdomain hbA sfA)).removedhost := rfl
  have hendB : clique (c.at b hb) liveset' myHbdomain' mySfdomain' hbB sfB = remaining c.hostnum
      (mergeLoop c.hostnum sfA.weight c.hostnum
        (mergeStart (c.at b hb) liveset' myHbdomain' mySfdomain' hbB sfB)).removedhost := by
    rw [hweight]
    rfl
  rw [hendA, hendB]
  generalize mergeStart (c.at a ha) liveset myHbdomain mySfdomain hbA sfA = s,
    mergeStart (c.at b hb) liveset' myHbdomain' mySfdomain' hbB sfB = t at invA remA invB remB ⊢
  have hrem : remaining c.hostnum s.removedhost = remaining c.hostnum t.removedhost :=
    remA.trans (hkept.trans remB.symm)
  have hremoved : ∀ i < c.hostnum, s.removedhost.isOn i = t.removedhost.isOn i := by
    intro i hi
    have := Finset.ext_iff.1 hrem i
    rw [mem_remaining, mem_remaining] at this
    rw [Bool.eq_iff_iff, ← not_iff_not, Bool.not_eq_true, Bool.not_eq_true]
    tauto
  have heq : MergeEq c.hostnum s t := by
    refine ⟨fun j hj => ?_, hremoved⟩
    cases hr : s.removedhost.isOn j
    · have hmem := mem_remaining.2 ⟨hj, hr⟩
      calc (s.raw j).hbdomain.hosts c.hostnum
          = mergeGraph (c.at a ha) liveset myHbdomain mySfdomain hbA sfA j ∩ remaining c.hostnum s.removedhost :=
            invA.left j hmem
        _ = mergeGraph (c.at b hb) liveset' myHbdomain' mySfdomain' hbB sfB j ∩ remaining c.hostnum t.removedhost := by
            rw [hgraph j (remA ▸ hmem), hrem]
        _ = (t.raw j).hbdomain.hosts c.hostnum := (invB.left j (hrem ▸ hmem)).symm
    · rw [invA.gone j hj hr, invB.gone j hj ((hremoved j hj).symm.trans hr)]
  exact (heq.loop c.hostnum_le sfA.weight c.hostnum).remaining

/-! ## The whole merge -/

/-- The timeout path computes a clique and ends: with the domains of the check, cut down to the liveset, and any
copies, the loop reaches its exit test after at most `hostnum` removals, those of the hosts without State-File access
included, and later turns change nothing; the hosts left are in the frozen State-File domain, the frozen records of
these are exactly the hosts left, those of the other configured hosts are empty, and so is the local heartbeat domain
unless the local host is left. -/
theorem merge_computes_clique (c : HaConfig) (liveset hbdomain sfdomain : HostMap) (hb : ComDataHb) (sf : ComDataSf) :
    let K := clique c liveset (hbdomain &&& liveset) (sfdomain &&& liveset) hb sf
    let v := mergeView c liveset (hbdomain &&& liveset) (sfdomain &&& liveset) hb sf
    let lost := mergeLost c liveset (hbdomain &&& liveset) (sfdomain &&& liveset) hb sf
    let start := removeNoStateFile c.hostnum lost.mySfdomain lost.sfRaw
    (∃ k, ((Finset.range c.hostnum).filter fun i => v.2.sfdomain.isOn i = false).card + k ≤ c.hostnum ∧
      mergeDone c.hostnum sf.weight (mergeLoop c.hostnum sf.weight k start) = true ∧
      ∀ m, mergeLoop c.hostnum sf.weight (k + m) start =
        mergeEnd c liveset (hbdomain &&& liveset) (sfdomain &&& liveset) hb sf) ∧
    K ⊆ v.2.sfdomain.hosts c.hostnum ∧
    (∀ i < c.hostnum, (i ∈ K → (v.2.raw i).hbdomain.hosts c.hostnum = K) ∧ (i ∉ K → (v.2.raw i).hbdomain = .empty)) ∧
    (c.myIndex ∈ K → v.1.hbdomain.hosts c.hostnum = K) ∧ (c.myIndex ∉ K → v.1.hbdomain = .empty) := by
  intro K v lost start
  obtain ⟨-, hrem, -⟩ := removeNoStateFile_spec c.hostnum_le lost.mySfdomain lost.sfRaw
  have hsub : K ⊆ v.2.sfdomain.hosts c.hostnum := (clique_spec c liveset _ _ hb sf).1
  have hlive : K.filter (liveset.isOn · = true) = K := by
    refine Finset.filter_true_of_mem fun i hi => ?_
    obtain ⟨hlt, hon⟩ := HostMap.mem_hosts.1 (hsub hi)
    rw [show v.2.sfdomain = keptSfdomain c liveset (hbdomain &&& liveset) (sfdomain &&& liveset) hb sf from rfl,
      keptSfdomain_isOn c liveset _ _ hb sf hlt, HostMap.isOn_and, Bool.and_eq_true, Bool.and_eq_true] at hon
    exact hon.1.2
  have hrecord : ∀ i < c.hostnum,
      (i ∈ K → (v.2.raw i).hbdomain.hosts c.hostnum = K) ∧ (i ∉ K → (v.2.raw i).hbdomain = .empty) := by
    intro i hi
    have hrec := (mergeView_record c liveset (hbdomain &&& liveset) (sfdomain &&& liveset) hb sf hi).1
    refine ⟨fun hmem => ?_, fun hmem => ?_⟩
    · exact hrec.trans ((if_pos hmem).trans hlive)
    · have hraw : v.2.raw i = _ := mergeView_sfRaw c liveset (hbdomain &&& liveset) (sfdomain &&& liveset) hb sf hi
      rw [hraw, RawData.within, mergeEnd_gone c liveset _ _ hb sf hi hmem]
      exact BitVec.zero_and
  refine ⟨?_, hsub, hrecord, (hrecord c.myIndex c.myIndex_lt).1, (hrecord c.myIndex c.myIndex_lt).2⟩
  -- the hosts with State-File access are an upper bound for the turns
  have hdone := mergeLoop_done c.hostnum_le sf.weight _ start le_rfl
  have hcard : ((Finset.range c.hostnum).filter fun i => v.2.sfdomain.isOn i = false).card +
      (remaining c.hostnum start.removedhost).card = c.hostnum := by
    have hsplit := Finset.card_filter_add_card_filter_not (s := Finset.range c.hostnum)
      (fun i => v.2.sfdomain.isOn i = false)
    rw [Finset.card_range] at hsplit
    rw [hrem, show lost.mySfdomain = v.2.sfdomain from rfl]
    simpa [HostMap.hosts] using hsplit
  refine ⟨(remaining c.hostnum start.removedhost).card, hcard.le, hdone, fun m => ?_⟩
  obtain ⟨k, hk⟩ := Nat.exists_eq_add_of_le ((Nat.le_add_left _ _).trans hcard.le)
  have hmore := mergeLoop_add k _ _ hdone
  rw [← hk] at hmore
  rw [mergeLoop_add m _ _ hdone]
  exact hmore.symm

end Xha
