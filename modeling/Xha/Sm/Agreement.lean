/-
A pool that lost some of its links: every live host freezes its own view and applies the survival rules
to it. The hosts that survive propose the same liveset (`survivors_agree`), and when some host still has the
State-File somebody survives, exactly the hosts that the merge leaves (`survivors_are_merged`). Whether a host's
view was checked or merged, the hosts with the State-File come to the same merged hosts (`mergedHosts_agree`), and
each verdict says whether the host is one of them.
-/
import Xha.Sm.Decision

namespace Xha

open Loop

/-! ## The pool and what its hosts hold -/

/-- A pool in a fault: who is live, who of them has the State-File, and whom each live host hears. -/
structure FaultPool where
  config : HaConfig
  liveset : HostMap
  live : HostMap
  sfActive : HostMap
  hbdomain : Nat → HostMap
  weight : Nat → MtcU32
  live_lt : ∀ i, live.isOn i = true → i < config.hostnum
  live_sub : ∀ i, live.isOn i = true → liveset.isOn i = true
  sfActive_sub : ∀ i, sfActive.isOn i = true → live.isOn i = true
  hears_self : ∀ i, live.isOn i = true → (hbdomain i).isOn i = true
  hears_live : ∀ i, live.isOn i = true → ∀ j, (hbdomain i).isOn j = true → live.isOn j = true

namespace FaultPool

variable (P : FaultPool)

/-- The configuration of live host `i`. -/
def configAt {i : Nat} (hi : P.live.isOn i = true) : HaConfig := P.config.at i (P.live_lt i hi)

/-- The State-File domain of host `i`. -/
def sfdomain (i : Nat) : HostMap := if P.sfActive.isOn i then P.sfActive else .empty

/-- What live host `i` holds: its own domains, the State-File records of the hosts active there, the
heartbeat records of the hosts it hears, and of an active host it does not hear the last record. -/
structure Snapshot (i : Nat) (h : Host) : Prop where
  liveset : h.sm.currentLiveset = P.liveset
  hbdomain : h.hb.hbdomain = P.hbdomain i
  sfdomain : h.sf.sfdomain = P.sfdomain i
  sfAccess : h.sf.sfAccess = P.sfActive.isOn i
  weight : h.sf.weight = P.weight
  excluded : ∀ j, P.live.isOn j = true → h.sf.excluded.isOn j = false
  sfRaw : ∀ j, P.sfActive.isOn j = true → (h.sf.raw j).hbdomain = P.hbdomain j ∧ (h.sf.raw j).sfdomain = P.sfActive
  hbRaw : ∀ j, j ≠ i → (P.hbdomain i).isOn j = true →
    (h.hb.raw j).hbdomain = P.hbdomain j ∧ (h.hb.raw j).sfdomain = P.sfdomain j
  stale : ∀ j, P.sfActive.isOn j = true → (P.hbdomain i).isOn j = false → (h.hb.raw j).sfdomain.isOn j = true

/-- A host with this snapshot; of the hosts it does not hear it has a record from before the fault. -/
def snapshotHost (i : Nat) : Host :=
  let h := Host.initial i
  let raw := fun j => ⟨P.liveset, P.liveset, P.hbdomain j, P.sfdomain j⟩
  { h with
    sm := { h.sm with currentLiveset := P.liveset, proposedLiveset := P.liveset, fencing := .armed }
    hb := { h.hb with hbdomain := P.hbdomain i, raw := raw }
    sf := { h.sf with sfdomain := P.sfdomain i, sfAccess := P.sfActive.isOn i, weight := P.weight, raw := raw }
    smvar := { h.smvar with fencing := .armed } }

/-- Every active host hears exactly the active hosts. -/
def Complete : Prop := ∀ j, P.sfActive.isOn j = true → P.hbdomain j = P.sfActive

/-! ## The local domains -/

section

variable {P} {i : Nat} (hi : P.live.isOn i = true) {h : Host} (hs : P.Snapshot i h)

theorem sfdomain_of_active {j : Nat} (hj : P.sfActive.isOn j = true) : P.sfdomain j = P.sfActive := by
  rw [sfdomain, if_pos hj]

theorem sfdomain_of_inactive {j : Nat} (hj : P.sfActive.isOn j = false) : P.sfdomain j = .empty := by
  rw [sfdomain, hj]; rfl

theorem sfActive_of_sfdomain {i j : Nat} (hj : (P.sfdomain i).isOn j = true) : P.sfActive.isOn j = true := by
  unfold sfdomain at hj
  split at hj
  · exact hj
  · rw [HostMap.isOn_empty] at hj; cases hj

theorem snapshotHost_snapshot (i : Nat) : P.Snapshot i (P.snapshotHost i) where
  liveset := rfl
  hbdomain := rfl
  sfdomain := rfl
  sfAccess := rfl
  weight := rfl
  excluded _ _ := HostMap.isOn_empty _
  sfRaw _ hj := ⟨rfl, sfdomain_of_active hj⟩
  hbRaw _ _ _ := ⟨rfl, rfl⟩
  stale j hj _ := (congrArg (·.isOn j) (sfdomain_of_active hj)).trans hj

/-- Maps of live hosts pass the mask and the cut to the liveset unchanged. -/
theorem mask_within {b : HostMap} (hb : ∀ j, b.isOn j = true → P.live.isOn j = true) :
    b.maskUnconfig P.config.hostnum &&& P.liveset = b := by
  refine HostMap.ext fun j => ?_
  rw [HostMap.isOn_and, HostMap.isOn_maskUnconfig]
  cases hj : b.isOn j
  · rfl
  · simp [P.live_lt j (hb j hj), P.live_sub j (hb j hj)]

theorem sfdomain_live (i j : Nat) (hj : (P.sfdomain i).isOn j = true) : P.live.isOn j = true :=
  P.sfActive_sub j (sfActive_of_sfdomain hj)

include hs

theorem Snapshot.myHbdomain : Xha.myHbdomain (P.configAt hi) h = P.hbdomain i := by
  unfold Xha.myHbdomain
  rw [hs.hbdomain, hs.liveset]
  exact mask_within (P.hears_live i hi)

theorem Snapshot.mySfdomain : Xha.mySfdomain (P.configAt hi) h = P.sfdomain i := by
  unfold Xha.mySfdomain
  rw [hs.sfdomain, hs.liveset]
  exact mask_within (sfdomain_live i)

/-- The comparisons of the check, in terms of the pool. -/
theorem Snapshot.sameView_iff {j : Nat} (hne : j ≠ i) :
    sameView h.sm.currentLiveset (Xha.myHbdomain (P.configAt hi) h) (Xha.mySfdomain (P.configAt hi) h) j
        ((h.hb.raw j).maskUnconfig P.config.hostnum) ((h.sf.raw j).maskUnconfig P.config.hostnum) = true ↔
      ((P.hbdomain i).isOn j = true → P.hbdomain i = P.hbdomain j ∧ P.sfdomain i = P.sfdomain j) ∧
      ((P.sfdomain i).isOn j = true → P.hbdomain i = P.hbdomain j) := by
  rw [Xha.sameView_iff, hs.myHbdomain hi, hs.mySfdomain hi, hs.liveset]
  simp only [RawData.maskUnconfig]
  refine and_congr (forall_congr' fun hj => ?_) (forall_congr' fun hj => ?_)
  · obtain ⟨h1, h2⟩ := hs.hbRaw j hne hj
    have hlive := P.hears_live i hi j hj
    rw [h1, h2, mask_within (P.hears_live j hlive), mask_within (sfdomain_live j)]
  · have hact := sfActive_of_sfdomain hj
    obtain ⟨h1, h2⟩ := hs.sfRaw j hact
    rw [h1, h2, mask_within (P.hears_live j (P.sfActive_sub j hact)), mask_within P.sfActive_sub]
    have hmine : P.sfdomain i = P.sfActive := by
      cases ha : P.sfActive.isOn i
      · rw [sfdomain_of_inactive ha, HostMap.isOn_empty] at hj; cases hj
      · exact sfdomain_of_active ha
    simp [hmine]

/-! ## An active host -/

/-- An active host leaves the check consistently exactly when the active hosts hear exactly each other. -/
theorem Snapshot.consistent_iff (hact : P.sfActive.isOn i = true) : ConsistentView (P.configAt hi) h ↔ P.Complete := by
  have hmine := sfdomain_of_active hact
  constructor
  · intro hc
    have same : ∀ j, P.sfActive.isOn j = true → P.hbdomain i = P.hbdomain j := by
      intro j hj
      by_cases hne : j = i
      · rw [hne]
      · have hlive := P.sfActive_sub j hj
        exact ((hs.sameView_iff hi hne).1 (hc j (P.live_lt j hlive) hne
          (by rw [hs.liveset]; exact P.live_sub j hlive))).2 (by rw [hmine]; exact hj)
    have heq : P.hbdomain i = P.sfActive := by
      refine HostMap.ext fun j => Bool.eq_iff_iff.2 ⟨fun hj => ?_, fun hj => ?_⟩
      · by_cases hne : j = i
        · rw [hne]; exact hact
        · have hlive := P.hears_live i hi j hj
          have hsf := (((hs.sameView_iff hi hne).1 (hc j (P.live_lt j hlive) hne
            (by rw [hs.liveset]; exact P.live_sub j hlive))).1 hj).2
          -- an inactive host would show an empty domain, which is not that of the local host
          by_contra hoff
          rw [hmine, sfdomain_of_inactive (by simpa using hoff)] at hsf
          rw [hsf, HostMap.isOn_empty] at hact
          cases hact
      · rw [same j hj]; exact P.hears_self j (P.sfActive_sub j hj)
    exact fun j hj => (same j hj).symm.trans heq
  · intro hcomp j hj hne _
    rw [show (h.hb.raw j).maskUnconfig (P.configAt hi).hostnum = (h.hb.raw j).maskUnconfig P.config.hostnum from rfl,
      show (h.sf.raw j).maskUnconfig (P.configAt hi).hostnum = (h.sf.raw j).maskUnconfig P.config.hostnum from rfl,
      hs.sameView_iff hi hne, hcomp i hact, hmine]
    exact ⟨fun hj => ⟨(hcomp j hj).symm, (sfdomain_of_active hj).symm⟩, fun hj => (hcomp j hj).symm⟩

/-- Nobody active counts as having lost the State-File. -/
theorem Snapshot.lostPeer {j : Nat} (hj : P.sfActive.isOn j = true) :
    Xha.lostPeer (P.configAt hi) h.sm.currentLiveset (viewCheck (P.configAt hi) h).hb (viewCheck (P.configAt hi) h).sf j = false := by
  have hlive := P.sfActive_sub j hj
  have hlt := P.live_lt j hlive
  unfold Xha.lostPeer
  by_cases hne : j = (P.configAt hi).myIndex
  · simp [hne]
  · have h1 : isEmptyLiveset (P.configAt hi).hostnum
        (((viewCheck (P.configAt hi) h).sf.raw j).sfdomain &&& h.sm.currentLiveset) = false := by
      refine isEmptyLiveset_eq_false.2 ⟨j, hlt, ?_⟩
      rw [HostMap.isOn_and, (viewCheck_sfRaw (P.configAt hi) h j hlt).2, (hs.sfRaw j hj).2, hs.liveset, hj,
        P.live_sub j hlive, Bool.and_self]
    have h2 : isEmptyLiveset (P.configAt hi).hostnum
        (((viewCheck (P.configAt hi) h).hb.raw j).sfdomain &&& h.sm.currentLiveset) = false := by
      refine isEmptyLiveset_eq_false.2 ⟨j, hlt, ?_⟩
      rw [HostMap.isOn_and, (viewCheck_hbRaw (P.configAt hi) h j hlt).2, hs.liveset, P.live_sub j hlive, Bool.and_true]
      cases hheard : (P.hbdomain i).isOn j
      · exact hs.stale j hj hheard
      · rw [(hs.hbRaw j hne hheard).2, sfdomain_of_active hj, hj]
    rw [h1, h2, Bool.or_self, Bool.and_false]

theorem Snapshot.keptSfdomain (hact : P.sfActive.isOn i = true) :
    (Xha.keptSfdomain (P.configAt hi) h.sm.currentLiveset (Xha.myHbdomain (P.configAt hi) h) (Xha.mySfdomain (P.configAt hi) h)
      (viewCheck (P.configAt hi) h).hb (viewCheck (P.configAt hi) h).sf).hosts P.config.hostnum =
      P.sfActive.hosts P.config.hostnum := by
  ext j
  rw [HostMap.mem_hosts, HostMap.mem_hosts]
  refine and_congr_right fun hlt => ?_
  rw [keptSfdomain_isOn (P.configAt hi) _ _ _ _ _ hlt, hs.mySfdomain hi, sfdomain_of_active hact, Bool.and_eq_true,
    Bool.not_eq_true']
  exact ⟨fun hj => hj.1, fun hj => ⟨hj, hs.lostPeer hi hj⟩⟩

theorem Snapshot.mergeGraph {j : Nat} (hj : P.sfActive.isOn j = true) :
    Xha.mergeGraph (P.configAt hi) h.sm.currentLiveset (Xha.myHbdomain (P.configAt hi) h) (Xha.mySfdomain (P.configAt hi) h)
      (viewCheck (P.configAt hi) h).hb (viewCheck (P.configAt hi) h).sf j = (P.hbdomain j).hosts P.config.hostnum := by
  have hlive := P.sfActive_sub j hj
  have hlt := P.live_lt j hlive
  by_cases hne : j = (P.configAt hi).myIndex
  · rw [hne, mergeGraph_self, hs.myHbdomain hi, hs.liveset]
    ext k
    rw [HostMap.mem_hosts, HostMap.mem_hosts, HostMap.isOn_and, Bool.and_eq_true]
    exact ⟨fun hk => ⟨hk.1, hk.2.1⟩, fun hk => ⟨hk.1, hk.2, P.live_sub k (P.hears_live i hi k hk.2)⟩⟩
  · rw [mergeGraph_peer (P.configAt hi) _ _ _ _ _ hlt hne]
    ext k
    rw [HostMap.mem_hosts, HostMap.mem_hosts, HostMap.isOn_and]
    refine and_congr_right fun hk => ?_
    rw [(viewCheck_sfRaw (P.configAt hi) h j hk).1, (hs.sfRaw j hj).1, hs.liveset, Bool.and_eq_true]
    exact ⟨fun h => h.1, fun h => ⟨h, P.live_sub k (P.hears_live j hlive k h)⟩⟩

/-- The hosts an active host's merge leaves are active hosts, at least one. -/
theorem Snapshot.mergedHosts_spec (hact : P.sfActive.isOn i = true) :
    mergedHosts (P.configAt hi) h ⊆ P.sfActive.hosts P.config.hostnum ∧ (mergedHosts (P.configAt hi) h).Nonempty ∧
      (P.Complete → mergedHosts (P.configAt hi) h = P.sfActive.hosts P.config.hostnum) := by
  obtain ⟨h1, -, h3⟩ := clique_spec (P.configAt hi) h.sm.currentLiveset (Xha.myHbdomain (P.configAt hi) h)
    (Xha.mySfdomain (P.configAt hi) h) (viewCheck (P.configAt hi) h).hb (viewCheck (P.configAt hi) h).sf
  have hkept := hs.keptSfdomain hi hact
  change _ ⊆ HostMap.hosts P.config.hostnum _ at h1
  change (HostMap.hosts P.config.hostnum _).Nonempty → (∀ j ∈ HostMap.hosts P.config.hostnum _, _) → _ at h3
  rw [hkept] at h1 h3
  refine ⟨h1, h3 ⟨i, HostMap.mem_hosts.2 ⟨P.live_lt i hi, hact⟩⟩ fun j hj => ?_, fun hcomp => ?_⟩
  · obtain ⟨hlt, hj⟩ := HostMap.mem_hosts.1 hj
    rw [hs.mergeGraph hi hj]
    exact HostMap.mem_hosts.2 ⟨hlt, P.hears_self j (P.sfActive_sub j hj)⟩
  · refine (clique_of_complete (P.configAt hi) _ _ _ _ _ ?_).trans hkept
    change ∀ j ∈ HostMap.hosts P.config.hostnum _, HostMap.hosts P.config.hostnum _ ⊆ _
    rw [hkept]
    intro j hj
    obtain ⟨-, hj⟩ := HostMap.mem_hosts.1 hj
    rw [hs.mergeGraph hi hj, hcomp j hj]

/-- They all hear each other. -/
theorem Snapshot.mergedHosts_clique (hact : P.sfActive.isOn i = true) {j : Nat}
    (hj : j ∈ mergedHosts (P.configAt hi) h) :
    mergedHosts (P.configAt hi) h ⊆ (P.hbdomain j).hosts P.config.hostnum := by
  have hactj := (HostMap.mem_hosts.1 ((hs.mergedHosts_spec hi hact).1 hj)).2
  rw [← hs.mergeGraph hi hactj]
  exact clique_subset_graph (P.configAt hi) _ _ _ _ _ hj

end

/-- All active hosts merge alike. -/
theorem mergedHosts_agree {P : FaultPool} {a b : Nat} (ha : P.live.isOn a = true) (hb : P.live.isOn b = true)
    {h g : Host} (hs : P.Snapshot a h) (gs : P.Snapshot b g) (hacta : P.sfActive.isOn a = true)
    (hactb : P.sfActive.isOn b = true) : mergedHosts (P.configAt ha) h = mergedHosts (P.configAt hb) g := by
  refine clique_congr P.config (P.live_lt a ha) (P.live_lt b hb)
    ((hs.keptSfdomain ha hacta).trans (gs.keptSfdomain hb hactb).symm) (fun j hj => ?_) ?_
  · have hj' : j ∈ P.sfActive.hosts P.config.hostnum := hs.keptSfdomain ha hacta ▸ hj
    have hj'' := (HostMap.mem_hosts.1 hj').2
    exact (hs.mergeGraph ha hj'').trans (gs.mergeGraph hb hj'').symm
  · rw [viewCheck_weight, viewCheck_weight, hs.weight, gs.weight]

/-! ## The verdicts -/

section

variable {P : FaultPool} {i : Nat} (hi : P.live.isOn i = true) {h : Host} (hs : P.Snapshot i h)

include hs

theorem Snapshot.frozenSfd (hact : P.sfActive.isOn i = true) (j : Nat) :
    (frozenSfd (P.configAt hi) (frozen (P.configAt hi) h)).isOn j = P.sfActive.isOn j := by
  have hmine := (hs.mySfdomain hi).trans (sfdomain_of_active hact)
  by_cases hc : ConsistentView (P.configAt hi) h
  · rw [frozenSfd_of_consistent hc, hmine]
  · rw [Bool.eq_iff_iff, frozenSfd_of_timeout hc, hmine]
    exact ⟨fun hj => hj.2.1, fun hj => ⟨P.live_lt j (P.sfActive_sub j hj), hj, hs.lostPeer hi hj⟩⟩

theorem Snapshot.frozenHbd (hact : P.sfActive.isOn i = true) (j : Nat) :
    (frozenHbd (P.configAt hi) (frozen (P.configAt hi) h)).isOn j = true ↔
      i ∈ mergedHosts (P.configAt hi) h ∧ j ∈ mergedHosts (P.configAt hi) h := by
  obtain ⟨hsub, -, hall⟩ := hs.mergedHosts_spec hi hact
  by_cases hc : ConsistentView (P.configAt hi) h
  · have hcomp := (hs.consistent_iff hi hact).1 hc
    rw [frozenHbd_of_consistent hc, hs.myHbdomain hi, hcomp i hact, hall hcomp, HostMap.mem_hosts, HostMap.mem_hosts]
    exact ⟨fun hj => ⟨⟨P.live_lt i hi, hact⟩, P.live_lt j (P.sfActive_sub j hj), hj⟩, fun hj => hj.2.2⟩
  · rw [frozenHbd_of_timeout hc, hs.liveset]
    refine ⟨fun hj => hj.2, fun hj => ⟨?_, hj⟩⟩
    exact P.live_sub j (P.sfActive_sub j (HostMap.mem_hosts.1 (hsub hj.2)).2)

/-- The frozen State-File record of an active host on the timeout path. -/
theorem Snapshot.frozenRaw (hact : P.sfActive.isOn i = true) (hc : ¬ ConsistentView (P.configAt hi) h) {j : Nat}
    (hj : j < P.config.hostnum) :
    ((frozen (P.configAt hi) h).smvar.stableSf.raw j).hbdomain.hosts P.config.hostnum =
      (if j ∈ mergedHosts (P.configAt hi) h then mergedHosts (P.configAt hi) h else ∅) ∧
    (j ≠ i → P.sfActive.isOn j = true →
      ((frozen (P.configAt hi) h).smvar.stableSf.raw j).sfdomain.hosts P.config.hostnum =
        P.sfActive.hosts P.config.hostnum) := by
  obtain ⟨hsub, -, -⟩ := hs.mergedHosts_spec hi hact
  obtain ⟨h1, h2, -⟩ := mergeView_record (P.configAt hi) h.sm.currentLiveset (Xha.myHbdomain (P.configAt hi) h)
    (Xha.mySfdomain (P.configAt hi) h) (viewCheck (P.configAt hi) h).hb (viewCheck (P.configAt hi) h).sf hj
  rw [(frozen_of_timeout hc).2]
  constructor
  · refine h1.trans ?_
    rw [Finset.filter_true_of_mem]
    · rfl
    · intro k hk
      rw [hs.liveset]
      exact P.live_sub k (P.sfActive_sub k (HostMap.mem_hosts.1 (hsub hk)).2)
  · intro hne hactj
    rw [h2 hne]
    ext k
    rw [HostMap.mem_hosts, HostMap.mem_hosts, HostMap.isOn_and]
    refine and_congr_right fun hk => ?_
    rw [(viewCheck_sfRaw (P.configAt hi) h j hk).2, (hs.sfRaw j hactj).2, hs.liveset, Bool.and_eq_true]
    exact ⟨fun hk => hk.1, fun hk => ⟨hk, P.live_sub k (P.sfActive_sub k hk)⟩⟩

end

/-- The size of a partition from the rows the merge leaves. -/
theorem getPartitionSize_rows {n : Nat} {sfdomain hbdomain : HostMap} {weight : Nat → MtcU32} {S K : Finset Nat}
    {p : Prop} [Decidable p] (hsf : sfdomain.hosts n = S) (hhb : hbdomain.hosts n = if p then K else ∅) (hsub : K ⊆ S)
    (hfit : sizeOfHosts weight K < 2 ^ 31) :
    (getPartitionSize n sfdomain hbdomain weight).toInt = if p then (sizeOfHosts weight K : Int) else 0 := by
  have hand : (sfdomain &&& hbdomain).hosts n = if p then K else ∅ := by
    have hinter : (sfdomain &&& hbdomain).hosts n = sfdomain.hosts n ∩ hbdomain.hosts n := by
      ext k
      simp only [HostMap.mem_hosts, HostMap.isOn_and, Bool.and_eq_true, Finset.mem_inter]
      tauto
    rw [hinter, hsf, hhb]
    split
    · exact Finset.inter_eq_right.2 hsub
    · exact Finset.inter_empty S
  have hlt : sizeOfHosts weight ((sfdomain &&& hbdomain).hosts n) < 2 ^ 31 := by
    rw [hand]
    split
    · exact hfit
    · simp [sizeOfHosts]
  rw [getPartitionSize_toInt hlt, hand]
  split
  · rfl
  · simp [sizeOfHosts]

section

variable {P : FaultPool} {i : Nat} (hi : P.live.isOn i = true) {h : Host} (hs : P.Snapshot i h)

include hs

/-- The frozen domains of an active host on the timeout path. -/
theorem Snapshot.frozenDomains (hact : P.sfActive.isOn i = true) (hc : ¬ ConsistentView (P.configAt hi) h) :
    let v := (frozen (P.configAt hi) h).smvar.maskStable P.config.hostnum
    v.stableSf.sfdomain.hosts P.config.hostnum = P.sfActive.hosts P.config.hostnum ∧
    v.stableHb.hbdomain.hosts P.config.hostnum =
      if i ∈ mergedHosts (P.configAt hi) h then mergedHosts (P.configAt hi) h else ∅ := by
  constructor
  · change ((frozen (P.configAt hi) h).smvar.stableSf.sfdomain.maskUnconfig _).hosts _ = _
    rw [(frozen_of_timeout hc).2, HostMap.hosts_maskUnconfig]
    exact hs.keptSfdomain hi hact
  · change ((frozen (P.configAt hi) h).smvar.stableHb.hbdomain.maskUnconfig _).hosts _ = _
    rw [← (hs.frozenRaw hi hact hc (P.live_lt i hi)).1, (frozen_of_timeout hc).1, (frozen_of_timeout hc).2,
      HostMap.hosts_maskUnconfig]
    rfl

/-- The sizes of the vote of an active host on the timeout path: that of the hosts left for each of
them, nothing for the others. -/
theorem Snapshot.partitionSize (hact : P.sfActive.isOn i = true) (hc : ¬ ConsistentView (P.configAt hi) h)
    (hfit : sizeOfHosts P.weight (mergedHosts (P.configAt hi) h) < 2 ^ 31) {j : Nat} (hj : j < P.config.hostnum) :
    let v := (frozen (P.configAt hi) h).smvar.maskStable P.config.hostnum
    (partitionSizeAt (P.configAt hi) v.stableHb v.stableSf P.weight j).toInt =
      if j ∈ mergedHosts (P.configAt hi) h then (sizeOfHosts P.weight (mergedHosts (P.configAt hi) h) : Int) else 0 := by
  intro v
  obtain ⟨hsub, -, -⟩ := hs.mergedHosts_spec hi hact
  obtain ⟨hsfd, hhbd⟩ := hs.frozenDomains hi hact hc
  have hon : v.stableSf.sfdomain.isOn j = P.sfActive.isOn j := by
    have := Finset.ext_iff.1 hsfd j
    rw [HostMap.mem_hosts, HostMap.mem_hosts] at this
    rw [Bool.eq_iff_iff]
    tauto
  unfold partitionSizeAt
  rw [hon]
  cases hactj : P.sfActive.isOn j
  · rw [if_pos (by rfl), if_neg]
    · decide
    · intro hk
      rw [(HostMap.mem_hosts.1 (hsub hk)).2] at hactj
      cases hactj
  · rw [if_neg (by simp)]
    split
    · rename_i hme
      rw [show j = i from hme]
      exact getPartitionSize_rows hsfd hhbd hsub hfit
    · rename_i hme
      obtain ⟨h1, h2⟩ := hs.frozenRaw hi hact hc hj
      exact getPartitionSize_rows (h2 hme hactj) h1 hsub hfit

/-- The vote after a merge elects a host that is left, and all hosts left share its partition. -/
theorem Snapshot.vote (hact : P.sfActive.isOn i = true) (hc : ¬ ConsistentView (P.configAt hi) h)
    (hfit : sizeOfHosts P.weight (mergedHosts (P.configAt hi) h) < 2 ^ 31) :
    let v := (frozen (P.configAt hi) h).smvar.maskStable P.config.hostnum
    amIInLargestPartition (P.configAt hi) v.stableHb v.stableSf v.stableSf.weight = true ↔
      i ∈ mergedHosts (P.configAt hi) h := by
  intro v
  obtain ⟨hsub, ⟨k, hk⟩, -⟩ := hs.mergedHosts_spec hi hact
  obtain ⟨hsfd, hhbd⟩ := hs.frozenDomains hi hact hc
  have hweight : v.stableSf.weight = P.weight := by
    change (frozen (P.configAt hi) h).smvar.stableSf.weight = _
    rw [(frozen_of_timeout hc).2, ← hs.weight]
    exact viewCheck_weight _ _
  have hsize := fun {j : Nat} => hs.partitionSize hi hact hc hfit (j := j)
  have hpos : 0 < sizeOfHosts P.weight (mergedHosts (P.configAt hi) h) := sizeOfHosts_pos ⟨k, hk⟩
  have hbit : ∀ {b : HostMap} {s : Finset Nat} {j : Nat}, b.hosts P.config.hostnum = s → j < P.config.hostnum →
      (b.isOn j = true ↔ j ∈ s) := by
    intro b s j hb hj
    rw [← hb, HostMap.mem_hosts]
    exact ⟨fun h => ⟨hj, h⟩, fun h => h.2⟩
  rw [hweight]
  unfold amIInLargestPartition
  cases hwin : electWinner (P.configAt hi).hostnum (partitionSizeAt (P.configAt hi) v.stableHb v.stableSf P.weight) with
  | none =>
    have hlt := (HostMap.mem_hosts.1 (hsub hk)).1
    have := electWinner_none hwin k hlt
    rw [hsize hlt, if_pos hk] at this
    omega
  | some w =>
    obtain ⟨hw, hwpos, -, -⟩ := electWinner_some hwin
    rw [hsize hw] at hwpos
    have hwk : w ∈ mergedHosts (P.configAt hi) h := by
      by_contra hout
      rw [if_neg hout] at hwpos
      omega
    by_cases hwi : w = i
    · subst hwi
      exact iff_of_true (by simp [FaultPool.configAt, HaConfig.at]) hwk
    · obtain ⟨h1, h2⟩ := hs.frozenRaw hi hact hc hw
      rw [if_pos hwk] at h1
      have hwact := (HostMap.mem_hosts.1 (hsub hwk)).2
      have e1 : (v.stableSf.raw w).sfdomain.isOn i = true :=
        (hbit (h2 hwi hwact) (P.live_lt i hi)).2 (HostMap.mem_hosts.2 ⟨P.live_lt i hi, hact⟩)
      have e2 : v.stableSf.sfdomain.isOn w = true := (hbit hsfd hw).2 (HostMap.mem_hosts.2 ⟨hw, hwact⟩)
      have e3 : (v.stableSf.raw w).hbdomain.isOn i = true ↔ i ∈ mergedHosts (P.configAt hi) h :=
        hbit h1 (P.live_lt i hi)
      have e4 : i ∈ mergedHosts (P.configAt hi) h → v.stableHb.hbdomain.isOn w = true := fun hin => by
        rw [if_pos hin] at hhbd
        exact (hbit hhbd hw).2 hwk
      simp only [FaultPool.configAt, HaConfig.at] at e1 e2 e3 e4 ⊢
      simp only [hwi, decide_false, Bool.false_or, e1, e2, Bool.true_and, Bool.and_true, Bool.and_eq_true]
      exact ⟨fun h => e3.1 h.1, fun h => ⟨e3.2 h, e4 h⟩⟩

/-- An active host survives exactly if its merge leaves it, and then the other hosts left are those it
keeps in the liveset. -/
theorem Snapshot.active_verdict (hact : P.sfActive.isOn i = true)
    (hfit : sizeOfHosts P.weight (mergedHosts (P.configAt hi) h) < 2 ^ 31) :
    (decideSurvival (P.configAt hi) h).1 = true ↔ i ∈ mergedHosts (P.configAt hi) h := by
  obtain ⟨hsub, hne, hall⟩ := hs.mergedHosts_spec hi hact
  have hhbd := hs.frozenHbd hi hact
  have hsfd := hs.frozenSfd hi hact
  rw [decideSurvival_winner, Bool.or_eq_true]
  constructor
  · intro hwin
    by_contra hout
    have hnone : ∀ j, (Xha.frozenHbd (P.configAt hi) (frozen (P.configAt hi) h)).isOn j = false := fun j => by
      rw [← Bool.not_eq_true, hhbd]; exact fun hj => hout hj.1
    rcases hwin with hwin | hwin
    · rcases survivalRule1_iff.1 hwin with ⟨hcover, -⟩ | hvote
      · have := hcover i (by rw [hsfd]; exact hact)
        rw [hnone] at this
        cases this
      · have hc : ¬ ConsistentView (P.configAt hi) h := fun hc => by
          rw [hall ((hs.consistent_iff hi hact).1 hc)] at hout
          exact hout (HostMap.mem_hosts.2 ⟨P.live_lt i hi, hact⟩)
        exact hout ((hs.vote hi hact hc hfit).1 hvote)
    · -- the local host is live, hence not excluded, and no longer in its own domain
      have := (survivalRule2_iff.1 hwin i (P.live_lt i hi)).2 (hnone i)
      rw [frozen_excluded, hs.excluded i hi] at this
      cases this
  · intro hin
    left
    by_cases hc : ConsistentView (P.configAt hi) h
    · have hcomp := (hs.consistent_iff hi hact).1 hc
      refine survivalRule1_iff.2 (.inl ⟨fun j hj => ?_, i, P.live_lt i hi, by rw [hsfd]; exact hact⟩)
      rw [hhbd]
      refine ⟨hin, ?_⟩
      rw [hsfd] at hj
      rw [hall hcomp]
      exact HostMap.mem_hosts.2 ⟨P.live_lt j (P.sfActive_sub j hj), hj⟩
    · exact survivalRule1_iff.2 (.inr ((hs.vote hi hact hc hfit).2 hin))

/-- What a surviving active host proposes: the hosts of the liveset that the merge leaves. -/
theorem Snapshot.active_proposed (hact : P.sfActive.isOn i = true) (harmed : h.smvar.fencing = .armed)
    (hprop : h.sm.proposedLiveset = P.liveset) (hwin : (decideSurvival (P.configAt hi) h).1 = true)
    (hin : i ∈ mergedHosts (P.configAt hi) h) (k : Nat) :
    (decideSurvival (P.configAt hi) h).2.sm.proposedLiveset.isOn k =
      (P.liveset.isOn k && (!decide (k < P.config.hostnum) || decide (k ∈ mergedHosts (P.configAt hi) h))) := by
  obtain ⟨hsub, -, -⟩ := hs.mergedHosts_spec hi hact
  have hhbd := hs.frozenHbd hi hact k
  have hsfd := hs.frozenSfd hi hact k
  rw [decideSurvival_proposed harmed hwin, hsfd, hprop]
  change (_ && (!decide (k < P.config.hostnum) || _)) = _
  by_cases hk : k ∈ mergedHosts (P.configAt hi) h
  · rw [hhbd.2 ⟨hin, hk⟩, (HostMap.mem_hosts.1 (hsub hk)).2]
    simp [hk]
  · have hoff : (Xha.frozenHbd (P.configAt hi) (frozen (P.configAt hi) h)).isOn k = false := by
      rw [← Bool.not_eq_true, hhbd]; exact fun h => hk h.2
    rw [hoff]
    simp [hk]

/-! ### A host without the State-File -/

theorem Snapshot.inactive_sfd (hoff : P.sfActive.isOn i = false) (k : Nat) :
    (Xha.frozenSfd (P.configAt hi) (frozen (P.configAt hi) h)).isOn k = false := by
  have hmine := (hs.mySfdomain hi).trans (sfdomain_of_inactive hoff)
  by_cases hc : ConsistentView (P.configAt hi) h
  · rw [frozenSfd_of_consistent hc, hmine, HostMap.isOn_empty]
  · rw [← Bool.not_eq_true, frozenSfd_of_timeout hc, hmine, HostMap.isOn_empty]
    simp

/-- It can win by the second rule alone, and only when its check held, it hears every live host, and
nobody has the State-File. -/
theorem Snapshot.inactive_wins (hoff : P.sfActive.isOn i = false)
    (hwin : (decideSurvival (P.configAt hi) h).1 = true) :
    wonByRule1 (P.configAt hi) (frozen (P.configAt hi) h) = false ∧
    wonByRule2 (P.configAt hi) (frozen (P.configAt hi) h) = true ∧
    (∀ j, (Xha.frozenHbd (P.configAt hi) (frozen (P.configAt hi) h)).isOn j = P.live.isOn j) ∧
    ∀ j, P.sfActive.isOn j = false := by
  have hsfd := hs.inactive_sfd hi hoff
  have hmine := (hs.mySfdomain hi).trans (sfdomain_of_inactive hoff)
  rw [decideSurvival_winner, Bool.or_eq_true] at hwin
  have hrule1 : wonByRule1 (P.configAt hi) (frozen (P.configAt hi) h) = false := by
    rw [← Bool.not_eq_true]
    intro h1
    rcases survivalRule1_iff.1 h1 with ⟨-, j, -, hj⟩ | hvote
    · rw [hsfd] at hj; cases hj
    · -- an empty State-File domain gives every partition the size 0
      have hzero : ∀ j, partitionSizeAt (P.configAt hi)
          ((frozen (P.configAt hi) h).smvar.maskStable P.config.hostnum).stableHb
          ((frozen (P.configAt hi) h).smvar.maskStable P.config.hostnum).stableSf
          ((frozen (P.configAt hi) h).smvar.maskStable P.config.hostnum).stableSf.weight j = 0 := by
        intro j
        have hout : ((frozen (P.configAt hi) h).smvar.maskStable P.config.hostnum).stableSf.sfdomain.isOn j = false := by
          rw [← Bool.not_eq_true]
          intro hj
          have := frozen_sfdomain_sub (P.configAt hi) h j hj
          rw [hs.sfdomain, sfdomain_of_inactive hoff, HostMap.isOn_empty] at this
          cases this
        rw [partitionSizeAt, hout]
        rfl
      unfold amIInLargestPartition at hvote
      cases hwinner : electWinner (P.configAt hi).hostnum (partitionSizeAt (P.configAt hi)
          ((frozen (P.configAt hi) h).smvar.maskStable P.config.hostnum).stableHb
          ((frozen (P.configAt hi) h).smvar.maskStable P.config.hostnum).stableSf
          ((frozen (P.configAt hi) h).smvar.maskStable P.config.hostnum).stableSf.weight) with
      | none =>
        erw [hwinner] at hvote
        cases hvote
      | some w =>
        obtain ⟨-, hpos, -, -⟩ := electWinner_some hwinner
        rw [hzero w] at hpos
        exact absurd hpos (by decide)
  have hrule2 := hwin.resolve_left (by rw [hrule1]; simp)
  have hcond := survivalRule2_iff.1 hrule2
  have hheard : ∀ j, P.live.isOn j = true →
      (Xha.frozenHbd (P.configAt hi) (frozen (P.configAt hi) h)).isOn j = true := fun j hj => by
    by_contra hout
    have := (hcond j (P.live_lt j hj)).2 (by simpa using hout)
    rw [frozen_excluded, hs.excluded j hj] at this
    cases this
  -- the merge of a host without the State-File leaves nobody, not even the local host
  have hc : ConsistentView (P.configAt hi) h := by
    by_contra hc
    obtain ⟨-, hme, -⟩ := (frozenHbd_of_timeout hc i).1 (hheard i hi)
    have hkept := (clique_spec (P.configAt hi) _ _ _ _ _).1 hme
    rw [HostMap.mem_hosts, keptSfdomain_isOn (P.configAt hi) _ _ _ _ _ (P.configAt hi).myIndex_lt, hmine,
      HostMap.isOn_empty] at hkept
    cases hkept.2
  have hhbd : ∀ j, (Xha.frozenHbd (P.configAt hi) (frozen (P.configAt hi) h)).isOn j = (P.hbdomain i).isOn j := fun j => by
    rw [frozenHbd_of_consistent hc, hs.myHbdomain hi]
  refine ⟨hrule1, hrule2, fun j => Bool.eq_iff_iff.2 ⟨fun hj => ?_, hheard j⟩, fun j => ?_⟩
  · rw [hhbd] at hj
    exact P.hears_live i hi j hj
  · rw [← Bool.not_eq_true]
    intro hj
    have hlive := P.sfActive_sub j hj
    have hlt := P.live_lt j hlive
    have hne : j ≠ i := by rintro rfl; rw [hj] at hoff; cases hoff
    have hon := hheard j hlive
    have haccess := (hcond j hlt).1 hon
    rw [hhbd] at hon
    have hraw : (((frozen (P.configAt hi) h).smvar.maskStable (P.configAt hi).hostnum).stableHb.raw j).sfdomain.isOn j =
        true := by
      change ((frozen (P.configAt hi) h).smvar.stableHb.raw j).sfdomain.isOn j = true
      rw [(frozen_of_consistent hc).1, (viewCheck_hbRaw (P.configAt hi) h j hlt).2, (hs.hbRaw j hne hon).2,
        sfdomain_of_active hj, hj]
    rw [sfAccessOf, if_neg (show j ≠ (P.configAt hi).myIndex from hne), hraw] at haccess
    cases haccess

/-- What a surviving host without the State-File proposes: the live hosts of the liveset. -/
theorem Snapshot.inactive_proposed (hoff : P.sfActive.isOn i = false) (harmed : h.smvar.fencing = .armed)
    (hprop : h.sm.proposedLiveset = P.liveset) (hwin : (decideSurvival (P.configAt hi) h).1 = true) (k : Nat) :
    (decideSurvival (P.configAt hi) h).2.sm.proposedLiveset.isOn k =
      (P.liveset.isOn k && (!decide (k < P.config.hostnum) || P.live.isOn k)) := by
  obtain ⟨h1, h2, h3, -⟩ := hs.inactive_wins hi hoff hwin
  rw [decideSurvival_proposed harmed hwin, h1, h2, h3, hprop]
  simp only [Bool.false_eq_true, if_false, Bool.true_or, Bool.and_true]
  rfl

end

/-! ## No split brain, no extinction -/

/-- Agreement of survivors: two live hosts that survive propose the same liveset, with both in it. The
only sums `get_partition_size` forms are those of the hosts the merge leaves. -/
theorem survivors_agree {P : FaultPool} {a b : Nat} (ha : P.live.isOn a = true) (hb : P.live.isOn b = true)
    {h g : Host} (hs : P.Snapshot a h) (gs : P.Snapshot b g)
    (harmed : h.smvar.fencing = .armed ∧ g.smvar.fencing = .armed)
    (hprop : h.sm.proposedLiveset = P.liveset ∧ g.sm.proposedLiveset = P.liveset)
    (hfit : sizeOfHosts P.weight (mergedHosts (P.configAt ha) h) < 2 ^ 31 ∧
      sizeOfHosts P.weight (mergedHosts (P.configAt hb) g) < 2 ^ 31)
    (hwin : (decideSurvival (P.configAt ha) h).1 = true ∧ (decideSurvival (P.configAt hb) g).1 = true) :
    (decideSurvival (P.configAt ha) h).2.sm.proposedLiveset = (decideSurvival (P.configAt hb) g).2.sm.proposedLiveset ∧
    (decideSurvival (P.configAt ha) h).2.sm.proposedLiveset.isOn a = true ∧
    (decideSurvival (P.configAt ha) h).2.sm.proposedLiveset.isOn b = true := by
  cases hacta : P.sfActive.isOn a <;> cases hactb : P.sfActive.isOn b
  · -- nobody has the State-File: both keep the live hosts
    have h1 := hs.inactive_proposed ha hacta harmed.1 hprop.1 hwin.1
    have h2 := gs.inactive_proposed hb hactb harmed.2 hprop.2 hwin.2
    refine ⟨HostMap.ext fun k => (h1 k).trans (h2 k).symm, ?_, ?_⟩
    · rw [h1, P.live_sub a ha, ha]; simp
    · rw [h1, P.live_sub b hb, hb]; simp
  · rw [(hs.inactive_wins ha hacta hwin.1).2.2.2 b] at hactb; cases hactb
  · rw [(gs.inactive_wins hb hactb hwin.2).2.2.2 a] at hacta; cases hacta
  · have hka := (hs.active_verdict ha hacta hfit.1).1 hwin.1
    have hkb := (gs.active_verdict hb hactb hfit.2).1 hwin.2
    have h1 := hs.active_proposed ha hacta harmed.1 hprop.1 hwin.1 hka
    have h2 := gs.active_proposed hb hactb harmed.2 hprop.2 hwin.2 hkb
    have hsame := mergedHosts_agree ha hb hs gs hacta hactb
    refine ⟨HostMap.ext fun k => ?_, ?_, ?_⟩
    · rw [h1, h2, hsame]
    · rw [h1, P.live_sub a ha]; simp [hka]
    · rw [h1, P.live_sub b hb]; simp [hsame, hkb]

/-- Three hosts on the State-File, the outer two cut off from each other. -/
def pathPool : FaultPool where
  config := .triple
  liveset := 7
  live := 7
  sfActive := 7
  hbdomain i := if i = 0 then 3 else if i = 1 then 7 else 6
  weight _ := 0
  live_lt := HostMap.forall_isOn (by decide)
  live_sub _ h := h
  sfActive_sub _ h := h
  hears_self := HostMap.forall_isOn (by decide)
  hears_live := HostMap.forall_isOn fun i hi hon => HostMap.forall_isOn (by revert hon; revert i; decide +kernel)

theorem survivors_agree_pathPool :
    (decideSurvival (pathPool.configAt (i := 0) (by decide)) (pathPool.snapshotHost 0)).2.sm.proposedLiveset =
      (decideSurvival (pathPool.configAt (i := 1) (by decide)) (pathPool.snapshotHost 1)).2.sm.proposedLiveset :=
  (survivors_agree (P := pathPool) (a := 0) (b := 1) (by decide) (by decide) (snapshotHost_snapshot 0)
    (snapshotHost_snapshot 1) ⟨rfl, rfl⟩ ⟨rfl, rfl⟩ (by decide +kernel) (by decide +kernel)).1

/-- As long as somebody has the State-File, somebody survives: the survivors are the hosts that the
merge of any active host leaves (all active hosts, when they hear exactly each other). -/
theorem survivors_are_merged {P : FaultPool} (h : Nat → Host) (hs : ∀ i, P.live.isOn i = true → P.Snapshot i (h i))
    (hsum : sizeOfHosts P.weight (P.liveset.hosts P.config.hostnum) < 2 ^ 31)
    (hne : ∃ s, P.sfActive.isOn s = true) :
    (∃ i, ∃ hi : P.live.isOn i = true, (decideSurvival (P.configAt hi) (h i)).1 = true) ∧
    ∀ (s : Nat) (hsl : P.live.isOn s = true), P.sfActive.isOn s = true →
      mergedHosts (P.configAt hsl) (h s) ⊆ P.sfActive.hosts P.config.hostnum ∧
      (∀ j ∈ mergedHosts (P.configAt hsl) (h s),
        mergedHosts (P.configAt hsl) (h s) ⊆ (P.hbdomain j).hosts P.config.hostnum) ∧
      ∀ (i : Nat) (hi : P.live.isOn i = true),
        (decideSurvival (P.configAt hi) (h i)).1 = true ↔ i ∈ mergedHosts (P.configAt hsl) (h s) := by
  have hfit : ∀ (s : Nat) (hsl : P.live.isOn s = true), P.sfActive.isOn s = true →
      sizeOfHosts P.weight (mergedHosts (P.configAt hsl) (h s)) < 2 ^ 31 := fun s hsl hact => by
    refine lt_of_le_of_lt (sizeOfHosts_mono fun k hk => ?_) hsum
    obtain ⟨hlt, hk⟩ := HostMap.mem_hosts.1 (((hs s hsl).mergedHosts_spec hsl hact).1 hk)
    exact HostMap.mem_hosts.2 ⟨hlt, P.live_sub k (P.sfActive_sub k hk)⟩
  have hexact : ∀ (s : Nat) (hsl : P.live.isOn s = true), P.sfActive.isOn s = true →
      ∀ (i : Nat) (hi : P.live.isOn i = true),
        (decideSurvival (P.configAt hi) (h i)).1 = true ↔ i ∈ mergedHosts (P.configAt hsl) (h s) := by
    intro s hsl hact i hi
    cases hacti : P.sfActive.isOn i
    · refine iff_of_false (fun hwin => ?_) fun hin => ?_
      · rw [((hs i hi).inactive_wins hi hacti hwin).2.2.2 s] at hact; cases hact
      · rw [(HostMap.mem_hosts.1 (((hs s hsl).mergedHosts_spec hsl hact).1 hin)).2] at hacti; cases hacti
    · rw [(hs i hi).active_verdict hi hacti (hfit i hi hacti), mergedHosts_agree hi hsl (hs i hi) (hs s hsl) hacti hact]
  refine ⟨?_, fun s hsl hact => ⟨((hs s hsl).mergedHosts_spec hsl hact).1,
    fun j hj => (hs s hsl).mergedHosts_clique hsl hact hj, hexact s hsl hact⟩⟩
  obtain ⟨s, hact⟩ := hne
  have hsl := P.sfActive_sub s hact
  obtain ⟨-, ⟨k, hk⟩, -⟩ := (hs s hsl).mergedHosts_spec hsl hact
  have hklive := P.sfActive_sub k (HostMap.mem_hosts.1 (((hs s hsl).mergedHosts_spec hsl hact).1 hk)).2
  exact ⟨k, hklive, (hexact s hsl hact k hklive).2 hk⟩

theorem survivors_are_merged_pathPool :
    ∃ i, ∃ hi : pathPool.live.isOn i = true, (decideSurvival (pathPool.configAt hi) (pathPool.snapshotHost i)).1 = true :=
  (survivors_are_merged (P := pathPool) pathPool.snapshotHost (fun i _ => snapshotHost_snapshot i) (by decide +kernel)
    ⟨0, by decide⟩).1

end FaultPool

end Xha
