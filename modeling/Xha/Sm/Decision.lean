/-
The survival decision on either exit of the consistency check: what the frozen view is, and on which
records the verdict depends. A record of a host that is not heard enters the decision in one place, the
removal of the hosts that lost the State-File.
-/
import Xha.Sm.MergeView
import Xha.Sm.Survival

namespace Xha

open Loop

/-! ## The check on a host -/

/-- The local heartbeat domain as the check compares it. -/
def myHbdomain (c : HaConfig) (h : Host) : HostMap := h.hb.hbdomain.maskUnconfig c.hostnum &&& h.sm.currentLiveset

/-- The local State-File domain as the check compares it. -/
def mySfdomain (c : HaConfig) (h : Host) : HostMap := h.sf.sfdomain.maskUnconfig c.hostnum &&& h.sm.currentLiveset

/-- Every other host of the liveset passes the comparisons. -/
def ConsistentView (c : HaConfig) (h : Host) : Prop :=
  ∀ i < c.hostnum, i ≠ c.myIndex → h.sm.currentLiveset.isOn i = true →
    sameView h.sm.currentLiveset (myHbdomain c h) (mySfdomain c h) i ((h.hb.raw i).maskUnconfig c.hostnum)
      ((h.sf.raw i).maskUnconfig c.hostnum) = true

instance (c : HaConfig) (h : Host) : Decidable (ConsistentView c h) := by unfold ConsistentView; infer_instance

/-- The pass of the check the wait ends with. -/
def viewCheck (c : HaConfig) (h : Host) : ViewCheck := checkConsistentView c h.sm h.hb h.sf

theorem viewCheck_consistent {c : HaConfig} {h : Host} :
    (viewCheck c h).consistent = true ↔ ConsistentView c h := by
  unfold viewCheck checkConsistentView
  dsimp only
  rw [checkPeers_iff c _ _ _ _ _ _ List.nodup_range]
  simp only [List.mem_range]
  rfl

theorem viewCheck_hb (c : HaConfig) (h : Host) :
    (viewCheck c h).hb = { h.hb with hbdomain := h.hb.hbdomain.maskUnconfig c.hostnum, raw := (viewCheck c h).hb.raw } :=
  (checkPeers_frame c _ _ _ _ _ _).1

theorem viewCheck_sf (c : HaConfig) (h : Host) :
    (viewCheck c h).sf = { h.sf with sfdomain := h.sf.sfdomain.maskUnconfig c.hostnum, raw := (viewCheck c h).sf.raw } :=
  (checkPeers_frame c _ _ _ _ _ _).2

theorem viewCheck_weight (c : HaConfig) (h : Host) : (viewCheck c h).sf.weight = h.sf.weight := by
  rw [viewCheck_sf]

/-- The configured bits of every record are as they were. -/
theorem viewCheck_hbRaw (c : HaConfig) (h : Host) (j : Nat) {i : Nat} (hi : i < c.hostnum) :
    ((viewCheck c h).hb.raw j).hbdomain.isOn i = (h.hb.raw j).hbdomain.isOn i ∧
    ((viewCheck c h).hb.raw j).sfdomain.isOn i = (h.hb.raw j).sfdomain.isOn i := by
  rcases (checkPeers_raw c h.sm.currentLiveset (myHbdomain c h) (mySfdomain c h) (List.range c.hostnum)
    { h.hb with hbdomain := h.hb.hbdomain.maskUnconfig c.hostnum }
    { h.sf with sfdomain := h.sf.sfdomain.maskUnconfig c.hostnum } j).1 with he | he
  · change (viewCheck c h).hb.raw j = _ at he
    rw [he]; exact ⟨rfl, rfl⟩
  · change (viewCheck c h).hb.raw j = _ at he
    rw [he]; simp [RawData.maskUnconfig, hi]

theorem viewCheck_sfRaw (c : HaConfig) (h : Host) (j : Nat) {i : Nat} (hi : i < c.hostnum) :
    ((viewCheck c h).sf.raw j).hbdomain.isOn i = (h.sf.raw j).hbdomain.isOn i ∧
    ((viewCheck c h).sf.raw j).sfdomain.isOn i = (h.sf.raw j).sfdomain.isOn i := by
  rcases (checkPeers_raw c h.sm.currentLiveset (myHbdomain c h) (mySfdomain c h) (List.range c.hostnum)
    { h.hb with hbdomain := h.hb.hbdomain.maskUnconfig c.hostnum }
    { h.sf with sfdomain := h.sf.sfdomain.maskUnconfig c.hostnum } j).2 with he | he
  · change (viewCheck c h).sf.raw j = _ at he
    rw [he]; exact ⟨rfl, rfl⟩
  · change (viewCheck c h).sf.raw j = _ at he
    rw [he]; simp [RawData.maskUnconfig, hi]

/-! ## The frozen view -/

/-- The host once its view is frozen. -/
abbrev frozen (c : HaConfig) (h : Host) : Host := waitUntilAllHostsHaveConsistentView c h

/-- The hosts the merge of this host leaves. -/
def mergedHosts (c : HaConfig) (h : Host) : Finset Nat :=
  clique c h.sm.currentLiveset (myHbdomain c h) (mySfdomain c h) (viewCheck c h).hb (viewCheck c h).sf

theorem frozen_of_consistent {c : HaConfig} {h : Host} (hc : ConsistentView c h) :
    (frozen c h).smvar.stableHb = (viewCheck c h).hb ∧ (frozen c h).smvar.stableSf = (viewCheck c h).sf := by
  have hv := viewCheck_consistent.2 hc
  constructor
  · change (freezeView c h.sm (viewCheck c h).consistent _ _ _ _).1 = _
    rw [hv]; rfl
  · change (freezeView c h.sm (viewCheck c h).consistent _ _ _ _).2 = _
    rw [hv]; rfl

theorem frozen_of_timeout {c : HaConfig} {h : Host} (hc : ¬ ConsistentView c h) :
    let v := mergeView c h.sm.currentLiveset (myHbdomain c h) (mySfdomain c h) (viewCheck c h).hb (viewCheck c h).sf
    (frozen c h).smvar.stableHb = v.1 ∧ (frozen c h).smvar.stableSf = v.2 := by
  have hv : (viewCheck c h).consistent = false := by
    rw [← Bool.not_eq_true, viewCheck_consistent]; exact hc
  constructor
  · change (freezeView c h.sm (viewCheck c h).consistent _ _ _ _).1 = _
    rw [hv]; rfl
  · change (freezeView c h.sm (viewCheck c h).consistent _ _ _ _).2 = _
    rw [hv]; rfl

theorem frozen_excluded (c : HaConfig) (h : Host) :
    ((frozen c h).smvar.maskStable c.hostnum).stableSf.excluded = h.sf.excluded := by
  change (frozen c h).smvar.stableSf.excluded = _
  by_cases hc : ConsistentView c h
  · rw [(frozen_of_consistent hc).2, viewCheck_sf]
  · rw [(frozen_of_timeout hc).2]
    change (viewCheck c h).sf.excluded = _
    rw [viewCheck_sf]

theorem frozenHbd_of_consistent {c : HaConfig} {h : Host} (hc : ConsistentView c h) (i : Nat) :
    (frozenHbd c (frozen c h)).isOn i = (myHbdomain c h).isOn i := by
  unfold frozenHbd SmVar.maskStable myHbdomain
  rw [(frozen_of_consistent hc).1, viewCheck_hb]
  simp [waitUntilAllHostsHaveConsistentView]

theorem frozenSfd_of_consistent {c : HaConfig} {h : Host} (hc : ConsistentView c h) (i : Nat) :
    (frozenSfd c (frozen c h)).isOn i = (mySfdomain c h).isOn i := by
  unfold frozenSfd SmVar.maskStable mySfdomain
  rw [(frozen_of_consistent hc).2, viewCheck_sf]
  simp [waitUntilAllHostsHaveConsistentView]

theorem frozenHbd_of_timeout {c : HaConfig} {h : Host} (hc : ¬ ConsistentView c h) (i : Nat) :
    (frozenHbd c (frozen c h)).isOn i = true ↔
      h.sm.currentLiveset.isOn i = true ∧ c.myIndex ∈ mergedHosts c h ∧ i ∈ mergedHosts c h := by
  have hrec := (mergeView_record c h.sm.currentLiveset (myHbdomain c h) (mySfdomain c h) (viewCheck c h).hb
    (viewCheck c h).sf c.myIndex_lt).1
  have hi := Finset.ext_iff.1 hrec i
  rw [HostMap.mem_hosts] at hi
  have hon : (frozenHbd c (frozen c h)).isOn i = true ↔ (i < c.hostnum ∧
      ((mergeView c h.sm.currentLiveset (myHbdomain c h) (mySfdomain c h) (viewCheck c h).hb
        (viewCheck c h).sf).2.raw c.myIndex).hbdomain.isOn i = true) ∧ h.sm.currentLiveset.isOn i = true := by
    unfold frozenHbd SmVar.maskStable
    rw [(frozen_of_timeout hc).1]
    dsimp only [waitUntilAllHostsHaveConsistentView]
    rw [HostMap.isOn_and, HostMap.isOn_maskUnconfig, Bool.and_eq_true, Bool.and_eq_true, decide_eq_true_eq,
      and_comm (a := i < c.hostnum)]
    rfl
  rw [hon, hi]
  unfold mergedHosts
  split
  · rename_i hme
    rw [Finset.mem_filter]
    tauto
  · rename_i hme
    simp [hme]

theorem frozenSfd_of_timeout {c : HaConfig} {h : Host} (hc : ¬ ConsistentView c h) (i : Nat) :
    (frozenSfd c (frozen c h)).isOn i = true ↔ i < c.hostnum ∧ (mySfdomain c h).isOn i = true ∧
      lostPeer c h.sm.currentLiveset (viewCheck c h).hb (viewCheck c h).sf i = false := by
  unfold frozenSfd SmVar.maskStable
  rw [(frozen_of_timeout hc).2]
  dsimp only [waitUntilAllHostsHaveConsistentView]
  rw [HostMap.isOn_and, HostMap.isOn_maskUnconfig, Bool.and_eq_true, Bool.and_eq_true, decide_eq_true_eq]
  change ((keptSfdomain c h.sm.currentLiveset (myHbdomain c h) (mySfdomain c h) (viewCheck c h).hb
    (viewCheck c h).sf).isOn i = true ∧ i < c.hostnum) ∧ _ ↔ _
  constructor
  · rintro ⟨⟨h1, h2⟩, -⟩
    rw [keptSfdomain_isOn c _ _ _ _ _ h2, Bool.and_eq_true, Bool.not_eq_true'] at h1
    exact ⟨h2, h1⟩
  · rintro ⟨h1, h2, h3⟩
    have hl : h.sm.currentLiveset.isOn i = true := by
      unfold mySfdomain at h2
      rw [HostMap.isOn_and, Bool.and_eq_true] at h2
      exact h2.2
    refine ⟨⟨?_, h1⟩, hl⟩
    rw [keptSfdomain_isOn c _ _ _ _ _ h1, h2, h3]
    rfl

/-- The frozen heartbeat domain never exceeds the local one. -/
theorem frozenHbd_sub (c : HaConfig) (h : Host) (i : Nat) (hi : (frozenHbd c (frozen c h)).isOn i = true) :
    (myHbdomain c h).isOn i = true := by
  by_cases hc : ConsistentView c h
  · rwa [frozenHbd_of_consistent hc] at hi
  · obtain ⟨-, hme, hik⟩ := (frozenHbd_of_timeout hc i).1 hi
    have hsub := clique_subset_graph c h.sm.currentLiveset (myHbdomain c h) (mySfdomain c h) (viewCheck c h).hb
      (viewCheck c h).sf hme hik
    rw [mergeGraph_self, HostMap.mem_hosts, HostMap.isOn_and, Bool.and_eq_true] at hsub
    exact hsub.2.1

/-- The frozen State-File domain never exceeds the local one. -/
theorem frozen_sfdomain_sub (c : HaConfig) (h : Host) (i : Nat)
    (hi : ((frozen c h).smvar.maskStable c.hostnum).stableSf.sfdomain.isOn i = true) : h.sf.sfdomain.isOn i = true := by
  change ((frozen c h).smvar.stableSf.sfdomain.maskUnconfig _).isOn i = true at hi
  rw [HostMap.isOn_maskUnconfig, Bool.and_eq_true, decide_eq_true_eq] at hi
  obtain ⟨hi, hlt⟩ := hi
  by_cases hc : ConsistentView c h
  · rw [(frozen_of_consistent hc).2, viewCheck_sf] at hi
    simpa [hlt] using hi
  · rw [(frozen_of_timeout hc).2] at hi
    change (keptSfdomain c h.sm.currentLiveset (myHbdomain c h) (mySfdomain c h) (viewCheck c h).hb
      (viewCheck c h).sf).isOn i = true at hi
    rw [keptSfdomain_isOn c _ _ _ _ _ hlt, mySfdomain] at hi
    simp only [HostMap.isOn_and, HostMap.isOn_maskUnconfig, Bool.and_eq_true] at hi
    exact hi.1.1.1

/-! ## The decision -/

theorem decideSurvival_winner (c : HaConfig) (h : Host) :
    (decideSurvival c h).1 = (wonByRule1 c (frozen c h) || wonByRule2 c (frozen c h)) := rfl

theorem decideSurvival_proposed {c : HaConfig} {h : Host} (harmed : h.smvar.fencing = .armed)
    (hwin : (decideSurvival c h).1 = true) (i : Nat) :
    (decideSurvival c h).2.sm.proposedLiveset.isOn i =
      (h.sm.proposedLiveset.isOn i && (!decide (i < c.hostnum) || ((frozenHbd c (frozen c h)).isOn i &&
        ((if wonByRule1 c (frozen c h) then h.smvar.sr2 else wonByRule2 c (frozen c h)) ||
          (frozenSfd c (frozen c h)).isOn i)))) := by
  have harmed' : (frozen c h).smvar.fencing = .armed := harmed
  refine (testSurvivalRule_proposed c (frozen c h) i).trans ?_
  rw [decideSurvival_winner] at hwin
  rw [hwin, harmed']
  simp only [decide_true, Bool.and_true, Bool.not_true, Bool.false_or]
  rfl

end Xha
