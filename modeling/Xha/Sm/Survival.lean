/-
`test_Survival_Rule` (sm.c): the verdict on the frozen view by the two survival rules, and the
removal of the hosts that did not survive from the proposed liveset and the local domains.
-/
import Xha.Sm.View

namespace Xha

open Loop

/-! ## The rules -/

/-- Whether the frozen view shows `index` with State-File access. -/
def sfAccessOf (c : HaConfig) (phb : ComDataHb) (psf : ComDataSf) (index : Nat) : Bool :=
  if index = c.myIndex then psf.sfAccess else (phb.raw index).sfdomain.isOn index

/-- Survival Rule-2: nobody the local host hears has the State-File, and who it does not hear is excluded. -/
def survivalRule2 (c : HaConfig) (hbd : HostMap) (phb : ComDataHb) (psf : ComDataSf) : Bool :=
  forRange c.hostnum true fun sr2 index =>
    let sfAccess := sfAccessOf c phb psf index
    let excluded := psf.excluded.isOn index
    let inHbd := hbd.isOn index
    if (inHbd && sfAccess) || (!inHbd && !excluded) then false else sr2

/-- Survival Rule-1: the heartbeat domain covers the State-File domain, or the vote is won. -/
def survivalRule1 (c : HaConfig) (hbd sfd : HostMap) (phb : ComDataHb) (psf : ComDataSf) : Bool :=
  if sfd.subsetEqual hbd && !isEmptyLiveset c.hostnum sfd then true
  else amIInLargestPartition c phb psf psf.weight

/-! ## The removal -/

/-- Take host `index` off the proposed liveset and off the domains that still have it. -/
def Host.removeFromDomains (h : Host) (index : Nat) : Host :=
  let h := { h with sm := { h.sm with proposedLiveset := h.sm.proposedLiveset.reset index } }
  let h := if h.hb.hbdomain.isOn index then
      { h with hb := { h.hb with hbdomain := h.hb.hbdomain.reset index }, smvar := { h.smvar with fhSleepExtend := true } }
    else h
  if h.sf.sfdomain.isOn index then
    { h with sf := { h.sf with sfdomain := h.sf.sfdomain.reset index }, smvar := { h.smvar with fhSleepExtend := true } }
  else h

/-- Host `index` is not in both domains; under Survival Rule-2 everybody counts as in the State-File's. -/
def lostIn (hbd sfd : HostMap) (sr2 : Bool) (index : Nat) : Bool :=
  let inHbd := hbd.isOn index
  let inSfd := if sr2 then true else sfd.isOn index
  !inHbd || !inSfd

/-- Remove every configured host that is not in both domains. -/
def Host.removeLost (n : Nat) (hbd sfd : HostMap) (sr2 : Bool) (h : Host) : Host :=
  forRange n h fun h index => if lostIn hbd sfd sr2 index then h.removeFromDomains index else h

/-! ## The test -/

/-- The frozen domains are masked, and become the domains the next degradation is measured against. -/
def SmVar.maskStable (n : Nat) (v : SmVar) : SmVar :=
  let phb := { v.stableHb with hbdomain := v.stableHb.hbdomain.maskUnconfig n }
  let psf := { v.stableSf with sfdomain := v.stableSf.sfdomain.maskUnconfig n }
  { v with stableHb := phb, stableSf := psf, lastHbdomain := phb.hbdomain, lastSfdomain := psf.sfdomain }

/-- `test_Survival_Rule(&smvar.SR2)`. -/
def testSurvivalRule (c : HaConfig) (h : Host) : Bool × Host :=
  let smvar := h.smvar.maskStable c.hostnum
  let hbd := smvar.stableHb.hbdomain &&& h.sm.currentLiveset
  let sfd := smvar.stableSf.sfdomain &&& h.sm.currentLiveset
  let rule1 := survivalRule1 c hbd sfd smvar.stableHb smvar.stableSf
  let rule2 := survivalRule2 c hbd smvar.stableHb smvar.stableSf
  -- a host that wins by the first rule keeps the SR2 it had
  let sr2 := if rule1 then smvar.sr2 else rule2
  let winner := rule1 || rule2
  let h := { h with
    sm := if !rule1 && rule2 then { h.sm with sr2 := true } else h.sm
    smvar := { smvar with sr2 := sr2, fhSleepExtend := false } }
  let h := if winner && h.smvar.fencing = .armed then h.removeLost c.hostnum hbd sfd sr2 else h
  (winner, h.smWriterUnlock)

/-- Phases 2 and 3 of the fault handler on a state that does not change under it. -/
def decideSurvival (c : HaConfig) (h : Host) : Bool × Host :=
  testSurvivalRule c (waitUntilAllHostsHaveConsistentView c h)

/-! ## What the rules ask -/

theorem survivalRule2_iff {c : HaConfig} {hbd : HostMap} {phb : ComDataHb} {psf : ComDataSf} :
    survivalRule2 c hbd phb psf = true ↔ ∀ i < c.hostnum,
      (hbd.isOn i = true → sfAccessOf c phb psf i = false) ∧ (hbd.isOn i = false → psf.excluded.isOn i = true) := by
  have key : ∀ m, forRange m true (fun sr2 index =>
      if (hbd.isOn index && sfAccessOf c phb psf index) || (!hbd.isOn index && !psf.excluded.isOn index) then false
      else sr2) = true ↔ ∀ i < m,
        (hbd.isOn i = true → sfAccessOf c phb psf i = false) ∧ (hbd.isOn i = false → psf.excluded.isOn i = true) := by
    intro m
    induction m with
    | zero => simp
    | succ m ih =>
      rw [forRange_succ, Nat.forall_lt_succ_right, ← ih]
      cases hbd.isOn m <;> cases sfAccessOf c phb psf m <;> cases psf.excluded.isOn m <;> simp
  exact key c.hostnum

theorem survivalRule1_iff {c : HaConfig} {hbd sfd : HostMap} {phb : ComDataHb} {psf : ComDataSf} :
    survivalRule1 c hbd sfd phb psf = true ↔
      ((∀ i, sfd.isOn i = true → hbd.isOn i = true) ∧ (∃ i, i < c.hostnum ∧ sfd.isOn i = true)) ∨
        amIInLargestPartition c phb psf psf.weight = true := by
  unfold survivalRule1
  rw [← HostMap.subsetEqual_iff, ← isEmptyLiveset_eq_false]
  cases sfd.subsetEqual hbd <;> cases isEmptyLiveset c.hostnum sfd <;> simp

/-! ## What the removal leaves -/

@[simp] theorem Host.removeFromDomains_proposed (h : Host) (index : Nat) :
    (h.removeFromDomains index).sm.proposedLiveset = h.sm.proposedLiveset.reset index := by
  unfold removeFromDomains
  dsimp only
  split <;> split <;> rfl

@[simp] theorem Host.removeFromDomains_stable (h : Host) (index : Nat) :
    (h.removeFromDomains index).smvar.stableHb = h.smvar.stableHb ∧
    (h.removeFromDomains index).smvar.stableSf = h.smvar.stableSf := by
  unfold removeFromDomains
  dsimp only
  split <;> split <;> exact ⟨rfl, rfl⟩

@[simp] theorem Host.removeFromDomains_sr2 (h : Host) (index : Nat) :
    (h.removeFromDomains index).sm.sr2 = h.sm.sr2 := by
  unfold removeFromDomains
  dsimp only
  split <;> split <;> rfl

theorem Host.removeLost_proposed (n : Nat) (hbd sfd : HostMap) (sr2 : Bool) (h : Host) (i : Nat) :
    (h.removeLost n hbd sfd sr2).sm.proposedLiveset.isOn i =
      (h.sm.proposedLiveset.isOn i && (!decide (i < n) || (hbd.isOn i && (sr2 || sfd.isOn i)))) := by
  refine forRange_inv (fun k (t : Host) => t.sm.proposedLiveset.isOn i =
    (h.sm.proposedLiveset.isOn i && (!decide (i < k) || (hbd.isOn i && (sr2 || sfd.isOn i))))) (by simp)
    fun k t hk ht => ?_
  by_cases hki : k = i
  · subst hki
    cases h1 : hbd.isOn k <;> cases sr2 <;> cases h2 : sfd.isOn k <;> simp [lostIn, ht, h1, h2]
  · have : i < k + 1 ↔ i < k := by omega
    split <;> simp [ht, hki, this]

theorem Host.removeLost_frame (n : Nat) (hbd sfd : HostMap) (sr2 : Bool) (h : Host) :
    (h.removeLost n hbd sfd sr2).smvar.stableHb = h.smvar.stableHb ∧
    (h.removeLost n hbd sfd sr2).smvar.stableSf = h.smvar.stableSf ∧
    (h.removeLost n hbd sfd sr2).sm.sr2 = h.sm.sr2 := by
  refine forRange_inv (fun _ (t : Host) => t.smvar.stableHb = h.smvar.stableHb ∧ t.smvar.stableSf = h.smvar.stableSf ∧
    t.sm.sr2 = h.sm.sr2) ⟨rfl, rfl, rfl⟩ fun k t _ ht => ?_
  split
  · simpa using ht
  · exact ht

@[simp] theorem Host.smWriterUnlock_proposed (h : Host) :
    h.smWriterUnlock.sm.proposedLiveset = h.sm.proposedLiveset := by
  unfold smWriterUnlock; split <;> rfl

theorem Host.smWriterUnlock_liveset (h : Host) : h.smWriterUnlock.sm.currentLiveset = h.sm.currentLiveset := by
  unfold smWriterUnlock; split <;> rfl

@[simp] theorem Host.smWriterUnlock_sr2 (h : Host) : h.smWriterUnlock.smvar.sr2 = h.sm.sr2 := by
  unfold smWriterUnlock; split <;> rfl

@[simp] theorem Host.smWriterUnlock_stable (h : Host) :
    h.smWriterUnlock.smvar.stableHb = h.smvar.stableHb ∧ h.smWriterUnlock.smvar.stableSf = h.smvar.stableSf := by
  unfold smWriterUnlock; split <;> exact ⟨rfl, rfl⟩

/-! ## The test on a frozen view -/

section

variable (c : HaConfig) (h : Host)

/-- The frozen heartbeat domain within the liveset. -/
def frozenHbd : HostMap := (h.smvar.maskStable c.hostnum).stableHb.hbdomain &&& h.sm.currentLiveset

/-- The frozen State-File domain within the liveset. -/
def frozenSfd : HostMap := (h.smvar.maskStable c.hostnum).stableSf.sfdomain &&& h.sm.currentLiveset

/-- The verdict of the first rule on the frozen view. -/
def wonByRule1 : Bool :=
  survivalRule1 c (frozenHbd c h) (frozenSfd c h) (h.smvar.maskStable c.hostnum).stableHb
    (h.smvar.maskStable c.hostnum).stableSf

/-- The verdict of the second rule on the frozen view. -/
def wonByRule2 : Bool :=
  survivalRule2 c (frozenHbd c h) (h.smvar.maskStable c.hostnum).stableHb (h.smvar.maskStable c.hostnum).stableSf

theorem testSurvivalRule_winner : (testSurvivalRule c h).1 = (wonByRule1 c h || wonByRule2 c h) := rfl

theorem testSurvivalRule_proposed (i : Nat) :
    (testSurvivalRule c h).2.sm.proposedLiveset.isOn i =
      (h.sm.proposedLiveset.isOn i &&
        (!((wonByRule1 c h || wonByRule2 c h) && h.smvar.fencing = .armed) || !decide (i < c.hostnum) ||
          ((frozenHbd c h).isOn i &&
            ((if wonByRule1 c h then h.smvar.sr2 else wonByRule2 c h) || (frozenSfd c h).isOn i)))) := by
  have key : ∀ (rule1 rule2 : Bool) (s : Host), s.sm.proposedLiveset = h.sm.proposedLiveset →
      s.smvar.fencing = h.smvar.fencing →
      (if (rule1 || rule2) && s.smvar.fencing = .armed then
        s.removeLost c.hostnum (frozenHbd c h) (frozenSfd c h) (if rule1 then h.smvar.sr2 else rule2)
        else s).smWriterUnlock.sm.proposedLiveset.isOn i =
      (h.sm.proposedLiveset.isOn i &&
        (!((rule1 || rule2) && h.smvar.fencing = .armed) || !decide (i < c.hostnum) ||
          ((frozenHbd c h).isOn i && ((if rule1 then h.smvar.sr2 else rule2) || (frozenSfd c h).isOn i)))) := by
    intro rule1 rule2 s hp hf
    rw [Host.smWriterUnlock_proposed, hf]
    cases hw : ((rule1 || rule2) && decide (h.smvar.fencing = .armed)) with
    | true => rw [if_pos rfl, Host.removeLost_proposed, hp]; simp
    | false => rw [if_neg (by simp), hp]; simp
  refine key (wonByRule1 c h) (wonByRule2 c h) _ ?_ rfl
  dsimp only
  split <;> rfl

theorem testSurvivalRule_sr2 :
    (testSurvivalRule c h).2.smvar.sr2 = (h.sm.sr2 || (!wonByRule1 c h && wonByRule2 c h)) := by
  have key : ∀ (rule1 rule2 : Bool) (s : Host), s.sm.sr2 = (h.sm.sr2 || (!rule1 && rule2)) →
      ∀ sr2 : Bool, (if (rule1 || rule2) && s.smvar.fencing = .armed then
        s.removeLost c.hostnum (frozenHbd c h) (frozenSfd c h) sr2 else s).smWriterUnlock.smvar.sr2 =
      (h.sm.sr2 || (!rule1 && rule2)) := by
    intro rule1 rule2 s hs sr2
    rw [Host.smWriterUnlock_sr2]
    split
    · rw [(Host.removeLost_frame ..).2.2, hs]
    · exact hs
  refine key (wonByRule1 c h) (wonByRule2 c h) _ ?_ _
  dsimp only
  split
  · rename_i hr
    change (!wonByRule1 c h && wonByRule2 c h) = true at hr
    rw [hr, Bool.or_true]
  · rename_i hr
    change ¬ (!wonByRule1 c h && wonByRule2 c h) = true at hr
    rw [Bool.not_eq_true] at hr
    rw [hr, Bool.or_false]

theorem testSurvivalRule_stable :
    (testSurvivalRule c h).2.smvar.stableHb = (h.smvar.maskStable c.hostnum).stableHb ∧
    (testSurvivalRule c h).2.smvar.stableSf = (h.smvar.maskStable c.hostnum).stableSf := by
  have key : ∀ (s : Host) (b : Bool) (sr2 : Bool), (if b then
        s.removeLost c.hostnum (frozenHbd c h) (frozenSfd c h) sr2 else s).smWriterUnlock.smvar.stableHb =
        s.smvar.stableHb ∧ (if b then
        s.removeLost c.hostnum (frozenHbd c h) (frozenSfd c h) sr2 else s).smWriterUnlock.smvar.stableSf =
        s.smvar.stableSf := by
    intro s b sr2
    obtain ⟨h1, h2, -⟩ := Host.removeLost_frame c.hostnum (frozenHbd c h) (frozenSfd c h) sr2 s
    rw [(Host.smWriterUnlock_stable _).1, (Host.smWriterUnlock_stable _).2]
    split
    · exact ⟨h1, h2⟩
    · exact ⟨rfl, rfl⟩
  exact key _ _ _

end

end Xha
