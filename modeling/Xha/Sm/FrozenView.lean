/-
The frozen view against the checked one: `wait_until_all_hosts_have_consistent_view` checks the domains in
one section under the locks and copies them in another, among the steps of the other threads. While none of
these changes a domain in between, the copies satisfy the comparisons of the check, up to the survival test
(`frozen_view_is_checked`): the comparisons are an invariant from the check to the copy.
-/
import Xha.Sm.Decision
import Xha.Sm.FaultHandler
import Xha.Lib.Transition

namespace Xha

open Loop Transition

/-! ## The view that is checked -/

/-- The four comparisons of the check hold against every other host of the liveset. -/
def ViewAgrees (c : HaConfig) (liveset : HostMap) (hb : ComDataHb) (sf : ComDataSf) : Prop :=
  ∀ i < c.hostnum, i ≠ c.myIndex → liveset.isOn i = true →
    sameView liveset (hb.hbdomain &&& liveset) (sf.sfdomain &&& liveset) i (hb.raw i) (sf.raw i) = true

/-- They hold of the frozen copies. -/
def Host.FrozenAgrees (c : HaConfig) (h : Host) : Prop :=
  ViewAgrees c h.sm.currentLiveset h.smvar.stableHb h.smvar.stableSf

instance (c : HaConfig) (h : Host) : Decidable (h.FrozenAgrees c) := by
  unfold Host.FrozenAgrees ViewAgrees; infer_instance

/-- A check that holds leaves records that pass its comparisons. -/
theorem checkPeers_sameView (c : HaConfig) (liveset myHbdomain mySfdomain : HostMap) :
    ∀ (l : List Nat) (hb : ComDataHb) (sf : ComDataSf),
      let r := checkPeers c liveset myHbdomain mySfdomain l hb sf
      r.1 = true → ∀ i ∈ l, i ≠ c.myIndex → liveset.isOn i = true →
        sameView liveset myHbdomain mySfdomain i (r.2.1.raw i) (r.2.2.raw i) = true
  | [], hb, sf => by simp
  | index :: rest, hb, sf => by
    simp only [checkPeers]
    split
    · rename_i hcmp
      split
      · rename_i hsame
        intro hr i hi hne hl
        rcases List.mem_cons.mp hi with rfl | hi
        · -- the hosts that follow can only mask the record once more
          obtain ⟨hhb, hsf⟩ := checkPeers_raw c liveset myHbdomain mySfdomain rest
            { hb with raw := Function.update hb.raw i ((hb.raw i).maskUnconfig c.hostnum) }
            { sf with raw := Function.update sf.raw i ((sf.raw i).maskUnconfig c.hostnum) } i
          simp only [Function.update_self, RawData.maskUnconfig_twice, or_self] at hhb hsf hsame
          rwa [hhb, hsf]
        · exact checkPeers_sameView c liveset myHbdomain mySfdomain rest _ _ hr i hi hne hl
      · intro hr
        cases hr
    · rename_i hcmp
      intro hr i hi hne hl
      rcases List.mem_cons.mp hi with rfl | hi
      · exact absurd (by simp [hne, hl]) hcmp
      · exact checkPeers_sameView c liveset myHbdomain mySfdomain rest _ _ hr i hi hne hl

/-- A check that holds leaves objects that agree. -/
theorem viewCheck_agrees {c : HaConfig} {h : Host} (hc : (viewCheck c h).consistent = true) :
    ViewAgrees c h.sm.currentLiveset (viewCheck c h).hb (viewCheck c h).sf := by
  intro i hi hne hl
  have hsame := checkPeers_sameView c h.sm.currentLiveset (myHbdomain c h) (mySfdomain c h) (List.range c.hostnum)
    { h.hb with hbdomain := h.hb.hbdomain.maskUnconfig c.hostnum }
    { h.sf with sfdomain := h.sf.sfdomain.maskUnconfig c.hostnum } hc i (List.mem_range.mpr hi) hne hl
  rw [viewCheck_hb, viewCheck_sf]
  exact hsame

/-! ## From the check to the copy -/

/-- The domains of a record are the same on the liveset. -/
def RawData.SameOn (liveset : HostMap) (raw raw' : RawData) : Prop :=
  raw'.hbdomain &&& liveset = raw.hbdomain &&& liveset ∧ raw'.sfdomain &&& liveset = raw.sfdomain &&& liveset

/-- The domains that the check compares are the same on the liveset. -/
structure Host.SameDomains (c : HaConfig) (h h' : Host) : Prop where
  hbdomain : h'.hb.hbdomain &&& h.sm.currentLiveset = h.hb.hbdomain &&& h.sm.currentLiveset
  sfdomain : h'.sf.sfdomain &&& h.sm.currentLiveset = h.sf.sfdomain &&& h.sm.currentLiveset
  raw : ∀ i < c.hostnum, i ≠ c.myIndex → h.sm.currentLiveset.isOn i = true →
    (h.hb.raw i).SameOn h.sm.currentLiveset (h'.hb.raw i) ∧ (h.sf.raw i).SameOn h.sm.currentLiveset (h'.sf.raw i)

theorem sameView_of_domains {liveset myHbdomain mySfdomain : HostMap} {i : Nat} {hbRaw sfRaw hbRaw' sfRaw' : RawData}
    (h1 : hbRaw.SameOn liveset hbRaw') (h2 : sfRaw.SameOn liveset sfRaw') :
    sameView liveset myHbdomain mySfdomain i hbRaw' sfRaw' = sameView liveset myHbdomain mySfdomain i hbRaw sfRaw := by
  unfold sameView
  rw [h1.1, h1.2, h2.1, h2.2]

theorem ViewAgrees.keep {c : HaConfig} {h h' : Host} (ha : ViewAgrees c h.sm.currentLiveset h.hb h.sf)
    (hs : h.SameDomains c h') : ViewAgrees c h.sm.currentLiveset h'.hb h'.sf := by
  intro i hi hne hl
  obtain ⟨hhb, hsf⟩ := hs.raw i hi hne hl
  rw [hs.hbdomain, hs.sfdomain, sameView_of_domains hhb hsf]
  exact ha i hi hne hl

/-- The runs of a host from the call of `wait_until_all_hosts_have_consistent_view` on. -/
def viewMachine (c : HaConfig) : Machine FhWorld FhAction where
  init w := w.pc = .body .fh2
  next := fhAct c

/-- Between a check that holds and the copy, a step of another thread leaves the domains on the liveset as they are. -/
def KeepsView (c : HaConfig) (w : FhWorld) (a : FhAction) : Prop :=
  match w.pc, a with
  | .freezing true _ _, .fh _ => True
  | .freezing true _ _, a => ∀ w', fhAct c w a = some w' → w.host.SameDomains c w'.host
  | _, _ => True

/-- What the other threads leave to the sm thread. -/
structure FhWorld.SameFrozen (w w' : FhWorld) : Prop where
  pc : w'.pc = w.pc
  liveset : w'.host.sm.currentLiveset = w.host.sm.currentLiveset
  stableHb : w'.host.smvar.stableHb = w.host.smvar.stableHb
  stableSf : w'.host.smvar.stableSf = w.host.smvar.stableSf

theorem FhStep.sameFrozen {c : HaConfig} {w w' : FhWorld} {a : FhAction} (hs : FhStep c w a w')
    (ha : ∀ timeout, a ≠ .fh timeout) : w.SameFrozen w' := by
  cases hs with
  | fh => exact absurd rfl (ha _)
  | receive now hidle hne hnewer htaken =>
    exact ⟨rfl, Host.smWriterUnlock_liveset _, (Host.smWriterUnlock_stable _).1, (Host.smWriterUnlock_stable _).2⟩
  | _ => exact ⟨rfl, rfl, rfl, rfl⟩

/-- The objects agree from a check that held to the copy. -/
def Checked (c : HaConfig) (w : FhWorld) : Prop :=
  ∀ myHbdomain mySfdomain, w.pc = .freezing true myHbdomain mySfdomain →
    ViewAgrees c w.host.sm.currentLiveset w.host.hb w.host.sf

theorem KeepsView.same {c : HaConfig} {w w' : FhWorld} {a : FhAction} (hk : KeepsView c w a)
    (ha : ∀ timeout, a ≠ .fh timeout) {myHbdomain mySfdomain : HostMap}
    (hpc : w.pc = .freezing true myHbdomain mySfdomain) (hn : fhAct c w a = some w') :
    w.host.SameDomains c w'.host := by
  unfold KeepsView at hk
  rw [hpc] at hk
  cases a with
  | fh timeout => exact absurd rfl (ha timeout)
  | _ => exact hk w' hn

theorem Checked.step {c : HaConfig} {w w' : FhWorld} {a : FhAction} (h : Checked c w) (hk : KeepsView c w a)
    (hn : fhAct c w a = some w') : Checked c w' := by
  intro myHbdomain mySfdomain hpc'
  have hs := fhAct_step hn
  by_cases ha : ∀ timeout, a ≠ .fh timeout
  · have hf := hs.sameFrozen ha
    have hpc := hf.pc.symm.trans hpc'
    rw [hf.liveset]
    exact (h _ _ hpc).keep (hk.same ha hpc hn)
  · simp only [ne_eq, not_forall, not_not] at ha
    obtain ⟨timeout, rfl⟩ := ha
    cases hs with
    | fh hm =>
      generalize w.pc = pc at hm
      cases hm with
      | leave =>
        injection hpc' with hc
        exact viewCheck_agrees hc
      | _ => cases hpc'

/-! ## From the copy to the survival test -/

/-- The first clause of Survival Rule-1: the heartbeat domain covers the State-File domain. -/
def firstClause (c : HaConfig) (h : Host) : Bool :=
  (frozenSfd c h).subsetEqual (frozenHbd c h) && !isEmptyLiveset c.hostnum (frozenSfd c h)

/-- A host that satisfies it wins whatever the weights are. -/
theorem wins_of_firstClause {c : HaConfig} {h : Host} (hf : firstClause c h = true) :
    wonByRule1 c h = true ∧ (testSurvivalRule c h).1 = true := by
  have hw : wonByRule1 c h = true := by
    unfold wonByRule1 survivalRule1
    exact if_pos hf
  exact ⟨hw, by rw [testSurvivalRule_winner, hw, Bool.true_or]⟩

/-- The frozen domains are not empty and self-inclusive. -/
structure Host.FrozenSelf (c : HaConfig) (h : Host) : Prop where
  own : h.smvar.stableHb.hbdomain.isOn c.myIndex = true
  peers : ∀ i < c.hostnum, i ≠ c.myIndex → h.smvar.stableSf.sfdomain.isOn i = true →
    (h.smvar.stableSf.raw i).hbdomain.isOn i = true
  nonempty : ∃ i < c.hostnum, h.sm.currentLiveset.isOn i = true ∧ h.smvar.stableSf.sfdomain.isOn i = true

instance (c : HaConfig) (h : Host) : Decidable (h.FrozenSelf c) :=
  decidable_of_iff (h.smvar.stableHb.hbdomain.isOn c.myIndex = true ∧
    (∀ i < c.hostnum, i ≠ c.myIndex → h.smvar.stableSf.sfdomain.isOn i = true →
      (h.smvar.stableSf.raw i).hbdomain.isOn i = true) ∧
    ∃ i < c.hostnum, h.sm.currentLiveset.isOn i = true ∧ h.smvar.stableSf.sfdomain.isOn i = true)
    ⟨fun hs => ⟨hs.1, hs.2.1, hs.2.2⟩, fun hs => ⟨hs.own, hs.peers, hs.nonempty⟩⟩

theorem frozenHbd_isOn (c : HaConfig) (h : Host) {i : Nat} (hi : i < c.hostnum) :
    (frozenHbd c h).isOn i = (h.smvar.stableHb.hbdomain.isOn i && h.sm.currentLiveset.isOn i) := by
  simp [frozenHbd, SmVar.maskStable, hi]

theorem frozenSfd_isOn (c : HaConfig) (h : Host) (i : Nat) :
    (frozenSfd c h).isOn i = (h.smvar.stableSf.sfdomain.isOn i && decide (i < c.hostnum) && h.sm.currentLiveset.isOn i) := by
  simp [frozenSfd, SmVar.maskStable]

/-- Agreeing self-inclusive copies satisfy the first clause. -/
theorem Host.FrozenAgrees.firstClause {c : HaConfig} {h : Host} (ha : h.FrozenAgrees c) (hs : h.FrozenSelf c) :
    firstClause c h = true := by
  rw [Xha.firstClause, Bool.and_eq_true, HostMap.subsetEqual_iff, Bool.not_eq_true', isEmptyLiveset_eq_false]
  constructor
  · intro i hi
    rw [frozenSfd_isOn, Bool.and_eq_true, Bool.and_eq_true, decide_eq_true_iff] at hi
    obtain ⟨⟨hsf, hlt⟩, hl⟩ := hi
    rw [frozenHbd_isOn c h hlt, hl, Bool.and_true]
    by_cases hne : i = c.myIndex
    · rw [hne]
      exact hs.own
    · have hon : (h.smvar.stableSf.sfdomain &&& h.sm.currentLiveset).isOn i = true := by simp [hsf, hl]
      obtain ⟨-, heq⟩ := (sameView_iff.mp (ha i hlt hne hl)).2 hon
      have hself : ((h.smvar.stableSf.raw i).hbdomain &&& h.sm.currentLiveset).isOn i = true := by
        simp [hs.peers i hlt hne hsf, hl]
      rw [← heq] at hself
      simpa [hl] using hself
  · obtain ⟨i, hlt, hl, hsf⟩ := hs.nonempty
    exact ⟨i, hlt, by rw [frozenSfd_isOn]; simp [hlt, hl, hsf]⟩

/-- The runs that follow the copy. -/
def frozenMachine (c : HaConfig) (w : FhWorld) : Machine FhWorld FhAction where
  init v := v = w
  next := fhAct c

/-- The survival test is still to come. -/
def FhPc.beforeTest : FhPc → Bool
  | .done .fh2 | .wait1 .fh3 | .met1 .fh3 | .wait2 .fh3 => true
  | _ => false

def BeforeTest (w : FhWorld) (_ : FhAction) : Prop := w.pc.beforeTest = true

/-- No step before the test touches the frozen copies or the liveset. -/
theorem frozen_kept {c : HaConfig} {w v : FhWorld} (hr : (frozenMachine c w).Reach BeforeTest v) :
    v.host.sm.currentLiveset = w.host.sm.currentLiveset ∧ v.host.smvar.stableHb = w.host.smvar.stableHb ∧
      v.host.smvar.stableSf = w.host.smvar.stableSf := by
  refine hr.inv (I := fun v => v.host.sm.currentLiveset = w.host.sm.currentLiveset ∧
    v.host.smvar.stableHb = w.host.smvar.stableHb ∧ v.host.smvar.stableSf = w.host.smvar.stableSf)
    (fun v hv => hv ▸ ⟨rfl, rfl, rfl⟩) fun v v' a hv hb hn => ?_
  have hs := fhAct_step hn
  obtain ⟨hl, hhb, hsf⟩ := hv
  by_cases ha : ∀ timeout, a ≠ .fh timeout
  · have hf := hs.sameFrozen ha
    exact ⟨hf.liveset.trans hl, hf.stableHb.trans hhb, hf.stableSf.trans hsf⟩
  · simp only [ne_eq, not_forall, not_not] at ha
    obtain ⟨timeout, rfl⟩ := ha
    unfold BeforeTest at hb
    cases hs with
    | fh hm =>
      generalize v.pc = pc at hm hb
      cases hm with
      | met1 | met2 => exact ⟨hl, hhb, hsf⟩
      | set2 | set1 =>
        exact ⟨(Host.smWriterUnlock_liveset _).trans hl, (Host.smWriterUnlock_stable _).1.trans hhb,
          (Host.smWriterUnlock_stable _).2.trans hsf⟩
      | _ => cases hb

/-- The frozen view is the checked one: in every run in which no thread changes the domains on the liveset between a
check that holds and the copy, a consistent exit leaves copies that pass the comparisons of the check; when these are self-inclusive and
not empty, the survival test that follows is won by the first clause. -/
theorem frozen_view_is_checked {c : HaConfig} {w w' : FhWorld} {timeout : Bool} {myHbdomain mySfdomain : HostMap}
    (hr : (viewMachine c).Reach (KeepsView c) w) (hpc : w.pc = .freezing true myHbdomain mySfdomain)
    (hn : fhAct c w (.fh timeout) = some w') :
    w'.host.FrozenAgrees c ∧
      (w'.host.FrozenSelf c → ∀ v, (frozenMachine c w').Reach BeforeTest v →
        firstClause c v.host = true ∧ (testSurvivalRule c v.host).1 = true) := by
  have hchecked : Checked c w :=
    hr.inv (fun s hs _ _ hpc => by rw [show s.pc = .body .fh2 from hs] at hpc; cases hpc)
      fun _ _ _ h hk hn => h.step hk hn
  have hagrees : w'.host.FrozenAgrees c := by
    have ha := hchecked _ _ hpc
    cases fhAct_step hn with
    | fh hm =>
      rw [hpc] at hm
      cases hm with
      | freeze => exact ha
  refine ⟨hagrees, fun hself v hv => ?_⟩
  obtain ⟨hl, hhb, hsf⟩ := frozen_kept hv
  have hclause : firstClause c v.host = true := by
    refine Host.FrozenAgrees.firstClause ?_ ⟨?_, ?_, ?_⟩
    · unfold Host.FrozenAgrees
      rw [hl, hhb, hsf]
      exact hagrees
    · rw [hhb]
      exact hself.own
    · rw [hsf]
      exact hself.peers
    · rw [hl, hsf]
      exact hself.nonempty
  exact ⟨hclause, (wins_of_firstClause hclause).2⟩

/-! ### Two hosts that agree -/

/-- Host 0 of a pool of two, about to check: everybody is in every domain, and host 1 has not been heard lately. -/
def agreedHost : FhWorld where
  host :=
    { sm := { ComDataSm.initial with currentLiveset := 3, proposedLiveset := 3, fencing := .armed, phase := .fh2 }
      hb := { ComDataHb.initial with hbdomain := 3, raw := fun _ => ⟨3, 3, 3, 3⟩, timeLastHb := fun _ => 0 }
      sf := { ComDataSf.initial 0 with
        ctl := ⟨true, true, false⟩, sfdomain := 3, sfAccess := true, raw := fun _ => ⟨3, 3, 3, 3⟩ }
      smvar := { SmVar.initial 0 with phase := .fh2, fencing := .armed, joinBlock := true } }
  pc := .body .fh2
  hbReceive := .idle
  smWorker := .idle
  hbSequence _ := 0

/-- Nothing happens between the check and the copy: the first clause wins. -/
theorem frozen_view_is_checked_pair :
    ∃ w' : FhWorld, w'.host.FrozenAgrees .pair ∧ firstClause .pair w'.host = true ∧
      (testSurvivalRule .pair w'.host).1 = true := by
  obtain ⟨w, hw, hpc, hfreeze⟩ : ∃ w, fhAct .pair agreedHost (.fh false) = some w ∧ w.pc = .freezing true 3 3 ∧
      (fhAct .pair w (.fh false)).any (fun w' => decide (w'.host.FrozenSelf .pair)) = true :=
    ⟨_, rfl, by decide, by decide⟩
  obtain ⟨w', hw', hself⟩ := (Option.any_eq_true _ _).mp hfreeze
  obtain ⟨hagrees, hwin⟩ := frozen_view_is_checked
    (Machine.Reach.step (M := viewMachine .pair) (a := .fh false) (.init (s := agreedHost) rfl) trivial hw) hpc hw'
  obtain ⟨hclause, hwins⟩ := hwin (of_decide_eq_true hself) w' (.init rfl)
  exact ⟨w', hagrees, hclause, hwins⟩

/-- `update_hbdomain` drops host 1 between the check and the copy: the copies do not pass the comparisons, and the
first clause is not satisfied although they are self-inclusive. -/
theorem frozen_view_is_not_checked :
    ∃ w w' : FhWorld, (viewMachine .pair).Reachable w ∧ w.pc = .freezing true 3 3 ∧
      fhAct .pair w (.fh false) = some w' ∧ w'.host.FrozenSelf .pair ∧ ¬w'.host.FrozenAgrees .pair ∧
      firstClause .pair w'.host = false := by
  have hrun : ∃ w, (viewMachine .pair).Reachable w ∧
      (decide (w.pc = .freezing true 3 3) && (fhAct .pair w (.fh false)).any fun w' =>
        decide (w'.host.FrozenSelf .pair ∧ ¬w'.host.FrozenAgrees .pair ∧ firstClause .pair w'.host = false)) = true :=
    Machine.reach_of_check (s := agreedHost) rfl [.fh false, .updateHbdomain 1000000] _ (by decide +kernel)
  obtain ⟨w, hw, hp⟩ := hrun
  rw [Bool.and_eq_true, decide_eq_true_iff, Option.any_eq_true] at hp
  obtain ⟨hpc, w', hw', hp⟩ := hp
  exact ⟨w, w', hw, hpc, hw', of_decide_eq_true hp⟩

end Xha
