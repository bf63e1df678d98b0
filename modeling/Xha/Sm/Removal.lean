/-
The hosts an armed winner removes: from the end of `test_Survival_Rule` to the end of `fault_handler` no
other thread brings them back to the domains or to the livesets, whatever they still send
(`removed_stay_removed`). The survival test takes such a host out, and every step keeps it out (`KeptOut`).
-/
import Xha.Sm.Degradation
import Xha.Sm.Join

namespace Xha

open Loop Transition

/-! ## The host with its worker -/

/-- The steps of a host, with `process_join_request` of its worker thread. -/
inductive WinnerAction
  | other (a : FhAction)
  | processJoinRequest

/-- A step of the host. -/
def winnerNext (c : HaConfig) (w : FhWorld) : WinnerAction → Option FhWorld
  | .other a => fhAct c w a
  | .processJoinRequest =>
    if w.smWorker = .idle then some { w with host := processJoinRequest c w.host } else none

/-- The runs of a host from `wait_fh_event` on. -/
def winnerMachine (c : HaConfig) : Machine FhWorld WinnerAction where
  init w := w.pc = .body .started
  next := winnerNext c

/-- The host has run its fault handler up to the survival test, is armed, and wins. -/
structure FhWorld.Wins (c : HaConfig) (w : FhWorld) : Prop where
  reached : (winnerMachine c).Reachable w
  atTest : w.pc = .body .fh3
  armed : w.host.smvar.fencing = .armed
  won : (testSurvivalRule c w.host).1 = true

/-- The host leaves `test_Survival_Rule`. -/
def FhWorld.afterTest (c : HaConfig) (w : FhWorld) : FhWorld :=
  { w with host := (testSurvivalRule c w.host).2, pc := .done .fh3 }

/-- The runs of the host from there on. -/
def removalMachine (c : HaConfig) (w : FhWorld) : Machine FhWorld WinnerAction where
  init v := v = w.afterTest c
  next := winnerNext c

/-- The run is still in the fault handler, and fencing is armed. -/
def InHandler (w : FhWorld) (_ : WinnerAction) : Prop :=
  w.host.smvar.joinBlock = true ∧ w.host.smvar.fencing = .armed

/-- The other hosts that `test_Survival_Rule` removes. -/
def Host.Removes (c : HaConfig) (h : Host) (j : Nat) : Prop :=
  j < c.hostnum ∧ j ≠ c.myIndex ∧
    lostIn (frozenHbd c h) (frozenSfd c h) (if wonByRule1 c h then h.smvar.sr2 else wonByRule2 c h) j = true

/-- The liveset has been updated by phase 4. -/
def FhPc.livesetUpdated : FhPc → Bool
  | .done .fh4 | .wait1 .started | .met1 .started | .wait2 .started | .body .started => true
  | _ => false

/-- From the end of the survival test to the end of the fault handler. -/
def FhPc.pastTest : FhPc → Bool
  | .done .fh3 | .wait1 .fh4 | .met1 .fh4 | .wait2 .fh4 | .body .fh4 | .fencing => true
  | pc => pc.livesetUpdated

/-! ## Joins are blocked throughout the fault handler -/

/-- Outside `wait_fh_event` the host runs its fault handler. -/
def FhPc.inHandler : FhPc → Bool
  | .body .started | .done .started => false
  | _ => true

theorem testSurvivalRule_joinBlock {c : HaConfig} {h : Host} :
    (testSurvivalRule c h).2.smvar.joinBlock = h.smvar.joinBlock := by
  have hun : ∀ (t : Host) (b : Bool) hbd sfd sr2,
      (if b then t.removeLost c.hostnum hbd sfd sr2 else t).smWriterUnlock.smvar.joinBlock = t.smvar.joinBlock := by
    intro t b hbd sfd sr2
    rw [Host.smWriterUnlock_joinBlock]
    split
    · rw [(t.removeLost_spec c.hostnum hbd sfd sr2).smvar]
    · rfl
  exact hun _ _ _ _ _

/-- The sm thread blocks joins before it enters the fault handler, and allows them only at its end. -/
theorem FhMove.joinBlock {c : HaConfig} {timeout : Bool} {h h' : Host} {pc pc' : FhPc}
    (hm : FhMove c timeout h pc h' pc') (hb : pc.inHandler = true → h.smvar.joinBlock = true)
    (hin : pc'.inHandler = true) : h'.smvar.joinBlock = true := by
  cases hm with
  | set2 | commit | update => exact (Host.smWriterUnlock_joinBlock _).trans (hb rfl)
  | set1 s hs =>
    have hdone : (FhPc.done s).inHandler = true := by
      cases s
      case started => exact absurd rfl hs
      all_goals rfl
    exact (Host.smWriterUnlock_joinBlock _).trans (hb hdone)
  | blockJoins => exact Host.smWriterUnlock_joinBlock _
  | won | lost | notFenced => exact testSurvivalRule_joinBlock.trans (hb rfl)
  | allowJoins | event => cases hin
  | _ => exact hb rfl

/-- The other threads leave the sm thread and `join_block` alone. -/
theorem fhAct_frame {c : HaConfig} {w w' : FhWorld} {a : FhAction} (ha : ∀ timeout, a ≠ .fh timeout)
    (hn : fhAct c w a = some w') : w'.pc = w.pc ∧ w'.host.smvar.joinBlock = w.host.smvar.joinBlock := by
  cases fhAct_step hn with
  | fh => exact absurd rfl (ha _)
  | receive => exact ⟨rfl, Host.smWriterUnlock_joinBlock _⟩
  | _ => exact ⟨rfl, rfl⟩

theorem processJoinRequest_joinBlock (c : HaConfig) (h : Host) :
    (processJoinRequest c h).smvar.joinBlock = h.smvar.joinBlock :=
  Host.smWriterUnlock_joinBlock _

/-- In the fault handler of every run `join_block` is TRUE. -/
theorem joinBlock_of_inHandler {c : HaConfig} {w : FhWorld} (hr : (winnerMachine c).Reachable w) :
    w.pc.inHandler = true → w.host.smvar.joinBlock = true := by
  refine Machine.Reach.inv (I := fun w : FhWorld => w.pc.inHandler = true → w.host.smvar.joinBlock = true)
    (fun w hw => ?_) (fun w w' a hw _ hn => ?_) hr
  · rw [show w.pc = _ from hw]
    intro h
    cases h
  · cases a with
    | processJoinRequest =>
      simp only [winnerMachine, winnerNext] at hn
      split at hn <;> cases hn
      exact fun hin => (processJoinRequest_joinBlock c w.host).trans (hw hin)
    | other a =>
      by_cases ha : ∃ timeout, a = .fh timeout
      · obtain ⟨timeout, rfl⟩ := ha
        have hn : fhAct c w (.fh timeout) = some w' := hn
        cases fhAct_step hn with
        | fh hm => exact hm.joinBlock hw
      · obtain ⟨hpc, hblock⟩ := fhAct_frame (fun timeout he => ha ⟨timeout, he⟩) hn
        rw [hpc, hblock]
        exact hw

/-! ## The removed hosts -/

/-- Host `j` is out of both domains and of the proposed liveset, and out of the liveset once phase 4 has
updated it; the sm thread is on its way from the survival test to the end of the fault handler. -/
structure KeptOut (w : FhWorld) (j : Nat) : Prop where
  hbdomain : w.host.hb.hbdomain.isOn j = false
  sfdomain : w.host.sf.sfdomain.isOn j = false
  proposed : w.host.sm.proposedLiveset.isOn j = false
  current : w.pc.livesetUpdated = true → w.host.sm.currentLiveset.isOn j = false
  past : w.pc.pastTest = true
  ended : w.pc = .body .started → w.host.smvar.joinBlock = false

/-- What the test removes is out. -/
theorem Host.Removes.out {c : HaConfig} {h : Host} {j : Nat} (hj : h.Removes c j) (hw : (testSurvivalRule c h).1 = true)
    (ha : h.smvar.fencing = .armed) :
    (testSurvivalRule c h).2.hb.hbdomain.isOn j = false ∧ (testSurvivalRule c h).2.sf.sfdomain.isOn j = false ∧
      (testSurvivalRule c h).2.sm.proposedLiveset.isOn j = false := by
  obtain ⟨hlt, -, hlost⟩ := hj
  rw [testSurvivalRule_of_won hw ha]
  obtain ⟨hhb, hsf, -, -⟩ := (afterRules c h).removeLost_spec c.hostnum (frozenHbd c h) (frozenSfd c h)
    (if wonByRule1 c h then h.smvar.sr2 else wonByRule2 c h)
  refine ⟨?_, ?_, ?_⟩
  · rw [Host.smWriterUnlock_hb, hhb j, hlost]
    simp [hlt]
  · rw [Host.smWriterUnlock_sf, hsf j, hlost]
    simp [hlt]
  · rw [Host.smWriterUnlock_proposed, Host.removeLost_proposed]
    simp only [lostIn, Bool.or_eq_true, Bool.not_eq_true'] at hlost
    rcases hlost with hoff | hoff
    · simp [hlt, hoff]
    · cases hsr2 : (if wonByRule1 c h then h.smvar.sr2 else wonByRule2 c h)
      · rw [hsr2] at hoff
        simp [hlt, show (frozenSfd c h).isOn j = false from hoff]
      · rw [hsr2] at hoff
        cases hoff

theorem keptOut_afterTest {c : HaConfig} {w : FhWorld} (hw : w.Wins c) {j : Nat} (hj : w.host.Removes c j) :
    KeptOut (w.afterTest c) j := by
  obtain ⟨hhb, hsf, hprop⟩ := hj.out hw.won hw.armed
  refine ⟨hhb, hsf, hprop, ?_, rfl, ?_⟩
  · intro h
    cases h
  · intro h
    cases h

section

variable {c : HaConfig} {w w' : FhWorld} {j : Nat}

/-- The steps that leave the sm thread where it is and keep the host out. -/
theorem KeptOut.keep (h : KeptOut w j) (hpc : w'.pc = w.pc) (hblock : w'.host.smvar.joinBlock = w.host.smvar.joinBlock)
    (hhb : w'.host.hb.hbdomain.isOn j = false) (hsf : w'.host.sf.sfdomain.isOn j = false)
    (hprop : w'.host.sm.proposedLiveset.isOn j = false)
    (hcur : w.host.sm.currentLiveset.isOn j = false → w'.host.sm.currentLiveset.isOn j = false) : KeptOut w' j := by
  refine ⟨hhb, hsf, hprop, fun hu => ?_, ?_, fun he => ?_⟩
  · rw [hpc] at hu
    exact hcur (h.current hu)
  · rw [hpc]
    exact h.past
  · rw [hpc] at he
    exact hblock.trans (h.ended he)

/-- While joins are blocked `update_hbdomain` admits nobody else. -/
theorem updateHbdomain_blocked {now : MtcClock} {h : Host} {sequence : Nat → Nat} (hj : j ≠ c.myIndex)
    (hblock : h.smvar.joinBlock = true) (hoff : h.hb.hbdomain.isOn j = false) :
    (updateHbdomain c now h sequence).hbdomain.isOn j = false := by
  refine forRange_inv (fun _ (s : HbUpdate) => s.hbdomain.isOn j = false) hoff fun k s _ hs => ?_
  unfold updateHbHost
  dsimp only
  split_ifs with hme
  · rw [HostMap.isOn_set, hs]
    simp [hme, Ne.symm hj]
  · simp [hs]
  · exact hs
  · simp_all
  · exact hs
  · simp [hs]
  · exact hs

/-- While joins are blocked `update_sfdomain` admits nobody. -/
theorem updateSfdomain_blocked {now : MtcClock} {h : Host} (hblock : h.smvar.joinBlock = true)
    (hoff : h.sf.sfdomain.isOn j = false) : (updateSfdomain c now h).sfdomain.isOn j = false := by
  unfold updateSfdomain
  rw [hblock]
  exact ComDataSf.updateSfdomain_blocked hoff

/-- A host out of the heartbeat domain is neither proposed nor taken in. -/
theorem processJoinRequest_out {h : Host} (hoff : h.hb.hbdomain.isOn j = false) :
    ((processJoinRequest c h).sm.proposedLiveset.isOn j = h.sm.proposedLiveset.isOn j) ∧
    ((processJoinRequest c h).sm.currentLiveset.isOn j = h.sm.currentLiveset.isOn j) := by
  obtain ⟨hmono, hprop, hjoin⟩ := joinUpdate_spec (c := c) (h := h) j
  have hnot : (joinUpdate c h).joiningSet.isOn j = false := by
    by_contra hon
    obtain ⟨-, hdom⟩ := hjoin (by simpa using hon)
    rw [hoff] at hdom
    cases hdom
  rw [(processJoinRequest_livesets c h).1, (processJoinRequest_livesets c h).2]
  refine ⟨?_, ?_⟩
  · rw [Bool.eq_iff_iff]
    refine ⟨fun hon => ?_, hmono⟩
    rcases hprop hon with hon | ⟨-, -, hdom, -⟩
    · exact hon
    · rw [hoff] at hdom
      cases hdom
  · rw [HostMap.isOn_or, hnot, Bool.or_false]

/-! ## Nothing brings them back -/

/-- A step of the sm thread past the survival test and inside the fault handler. -/
structure PastTestStep (h h' : Host) (pc pc' : FhPc) : Prop where
  past : pc'.pastTest = true
  hbdomain : h'.hb.hbdomain = h.hb.hbdomain
  sfdomain : h'.sf.sfdomain = h.sf.sfdomain
  proposed : h'.sm.proposedLiveset = h.sm.proposedLiveset
  current : ∀ i, h'.sm.currentLiveset.isOn i = true → h.sm.currentLiveset.isOn i = true
  updated : pc'.livesetUpdated = true → pc.livesetUpdated = true ∨
    ∀ i, h'.sm.currentLiveset.isOn i = true → h.sm.proposedLiveset.isOn i = true
  ended : pc' = .body .started → h'.smvar.joinBlock = false

/-- A step that leaves the domains and the livesets, and does not pass the update of phase 4. -/
theorem PastTestStep.of_same {h h' : Host} {pc pc' : FhPc} (hpast : pc'.pastTest = true)
    (hhb : h'.hb.hbdomain = h.hb.hbdomain) (hsf : h'.sf.sfdomain = h.sf.sfdomain)
    (hsm : h'.sm.currentLiveset = h.sm.currentLiveset ∧ h'.sm.proposedLiveset = h.sm.proposedLiveset)
    (hupd : pc'.livesetUpdated = pc.livesetUpdated) (hend : pc' = .body .started → h'.smvar.joinBlock = false) :
    PastTestStep h h' pc pc' := by
  refine ⟨hpast, hhb, hsf, hsm.2, fun i hi => ?_, fun hu => ?_, hend⟩
  · rw [hsm.1] at hi
    exact hi
  · rw [hupd] at hu
    exact .inl hu

theorem setSmPhase_past {h : Host} {phase : SmPhase} {pc pc' : FhPc} (hpast : pc'.pastTest = true)
    (hupd : pc'.livesetUpdated = pc.livesetUpdated) (hend : pc' ≠ .body .started) :
    PastTestStep h (h.setSmPhase phase) pc pc' :=
  .of_same hpast (by simp [Host.setSmPhase]) (by simp [Host.setSmPhase]) (Host.smWriterUnlock_livesets _) hupd
    fun he => absurd he hend

/-- The sm thread goes on to the end of the fault handler without touching the domains; phase 4 takes out of
the liveset whoever is not proposed. -/
theorem FhMove.pastTest {timeout : Bool} {h h' : Host} {pc pc' : FhPc} (hm : FhMove c timeout h pc h' pc')
    (hpast : pc.pastTest = true) (hend : pc = .body .started → h.smvar.joinBlock = false)
    (hblock : h.smvar.joinBlock = true) (harmed : h.smvar.fencing = .armed) : PastTestStep h h' pc pc' := by
  cases hm with
  | met1 s =>
    have hpast' : (FhPc.met1 s).pastTest = true := by cases s <;> exact hpast
    exact .of_same hpast' rfl rfl ⟨rfl, rfl⟩ (by cases s <;> rfl) (by simp)
  | set2 s =>
    have hpast' : (FhPc.wait2 s).pastTest = true := by cases s <;> exact hpast
    exact setSmPhase_past hpast' (by cases s <;> rfl) (by simp)
  | met2 s hs =>
    have hpast' : (FhPc.body s).pastTest = true := by cases s <;> exact hpast
    refine .of_same hpast' rfl rfl ⟨rfl, rfl⟩ (by cases s <;> rfl) fun he => ?_
    cases he
    exact absurd rfl hs
  | allowJoins => exact .of_same rfl rfl rfl ⟨rfl, rfl⟩ rfl fun _ => rfl
  | degrading => exact .of_same rfl rfl rfl ⟨rfl, rfl⟩ rfl (by simp)
  | undegraded hsub =>
    -- not degrading: everybody in the liveset is proposed already
    exact ⟨rfl, rfl, rfl, rfl, fun i hi => hi, fun _ => .inr (HostMap.subsetEqual_iff.1 hsub), by simp⟩
  | update =>
    obtain ⟨hcur, hprop⟩ := Host.smWriterUnlock_livesets
      { h with sm := { h.sm with currentLiveset := h.sm.currentLiveset &&& h.sm.proposedLiveset } }
    refine ⟨rfl, by simp, by simp, hprop, fun i hi => ?_, fun _ => .inr fun i hi => ?_, by simp⟩
    · rw [hcur, HostMap.isOn_and, Bool.and_eq_true] at hi
      exact hi.1
    · rw [hcur, HostMap.isOn_and, Bool.and_eq_true] at hi
      exact hi.2
  | noUpdate hoff => exact absurd harmed hoff
  | event => exact absurd hblock (by simp [hend rfl])
  | set1 s =>
    have hs : (FhPc.wait1 s.next).pastTest = true ∧ (FhPc.wait1 s.next).livesetUpdated = (FhPc.done s).livesetUpdated := by
      cases s
      case fh3 => exact ⟨rfl, rfl⟩
      case fh4 => exact ⟨rfl, rfl⟩
      all_goals cases hpast
    exact setSmPhase_past hs.1 hs.2 (by simp)
  | commit | again | leave | freeze | won | lost | notFenced | blockJoins => cases hpast

theorem KeptOut.fh {timeout : Bool} {h' : Host} {pc' : FhPc} (h : KeptOut w j) {a : WinnerAction} (hin : InHandler w a)
    (hm : FhMove c timeout w.host w.pc h' pc') : KeptOut { w with host := h', pc := pc' } j := by
  obtain ⟨hpast, hhb, hsf, hprop, hcur, hupd, hend⟩ := hm.pastTest h.past h.ended hin.1 hin.2
  refine ⟨?_, ?_, ?_, fun hu => ?_, hpast, hend⟩
  · rw [hhb]
    exact h.hbdomain
  · rw [hsf]
    exact h.sfdomain
  · rw [hprop]
    exact h.proposed
  · by_contra hon
    rw [Bool.not_eq_false] at hon
    rcases hupd hu with hold | hsub
    · exact absurd (hcur j hon) (by simp [h.current hold])
    · exact absurd (hsub j hon) (by simp [h.proposed])

/-- Whatever the other threads do and receive, they bring nobody back. -/
theorem KeptOut.other {a : FhAction} (h : KeptOut w j) (hj : j ≠ c.myIndex) (hblock : w.host.smvar.joinBlock = true)
    (ha : ∀ timeout, a ≠ .fh timeout) (hn : fhAct c w a = some w') : KeptOut w' j := by
  obtain ⟨hpc, hjb⟩ := fhAct_frame ha hn
  cases fhAct_step hn with
  | fh => exact absurd rfl (ha _)
  | updateHbdomain => exact h.keep rfl rfl (updateHbdomain_blocked hj hblock h.hbdomain) h.sfdomain h.proposed id
  | updateSfdomain => exact h.keep rfl rfl h.hbdomain (updateSfdomain_blocked hblock h.sfdomain) h.proposed id
  | receive now =>
    obtain ⟨hhb, hsf, hcur, hprop⟩ := w.host.updateHbData_domains now _
    exact h.keep rfl hjb (hhb ▸ h.hbdomain) (hsf ▸ h.sfdomain) (hprop ▸ h.proposed) fun hoff => hcur ▸ hoff
  | _ => exact h.keep rfl rfl h.hbdomain h.sfdomain h.proposed id

theorem KeptOut.step {a : WinnerAction} (h : KeptOut w j) (hj : j ≠ c.myIndex) (hin : InHandler w a)
    (hn : winnerNext c w a = some w') : KeptOut w' j := by
  cases a with
  | processJoinRequest =>
    simp only [winnerNext] at hn
    split at hn <;> cases hn
    obtain ⟨hprop, hcur⟩ := processJoinRequest_out (c := c) h.hbdomain
    refine h.keep rfl (processJoinRequest_joinBlock c w.host) ?_ ?_ (hprop.trans h.proposed) fun hoff => hcur.trans hoff
    · simpa [processJoinRequest] using h.hbdomain
    · simpa [processJoinRequest] using h.sfdomain
  | other a =>
    by_cases ha : ∃ timeout, a = .fh timeout
    · obtain ⟨timeout, rfl⟩ := ha
      have hn : fhAct c w (.fh timeout) = some w' := hn
      cases fhAct_step hn with
      | fh hm => exact h.fh hin hm
    · exact h.other hj hin.1 (fun timeout he => ha ⟨timeout, he⟩) hn

end

/-- A winner's next step is the test. -/
theorem FhWorld.Wins.next {c : HaConfig} {w : FhWorld} (h : w.Wins c) (timeout : Bool) :
    winnerNext c w (.other (.fh timeout)) = some (w.afterTest c) := by
  show (fhNext c timeout w.host w.pc).map _ = _
  rw [h.atTest]
  simp only [fhNext, fhBody]
  rw [h.won, Bool.true_or, if_pos rfl]
  rfl

/-- Removed hosts stay removed: in every run of an armed winner from the survival test to the end of its
fault handler, the hosts that the test removed are in neither domain and not proposed, and once phase 4 has
updated the liveset they are not in it. -/
theorem removed_stay_removed {c : HaConfig} {w v : FhWorld} (hw : w.Wins c) (hr : (removalMachine c w).Reach InHandler v)
    {j : Nat} (hj : w.host.Removes c j) :
    v.host.hb.hbdomain.isOn j = false ∧ v.host.sf.sfdomain.isOn j = false ∧
      v.host.sm.proposedLiveset.isOn j = false ∧
      (v.pc.livesetUpdated = true → v.host.sm.currentLiveset.isOn j = false) := by
  have hout : KeptOut v j := by
    refine hr.inv (I := fun v => KeptOut v j) (fun v hv => ?_) fun v v' a hv hin hn => hv.step hj.2.1 hin hn
    rw [show v = _ from hv]
    exact keptOut_afterTest hw hj
  exact ⟨hout.hbdomain, hout.sfdomain, hout.proposed, hout.current⟩

instance (w : FhWorld) (a : WinnerAction) : Decidable (InHandler w a) := inferInstanceAs (Decidable (_ ∧ _))

instance (c : HaConfig) (h : Host) (j : Nat) : Decidable (h.Removes c j) := inferInstanceAs (Decidable (_ ∧ _))

/-- Host 1 dies in FHREADY, is removed, and is heard again while host 0 waits in phase 4. -/
theorem removed_stay_removed_quietHost :
    ∃ w v : FhWorld, w.Wins quietConfig ∧ v.pc = .wait1 .started ∧ v.host.hb.hbdomain.isOn 1 = false ∧
      v.host.sf.sfdomain.isOn 1 = false ∧ v.host.sm.proposedLiveset.isOn 1 = false ∧
      v.host.sm.currentLiveset.isOn 1 = false := by
  let other (as : List (FhWorld → FhAction)) : List (FhWorld → WinnerAction) := as.map fun a w => .other (a w)
  let heardAgain : List (FhWorld → FhAction) := [fun w => .receiveHb lateClock (hbPacket 1 (w.hbSequence 1 + 1) w.host),
    fun _ => .updateHbdomain lateClock]
  have hrun : ∃ w, (winnerMachine quietConfig).Reachable w ∧
      (decide (w.pc = .body .fh3 ∧ w.host.smvar.fencing = .armed) && (testSurvivalRule quietConfig w.host).1 &&
        decide (w.host.Removes quietConfig 1) &&
        ((removalMachine quietConfig w).play InHandler (w.afterTest quietConfig)
          (other (heardAgain ++ (List.replicate 6 stepAlone).flatten) ++ [fun _ => .processJoinRequest] ++
            other stepAlone)).any fun v => decide (v.pc = .wait1 .started)) = true :=
    Transition.Machine.reach_of_played (s := quietHost) rfl
      (other (askedFor ++ stepTogether ++ stepTogether ++ leavesHbdomain ++ leavesSfdomain ++
        (List.replicate 14 stepAlone).flatten)) _
      (by decide +kernel)
  obtain ⟨w, hw, hp⟩ := hrun
  simp only [Bool.and_eq_true, decide_eq_true_eq] at hp
  obtain ⟨⟨⟨⟨hpc, harmed⟩, hwon⟩, hremoves⟩, hplay⟩ := hp
  have hwins : w.Wins quietConfig := ⟨hw, hpc, harmed, hwon⟩
  obtain ⟨v, hv, hpv⟩ := Transition.Machine.reach_of_played (M := removalMachine quietConfig w) rfl _ _ hplay
  rw [decide_eq_true_eq] at hpv
  obtain ⟨h1, h2, h3, h4⟩ := removed_stay_removed hwins hv hremoves
  exact ⟨w, v, hwins, hpv, h1, h2, h3, h4 (by rw [hpv]; rfl)⟩

end Xha
