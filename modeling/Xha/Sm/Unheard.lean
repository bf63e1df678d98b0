/-
The heartbeat record of a host that is not heard: the last one received, arbitrarily old. The decision
reads it in the removal of the hosts that lost the State-File and nowhere else, so the theorem of this
module is exact: when the record matters, and that it does not matter otherwise
(`decision_ignores_unheard_iff`). Where it matters, a record with an empty domain and one with a full domain differ.
-/
import Xha.Sm.Decision

namespace Xha

open Loop

/-! ## The decision -/

/-- What the two phases decide: the frozen domains, the verdicts and the liveset to propose. -/
structure Decision where
  stableHbdomain : HostMap
  stableSfdomain : HostMap
  winner : Bool
  sr2 : Bool
  proposedLiveset : HostMap
  deriving DecidableEq

def decision (c : HaConfig) (h : Host) : Decision :=
  let r := decideSurvival c h
  { stableHbdomain := r.2.smvar.stableHb.hbdomain
    stableSfdomain := r.2.smvar.stableSf.sfdomain
    winner := r.1
    sr2 := r.2.smvar.sr2
    proposedLiveset := r.2.sm.proposedLiveset }

/-- The same host with another last heartbeat from `j`. -/
def Host.withHbRaw (h : Host) (j : Nat) (r : RawData) : Host :=
  { h with hb := { h.hb with raw := Function.update h.hb.raw j r } }

/-- Two heartbeat objects that differ at most in the record of `j`. -/
structure ComDataHb.EqOff (j : Nat) (hb hb' : ComDataHb) : Prop where
  frame : hb' = { hb with raw := hb'.raw }
  raw : ∀ i, i ≠ j → hb'.raw i = hb.raw i

theorem ComDataHb.EqOff.hbdomain {j : Nat} {hb hb' : ComDataHb} (h : hb.EqOff j hb') : hb'.hbdomain = hb.hbdomain := by
  rw [h.frame]

/-! ## The check does not read it -/

theorem sameView_congr {liveset myHbdomain mySfdomain : HostMap} {i : Nat} (hoff : myHbdomain.isOn i = false)
    (r r' sfRaw : RawData) :
    sameView liveset myHbdomain mySfdomain i r sfRaw = sameView liveset myHbdomain mySfdomain i r' sfRaw := by
  simp [sameView, hoff]

theorem checkPeers_eqOff (c : HaConfig) (liveset myHbdomain mySfdomain : HostMap) {j : Nat}
    (hoff : myHbdomain.isOn j = false) :
    ∀ (l : List Nat) {hb hb' : ComDataHb} (sf : ComDataSf), hb.EqOff j hb' →
      let r := checkPeers c liveset myHbdomain mySfdomain l hb sf
      let r' := checkPeers c liveset myHbdomain mySfdomain l hb' sf
      r'.1 = r.1 ∧ r.2.1.EqOff j r'.2.1 ∧ r'.2.2 = r.2.2
  | [], hb, hb', sf, h => ⟨rfl, h, rfl⟩
  | index :: rest, hb, hb', sf, h => by
    have hmask : ComDataHb.EqOff j
        { hb with raw := Function.update hb.raw index ((hb.raw index).maskUnconfig c.hostnum) }
        { hb' with raw := Function.update hb'.raw index ((hb'.raw index).maskUnconfig c.hostnum) } := by
      refine ⟨by rw [h.frame], fun i hi => ?_⟩
      by_cases hii : i = index
      · subst hii; simp [h.raw i hi]
      · simp [hii, h.raw i hi]
    have hsame : ∀ sfRaw : RawData,
        sameView liveset myHbdomain mySfdomain index ((hb'.raw index).maskUnconfig c.hostnum) sfRaw =
        sameView liveset myHbdomain mySfdomain index ((hb.raw index).maskUnconfig c.hostnum) sfRaw := by
      intro sfRaw
      by_cases hij : index = j
      · rw [hij]; exact sameView_congr hoff _ _ _
      · rw [h.raw index hij]
    simp only [checkPeers, Function.update_self, hsame]
    split
    · split
      · exact checkPeers_eqOff c liveset myHbdomain mySfdomain hoff rest _ hmask
      · exact ⟨rfl, hmask, rfl⟩
    · exact checkPeers_eqOff c liveset myHbdomain mySfdomain hoff rest sf h

/-! ## The verdict does not read it -/

theorem survivalRule1_eqOff {c : HaConfig} {hbd sfd : HostMap} {j : Nat} {phb phb' : ComDataHb} {psf : ComDataSf}
    (h : phb.EqOff j phb') : survivalRule1 c hbd sfd phb' psf = survivalRule1 c hbd sfd phb psf := by
  unfold survivalRule1 amIInLargestPartition partitionSizeAt
  rw [h.hbdomain]

theorem survivalRule2_eqOff {c : HaConfig} {hbd : HostMap} {j : Nat} {phb phb' : ComDataHb} {psf : ComDataSf}
    (h : phb.EqOff j phb') (hoff : hbd.isOn j = false) :
    survivalRule2 c hbd phb' psf = survivalRule2 c hbd phb psf := by
  rw [Bool.eq_iff_iff, survivalRule2_iff, survivalRule2_iff]
  refine forall₂_congr fun i _ => and_congr_left fun _ => ?_
  refine forall_congr' fun hon => ?_
  have hne : i ≠ j := by rintro rfl; rw [hon] at hoff; cases hoff
  rw [sfAccessOf, sfAccessOf, h.raw i hne]

/-- The verdict on two frozen views that differ in the record of a host outside the frozen domain. -/
theorem testSurvivalRule_eqOff {c : HaConfig} {h h' : Host} {j : Nat} (hsm : h'.sm = h.sm)
    (hfence : h'.smvar.fencing = h.smvar.fencing) (hsr2 : h'.smvar.sr2 = h.smvar.sr2)
    (hsf : h'.smvar.stableSf = h.smvar.stableSf) (hhb : h.smvar.stableHb.EqOff j h'.smvar.stableHb)
    (hoff : (frozenHbd c h).isOn j = false) :
    (testSurvivalRule c h').1 = (testSurvivalRule c h).1 ∧
    (testSurvivalRule c h').2.smvar.sr2 = (testSurvivalRule c h).2.smvar.sr2 ∧
    (testSurvivalRule c h').2.sm.proposedLiveset = (testSurvivalRule c h).2.sm.proposedLiveset ∧
    (testSurvivalRule c h').2.smvar.stableHb.hbdomain = (testSurvivalRule c h).2.smvar.stableHb.hbdomain ∧
    (testSurvivalRule c h').2.smvar.stableSf.sfdomain = (testSurvivalRule c h).2.smvar.stableSf.sfdomain := by
  have hmask : (h.smvar.maskStable c.hostnum).stableHb.EqOff j (h'.smvar.maskStable c.hostnum).stableHb := by
    unfold SmVar.maskStable
    refine ⟨?_, hhb.raw⟩
    dsimp only
    rw [hhb.frame]
  have hmasksf : (h'.smvar.maskStable c.hostnum).stableSf = (h.smvar.maskStable c.hostnum).stableSf := by
    unfold SmVar.maskStable
    rw [hsf]
  have hhbd : frozenHbd c h' = frozenHbd c h := by rw [frozenHbd, frozenHbd, hmask.hbdomain, hsm]
  have hsfd : frozenSfd c h' = frozenSfd c h := by rw [frozenSfd, frozenSfd, hmasksf, hsm]
  have h1 : wonByRule1 c h' = wonByRule1 c h := by
    rw [wonByRule1, wonByRule1, hhbd, hsfd, hmasksf, survivalRule1_eqOff hmask]
  have h2 : wonByRule2 c h' = wonByRule2 c h := by
    rw [wonByRule2, wonByRule2, hhbd, hmasksf, survivalRule2_eqOff hmask hoff]
  refine ⟨?_, ?_, HostMap.ext fun i => ?_, ?_, ?_⟩
  · rw [testSurvivalRule_winner, testSurvivalRule_winner, h1, h2]
  · rw [testSurvivalRule_sr2, testSurvivalRule_sr2, h1, h2, hsm]
  · rw [testSurvivalRule_proposed, testSurvivalRule_proposed, h1, h2, hhbd, hsfd, hsm, hfence, hsr2]
  · rw [(testSurvivalRule_stable c h').1, (testSurvivalRule_stable c h).1, hmask.hbdomain]
  · rw [(testSurvivalRule_stable c h').2, (testSurvivalRule_stable c h).2, hmasksf]

/-! ## The removal of the hosts that lost the State-File reads it -/

theorem HostMap.reset_of_off {b : HostMap} {i : Nat} (h : b.isOn i = false) : b.reset i = b :=
  HostMap.ext fun k => by
    rw [HostMap.isOn_reset]
    by_cases hik : i = k
    · subst hik; simp [h]
    · simp [hik]

theorem resetSfdomain_of_off {raw : Nat → RawData} {me i : Nat} (h : (raw me).sfdomain.isOn i = false) :
    resetSfdomain raw me i = raw := by
  rw [resetSfdomain, HostMap.reset_of_off h, Function.update_eq_self]

/-- Two runs of the removal that start from heartbeat records apart in `j` alone. -/
structure LostEq (c : HaConfig) (j : Nat) (s t : LostState) : Prop where
  mine : t.mySfdomain = s.mySfdomain
  sfRaw : t.sfRaw = s.sfRaw
  hbRaw : ∀ i, i ≠ j → t.hbRaw i = s.hbRaw i

theorem LostEq.drop {c : HaConfig} {j : Nat} {s t : LostState} (h : LostEq c j s t) (i : Nat) :
    LostEq c j { mySfdomain := s.mySfdomain.reset i, hbRaw := resetSfdomain s.hbRaw c.myIndex i
                 sfRaw := resetSfdomain s.sfRaw c.myIndex i }
      { mySfdomain := t.mySfdomain.reset i, hbRaw := resetSfdomain t.hbRaw c.myIndex i
        sfRaw := resetSfdomain t.sfRaw c.myIndex i } := by
  refine ⟨by rw [h.mine], by rw [h.sfRaw], fun k hk => ?_⟩
  unfold resetSfdomain
  by_cases hkm : k = c.myIndex
  · subst hkm; simp [h.hbRaw _ hk]
  · simp [hkm, h.hbRaw k hk]

/-- The local host does not count `j` as active, or the State-File shows `j` as not active. -/
def RecordIdle (c : HaConfig) (j : Nat) (s : LostState) : Prop :=
  (s.mySfdomain.isOn j = false ∧ (s.sfRaw c.myIndex).sfdomain.isOn j = false ∧
    (s.hbRaw c.myIndex).sfdomain.isOn j = false) ∨ isEmptyLiveset c.hostnum (s.sfRaw j).sfdomain = true

theorem RecordIdle.drop {c : HaConfig} {j : Nat} {s : LostState} (h : RecordIdle c j s) (hme : j ≠ c.myIndex)
    (i : Nat) : RecordIdle c j { mySfdomain := s.mySfdomain.reset i, hbRaw := resetSfdomain s.hbRaw c.myIndex i
                                 sfRaw := resetSfdomain s.sfRaw c.myIndex i } := by
  rcases h with ⟨h1, h2, h3⟩ | h1
  · exact .inl ⟨by simp [h1], by simp [resetSfdomain, h2], by simp [resetSfdomain, h3]⟩
  · refine .inr ?_
    dsimp only [resetSfdomain]
    rwa [Function.update_of_ne hme]

/-- The turn for an idle record of `j` does the same whatever the heartbeat record of `j` says. -/
theorem LostEq.turn_idle {c : HaConfig} {j : Nat} {s t : LostState} (h : LostEq c j s t) (hme : j ≠ c.myIndex)
    (hidle : RecordIdle c j s) (p q : Bool) :
    let s' := if isEmptyLiveset c.hostnum (s.sfRaw j).sfdomain || p then
      (⟨s.mySfdomain.reset j, resetSfdomain s.hbRaw c.myIndex j, resetSfdomain s.sfRaw c.myIndex j⟩ : LostState) else s
    let t' := if isEmptyLiveset c.hostnum (t.sfRaw j).sfdomain || q then
      (⟨t.mySfdomain.reset j, resetSfdomain t.hbRaw c.myIndex j, resetSfdomain t.sfRaw c.myIndex j⟩ : LostState) else t
    LostEq c j s' t' ∧ RecordIdle c j s' := by
  rcases hidle with ⟨h1, h2, h3⟩ | h1
  · -- resetting bit `j` where it is off changes nothing
    have hsame : ∀ (u : LostState) (b : Bool), u.mySfdomain.isOn j = false →
        (u.sfRaw c.myIndex).sfdomain.isOn j = false → (u.hbRaw c.myIndex).sfdomain.isOn j = false →
        (if b then (⟨u.mySfdomain.reset j, resetSfdomain u.hbRaw c.myIndex j,
          resetSfdomain u.sfRaw c.myIndex j⟩ : LostState) else u) = u := by
      intro u b hu1 hu2 hu3
      rw [HostMap.reset_of_off hu1, resetSfdomain_of_off hu2, resetSfdomain_of_off hu3]
      exact ite_self u
    intro s' t'
    have hs : s' = s := hsame s _ h1 h2 h3
    have ht : t' = t := hsame t _ (by rw [h.mine, h1]) (by rw [h.sfRaw, h2]) (by rw [h.hbRaw _ (Ne.symm hme), h3])
    rw [hs, ht]
    exact ⟨h, .inl ⟨h1, h2, h3⟩⟩
  · dsimp only
    rw [h.sfRaw, h1, Bool.true_or, Bool.true_or, if_pos rfl, if_pos rfl]
    exact ⟨by simpa only [h.sfRaw] using h.drop j, RecordIdle.drop (.inr h1) hme j⟩

theorem dropLostStateFile_eqOff {c : HaConfig} {j : Nat} {s t : LostState} (h : LostEq c j s t)
    (hidle : j < c.hostnum → j ≠ c.myIndex → RecordIdle c j s) :
    LostEq c j (dropLostStateFile c s) (dropLostStateFile c t) := by
  refine (forRange_rel (fun (a b : LostState) => LostEq c j a b ∧
    (j < c.hostnum → j ≠ c.myIndex → RecordIdle c j a)) ⟨h, hidle⟩ ?_).1
  rintro i a b hi ⟨hab, hc⟩
  by_cases him : i = c.myIndex
  · simp only [if_pos him]; exact ⟨hab, hc⟩
  · simp only [if_neg him]
    by_cases hij : i = j
    · subst hij
      obtain ⟨h1, h2⟩ := hab.turn_idle him (hc hi him) (isEmptyLiveset c.hostnum (a.hbRaw i).sfdomain)
        (isEmptyLiveset c.hostnum (b.hbRaw i).sfdomain)
      exact ⟨h1, fun _ _ => h2⟩
    · rw [hab.sfRaw, hab.hbRaw i hij]
      split
      · exact ⟨by simpa only [hab.sfRaw] using hab.drop i, fun h1 h2 => (hc h1 h2).drop h2 i⟩
      · exact ⟨hab, hc⟩

theorem mergeRaw_eqOff (c : HaConfig) (liveset myHbdomain mySfdomain : HostMap) {raw raw' : Nat → RawData} {i : Nat}
    (h : raw' i = raw i) : mergeRaw c liveset myHbdomain mySfdomain raw' i =
      mergeRaw c liveset myHbdomain mySfdomain raw i := by
  unfold mergeRaw
  rw [restrictRaw_apply, restrictRaw_apply]
  by_cases him : i = c.myIndex
  · subst him; simp [h]
  · simp [him, h]

theorem mergeView_eqOff {c : HaConfig} {liveset myHbdomain mySfdomain : HostMap} {j : Nat} {hb hb' : ComDataHb}
    {sf : ComDataSf} (h : hb.EqOff j hb')
    (hidle : j < c.hostnum → j ≠ c.myIndex →
      mySfdomain.isOn j = false ∨ isEmptyLiveset c.hostnum ((sf.raw j).sfdomain &&& liveset) = true) :
    let v := mergeView c liveset myHbdomain mySfdomain hb sf
    let v' := mergeView c liveset myHbdomain mySfdomain hb' sf
    v.1.EqOff j v'.1 ∧ v'.2 = v.2 := by
  have hlost : LostEq c j (mergeLost c liveset myHbdomain mySfdomain hb sf)
      (mergeLost c liveset myHbdomain mySfdomain hb' sf) := by
    refine dropLostStateFile_eqOff ⟨rfl, rfl, fun i hi => mergeRaw_eqOff c _ _ _ (h.raw i hi)⟩ fun hj hne => ?_
    rcases hidle hj hne with h1 | h1
    · refine .inl ⟨h1, ?_, ?_⟩ <;> (dsimp only; rw [mergeRaw_self]; simp [h1])
    · exact .inr (by dsimp only; rw [mergeRaw_peer c _ _ _ _ hj hne]; exact h1)
  have hend : mergeEnd c liveset myHbdomain mySfdomain hb' sf = mergeEnd c liveset myHbdomain mySfdomain hb sf := by
    dsimp only [mergeEnd]
    rw [hlost.mine, hlost.sfRaw]
  dsimp only [mergeView]
  rw [hend, hlost.mine]
  refine ⟨⟨by rw [h.frame], fun i hi => ?_⟩, rfl⟩
  dsimp only
  rw [restrictRaw_apply, restrictRaw_apply, hlost.hbRaw i hi]

/-! ## When the record matters -/

/-- The removal can tell two records of `j` apart: the views disagree, `j` is in the local State-File
domain, and its State-File record shows it alive there. -/
def RecordMatters (c : HaConfig) (h : Host) (j : Nat) : Prop :=
  ¬ ConsistentView c h ∧ j < c.hostnum ∧ j ≠ c.myIndex ∧ (mySfdomain c h).isOn j = true ∧
    isEmptyLiveset c.hostnum ((h.sf.raw j).sfdomain &&& h.sm.currentLiveset) = false

theorem mySfdomain_withHbRaw (c : HaConfig) (h : Host) (j : Nat) (r : RawData) :
    mySfdomain c (h.withHbRaw j r) = mySfdomain c h := rfl

theorem consistentView_withHbRaw {c : HaConfig} {h : Host} {j : Nat} (hoff : h.hb.hbdomain.isOn j = false)
    (r : RawData) : ConsistentView c (h.withHbRaw j r) ↔ ConsistentView c h := by
  refine forall₂_congr fun i _ => forall₂_congr fun _ _ => ?_
  by_cases hij : i = j
  · subst hij
    have hmy : (myHbdomain c h).isOn i = false := by simp [myHbdomain, hoff]
    exact iff_of_eq (congrArg (· = true) (sameView_congr hmy _ _ _))
  · change sameView _ _ _ i ((Function.update h.hb.raw j r i).maskUnconfig _) _ = true ↔ _
    rw [Function.update_of_ne hij]
    rfl

theorem isEmptyLiveset_viewCheck (c : HaConfig) (h : Host) (j : Nat) :
    isEmptyLiveset c.hostnum (((viewCheck c h).sf.raw j).sfdomain &&& h.sm.currentLiveset) =
      isEmptyLiveset c.hostnum ((h.sf.raw j).sfdomain &&& h.sm.currentLiveset) := by
  rw [Bool.eq_iff_iff, isEmptyLiveset_iff, isEmptyLiveset_iff]
  refine forall₂_congr fun i hi => ?_
  rw [HostMap.isOn_and, HostMap.isOn_and, (viewCheck_sfRaw c h j hi).2]

theorem eqOff_withHbRaw (hb : ComDataHb) (j : Nat) (r : RawData) (b : HostMap) :
    ComDataHb.EqOff j { hb with hbdomain := b } { hb with hbdomain := b, raw := Function.update hb.raw j r } :=
  ⟨rfl, fun i hi => by simp [hi]⟩

/-- A record that does not matter changes nothing. -/
theorem decision_withHbRaw {c : HaConfig} {h : Host} {j : Nat} (hoff : h.hb.hbdomain.isOn j = false)
    (hm : ¬ RecordMatters c h j) (r : RawData) : decision c (h.withHbRaw j r) = decision c h := by
  have hmy : (myHbdomain c h).isOn j = false := by simp [myHbdomain, hoff]
  obtain ⟨hcons, hhb, hsf⟩ := checkPeers_eqOff c h.sm.currentLiveset (myHbdomain c h) (mySfdomain c h) hmy
    (List.range c.hostnum) { h.sf with sfdomain := h.sf.sfdomain.maskUnconfig c.hostnum }
    (eqOff_withHbRaw h.hb j r (h.hb.hbdomain.maskUnconfig c.hostnum))
  change (viewCheck c h).hb.EqOff j (viewCheck c (h.withHbRaw j r)).hb at hhb
  change (viewCheck c (h.withHbRaw j r)).sf = (viewCheck c h).sf at hsf
  have hoff' : (frozenHbd c (frozen c h)).isOn j = false := by
    rw [← Bool.not_eq_true]
    intro hon
    rw [frozenHbd_sub c h j hon] at hmy
    cases hmy
  have hfrozen : (frozen c h).smvar.stableHb.EqOff j (frozen c (h.withHbRaw j r)).smvar.stableHb ∧
      (frozen c (h.withHbRaw j r)).smvar.stableSf = (frozen c h).smvar.stableSf := by
    by_cases hc : ConsistentView c h
    · have hc' := (consistentView_withHbRaw hoff r).2 hc
      rw [(frozen_of_consistent hc).1, (frozen_of_consistent hc).2, (frozen_of_consistent hc').1,
        (frozen_of_consistent hc').2]
      exact ⟨hhb, hsf⟩
    · have hc' := mt (consistentView_withHbRaw hoff r).1 hc
      rw [(frozen_of_timeout hc).1, (frozen_of_timeout hc).2, (frozen_of_timeout hc').1, (frozen_of_timeout hc').2]
      rw [hsf]
      refine mergeView_eqOff hhb fun hj hne => ?_
      cases hmine : (mySfdomain c h).isOn j
      · exact .inl rfl
      · refine .inr (by_contra fun hempty => hm ⟨hc, hj, hne, hmine, ?_⟩)
        rw [isEmptyLiveset_viewCheck, Bool.not_eq_true] at hempty
        exact hempty
  have hsm : (frozen c (h.withHbRaw j r)).sm = (frozen c h).sm := rfl
  obtain ⟨h1, h2, h3, h4, h5⟩ := testSurvivalRule_eqOff hsm rfl rfl hfrozen.2 hfrozen.1 hoff'
  simp only [decision, decideSurvival]
  rw [h1, h2, h3, h4, h5]

theorem decision_frozenSfd (c : HaConfig) (h : Host) :
    (decision c h).stableSfdomain &&& h.sm.currentLiveset = frozenSfd c (frozen c h) := by
  dsimp only [decision, decideSurvival, frozenSfd]
  rw [(testSurvivalRule_stable c _).2]
  rfl

/-- Where the record matters, the frozen State-File domain keeps `j` exactly if the record is not empty. -/
theorem frozenSfd_withHbRaw {c : HaConfig} {h : Host} {j : Nat} (hoff : h.hb.hbdomain.isOn j = false)
    (hm : RecordMatters c h j) (r : RawData) :
    (frozenSfd c (frozen c (h.withHbRaw j r))).isOn j = true ↔
      isEmptyLiveset c.hostnum (r.sfdomain &&& h.sm.currentLiveset) = false := by
  obtain ⟨hc, hj, hne, hmine, hsf⟩ := hm
  have hempty : isEmptyLiveset c.hostnum
      (((viewCheck c (h.withHbRaw j r)).hb.raw j).sfdomain &&& h.sm.currentLiveset) =
      isEmptyLiveset c.hostnum (r.sfdomain &&& h.sm.currentLiveset) := by
    rw [Bool.eq_iff_iff, isEmptyLiveset_iff, isEmptyLiveset_iff]
    refine forall₂_congr fun i hi => ?_
    rw [HostMap.isOn_and, HostMap.isOn_and, (viewCheck_hbRaw c _ j hi).2]
    simp [Host.withHbRaw]
  rw [frozenSfd_of_timeout (mt (consistentView_withHbRaw hoff r).1 hc), lostPeer, isEmptyLiveset_viewCheck]
  change _ ∧ _ ∧ (_ && (isEmptyLiveset c.hostnum ((h.sf.raw j).sfdomain &&& h.sm.currentLiveset) ||
    isEmptyLiveset c.hostnum (((viewCheck c (h.withHbRaw j r)).hb.raw j).sfdomain &&& h.sm.currentLiveset))) = false ↔ _
  rw [hsf, hempty, mySfdomain_withHbRaw]
  simp [hj, hmine, hne]

/-- The decision ignores the last heartbeat of a host that is not heard, exactly when the record does
not matter to the removal of the hosts that lost the State-File. -/
theorem decision_ignores_unheard_iff (c : HaConfig) (h : Host) (j : Nat) (hoff : h.hb.hbdomain.isOn j = false) :
    (∀ r, decision c (h.withHbRaw j r) = decision c h) ↔ ¬ RecordMatters c h j := by
  refine ⟨fun hall hm => ?_, fun hm r => decision_withHbRaw hoff hm r⟩
  obtain ⟨-, hj, -, hmine, -⟩ := id hm
  have hl : h.sm.currentLiveset.isOn j = true := by
    rw [mySfdomain, HostMap.isOn_and, Bool.and_eq_true] at hmine
    exact hmine.2
  have hsame : ∀ r, frozenSfd c (frozen c (h.withHbRaw j r)) = frozenSfd c (frozen c h) := fun r => by
    rw [← decision_frozenSfd, ← decision_frozenSfd, hall r]
    rfl
  -- one record that shows the State-File active, one that does not
  have hfull : (frozenSfd c (frozen c h)).isOn j = true := by
    rw [← hsame ⟨.empty, .empty, .empty, .full⟩, frozenSfd_withHbRaw hoff hm, isEmptyLiveset_eq_false]
    exact ⟨j, hj, by simp [hl, HostMap.lt_of_isOn hl]⟩
  rw [← hsame ⟨.empty, .empty, .empty, .empty⟩, frozenSfd_withHbRaw hoff hm, isEmptyLiveset_eq_false] at hfull
  obtain ⟨i, -, hi⟩ := hfull
  simp at hi

/-- Host 1 of a pool of two that both use the State-File and no longer hear each other. -/
def deafPair : HaConfig := HaConfig.pair.at 1 Nat.one_lt_two

/-- What host 1 holds: itself heard, both hosts active, and the last heartbeat of host 0 as given. -/
def deafPairHost (last : RawData) : Host :=
  let h := Host.initial 1
  { h with
    sm := { h.sm with currentLiveset := 3, proposedLiveset := 3 }
    hb := { h.hb with hbdomain := 2, raw := Function.update h.hb.raw 0 last }
    sf := { h.sf with
      sfAccess := true
      sfdomain := 3
      raw := fun i => if i = 0 then ⟨3, 3, 1, 3⟩ else ⟨3, 3, 2, 3⟩ }
    smvar := { h.smvar with fencing := .armed } }

theorem decision_ignores_unheard_iff_deafPair :
    (∀ r, decision deafPair ((deafPairHost ⟨3, 3, 3, 3⟩).withHbRaw 0 r) = decision deafPair (deafPairHost ⟨3, 3, 3, 3⟩)) ↔
      ¬ RecordMatters deafPair (deafPairHost ⟨3, 3, 3, 3⟩) 0 :=
  decision_ignores_unheard_iff deafPair (deafPairHost ⟨3, 3, 3, 3⟩) 0 (by decide)

/-- Host 1 loses to host 0, and wins on the same view if the last heartbeat of host 0 dates from before
host 0 had the State-File. -/
theorem decision_reads_unheard :
    (deafPairHost ⟨3, 3, 3, 3⟩).hb.hbdomain.isOn 0 = false ∧
    (decision deafPair (deafPairHost ⟨3, 3, 3, 3⟩)).winner = false ∧
    (decision deafPair ((deafPairHost ⟨3, 3, 3, 3⟩).withHbRaw 0 ⟨3, 3, 3, 0⟩)).winner = true := by
  decide +kernel

end Xha
