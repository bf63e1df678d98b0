/-
`wait_until_all_hosts_have_consistent_view` (sm.c): one pass of the consistency check, and the
freezing of the view into `smvar.stable_hb` and `smvar.stable_sf`, directly when the check held and
after the partition merge when it timed out.
-/
import Xha.Sm.Merge

namespace Xha

open Loop

/-! ## The consistency check -/

/-- `MTC_HOSTMAP_MASK_UNCONFIG` on the two domains of a record. -/
def RawData.maskUnconfig (n : Nat) (r : RawData) : RawData :=
  { r with hbdomain := r.hbdomain.maskUnconfig n, sfdomain := r.sfdomain.maskUnconfig n }

/-- The four comparisons against host `index`: a peer in the local heartbeat domain must agree in
its heartbeat record, a peer in the local State-File domain in its State-File record. -/
def sameView (liveset myHbdomain mySfdomain : HostMap) (index : Nat) (hbRaw sfRaw : RawData) : Bool :=
  !((myHbdomain.isOn index && myHbdomain != (hbRaw.hbdomain &&& liveset)) ||
    (mySfdomain.isOn index && mySfdomain != (sfRaw.sfdomain &&& liveset)) ||
    (mySfdomain.isOn index && myHbdomain != (sfRaw.hbdomain &&& liveset)) ||
    (myHbdomain.isOn index && mySfdomain != (hbRaw.sfdomain &&& liveset)))

/-- What one pass of the check leaves: the verdict, the local domains within the liveset, and the
two objects with the records it looked at masked in place. -/
structure ViewCheck where
  consistent : Bool
  myHbdomain : HostMap
  mySfdomain : HostMap
  hb : ComDataHb
  sf : ComDataSf

/-- The loop of the check over the hosts listed; it stops at the first that disagrees. -/
def checkPeers (c : HaConfig) (liveset myHbdomain mySfdomain : HostMap) :
    List Nat → ComDataHb → ComDataSf → Bool × ComDataHb × ComDataSf
  | [], hb, sf => (true, hb, sf)
  | index :: rest, hb, sf =>
    if index != c.myIndex && liveset.isOn index then
      let hb := { hb with raw := Function.update hb.raw index ((hb.raw index).maskUnconfig c.hostnum) }
      let sf := { sf with raw := Function.update sf.raw index ((sf.raw index).maskUnconfig c.hostnum) }
      if sameView liveset myHbdomain mySfdomain index (hb.raw index) (sf.raw index) then
        checkPeers c liveset myHbdomain mySfdomain rest hb sf
      else (false, hb, sf)
    else checkPeers c liveset myHbdomain mySfdomain rest hb sf

/-- One pass of the check, under the locks of the three objects. -/
def checkConsistentView (c : HaConfig) (sm : ComDataSm) (hb : ComDataHb) (sf : ComDataSf) : ViewCheck :=
  let hb := { hb with hbdomain := hb.hbdomain.maskUnconfig c.hostnum }
  let sf := { sf with sfdomain := sf.sfdomain.maskUnconfig c.hostnum }
  let myHbdomain := hb.hbdomain &&& sm.currentLiveset
  let mySfdomain := sf.sfdomain &&& sm.currentLiveset
  let r := checkPeers c sm.currentLiveset myHbdomain mySfdomain (List.range c.hostnum) hb sf
  ⟨r.1, myHbdomain, mySfdomain, r.2.1, r.2.2⟩

/-! ## The merge on the timeout path -/

/-- A record with the two domains cut down to the liveset. -/
def RawData.within (liveset : HostMap) (r : RawData) : RawData :=
  { r with hbdomain := r.hbdomain &&& liveset, sfdomain := r.sfdomain &&& liveset }

/-- Cut the `hbdomain` and `sfdomain` of every configured record down to the liveset. -/
def restrictRaw (n : Nat) (liveset : HostMap) (raw : Nat → RawData) : Nat → RawData :=
  forRange n raw fun raw i => Function.update raw i ((raw i).within liveset)

/-- What the removal of peers that lost the State-File edits: `my_sfdomain` and the two local records.
`psf->sfdomain` gets the same resets and is overwritten with `my_sfdomain` at the end of the merge. -/
structure LostState where
  mySfdomain : HostMap
  hbRaw : Nat → RawData
  sfRaw : Nat → RawData

/-- Take bit `i` off the `sfdomain` of record `me`. -/
def resetSfdomain (raw : Nat → RawData) (me i : Nat) : Nat → RawData :=
  Function.update raw me { raw me with sfdomain := (raw me).sfdomain.reset i }

/-- "remove hosts that have lost state file": a peer goes when its State-File record or its heartbeat
record shows an empty State-File domain. -/
def dropLostStateFile (c : HaConfig) (s : LostState) : LostState :=
  forRange c.hostnum s fun s i =>
    if i = c.myIndex then s
    else if isEmptyLiveset c.hostnum (s.sfRaw i).sfdomain || isEmptyLiveset c.hostnum (s.hbRaw i).sfdomain then
      { mySfdomain := s.mySfdomain.reset i
        hbRaw := resetSfdomain s.hbRaw c.myIndex i
        sfRaw := resetSfdomain s.sfRaw c.myIndex i }
    else s

/-- Remove every host without State-File access from the records. -/
def removeNoStateFile (n : Nat) (mySfdomain : HostMap) (raw : Nat → RawData) : MergeState :=
  forRange n ⟨raw, .empty⟩ fun s i => if !mySfdomain.isOn i then removeHost n i s else s

/-- The records the merge starts from: the local ones are the local domains, all are cut down to
the liveset. -/
def mergeRaw (c : HaConfig) (liveset myHbdomain mySfdomain : HostMap) (raw : Nat → RawData) : Nat → RawData :=
  restrictRaw c.hostnum liveset
    (Function.update raw c.myIndex { raw c.myIndex with hbdomain := myHbdomain, sfdomain := mySfdomain })

/-- The records once the peers that lost the State-File are removed. -/
def mergeLost (c : HaConfig) (liveset myHbdomain mySfdomain : HostMap) (hb : ComDataHb) (sf : ComDataSf) :
    LostState :=
  dropLostStateFile c ⟨mySfdomain, mergeRaw c liveset myHbdomain mySfdomain hb.raw,
    mergeRaw c liveset myHbdomain mySfdomain sf.raw⟩

/-- The merge: `removedhost` and the State-File records at the end of its loop. -/
def mergeEnd (c : HaConfig) (liveset myHbdomain mySfdomain : HostMap) (hb : ComDataHb) (sf : ComDataSf) :
    MergeState :=
  let lost := mergeLost c liveset myHbdomain mySfdomain hb sf
  mergeLoop c.hostnum sf.weight c.hostnum (removeNoStateFile c.hostnum lost.mySfdomain lost.sfRaw)

/-- The timeout path: the frozen objects with the domains and records the merge leaves. -/
def mergeView (c : HaConfig) (liveset myHbdomain mySfdomain : HostMap) (hb : ComDataHb) (sf : ComDataSf) :
    ComDataHb × ComDataSf :=
  let lost := mergeLost c liveset myHbdomain mySfdomain hb sf
  let sfRaw := restrictRaw c.hostnum liveset (mergeEnd c liveset myHbdomain mySfdomain hb sf).raw
  ({ hb with raw := restrictRaw c.hostnum liveset lost.hbRaw, hbdomain := (sfRaw c.myIndex).hbdomain },
    { sf with raw := sfRaw, sfdomain := lost.mySfdomain })

/-- Freezing the view once the loop is left: the objects as they are then, merged on a timeout. -/
def freezeView (c : HaConfig) (sm : ComDataSm) (consistent : Bool) (myHbdomain mySfdomain : HostMap)
    (hb : ComDataHb) (sf : ComDataSf) : ComDataHb × ComDataSf :=
  if consistent then (hb, sf) else mergeView c sm.currentLiveset myHbdomain mySfdomain hb sf

/-- `wait_until_all_hosts_have_consistent_view` on a state that does not change while it runs: the
consistent exit when the check holds, the timeout exit otherwise. -/
def waitUntilAllHostsHaveConsistentView (c : HaConfig) (h : Host) : Host :=
  let v := checkConsistentView c h.sm h.hb h.sf
  let s := freezeView c h.sm v.consistent v.myHbdomain v.mySfdomain v.hb v.sf
  { h with hb := v.hb, sf := v.sf, smvar := { h.smvar with stableHb := s.1, stableSf := s.2 } }

/-! ## What the check compares -/

theorem checkPeers_frame (c : HaConfig) (liveset myHbdomain mySfdomain : HostMap) :
    ∀ (l : List Nat) (hb : ComDataHb) (sf : ComDataSf),
      let r := checkPeers c liveset myHbdomain mySfdomain l hb sf
      r.2.1 = { hb with raw := r.2.1.raw } ∧ r.2.2 = { sf with raw := r.2.2.raw }
  | [], hb, sf => ⟨rfl, rfl⟩
  | index :: rest, hb, sf => by
    simp only [checkPeers]
    split
    · split
      · exact checkPeers_frame c liveset myHbdomain mySfdomain rest _ _
      · exact ⟨rfl, rfl⟩
    · exact checkPeers_frame c liveset myHbdomain mySfdomain rest _ _

theorem RawData.maskUnconfig_twice (n : Nat) (r : RawData) : (r.maskUnconfig n).maskUnconfig n = r.maskUnconfig n := by
  unfold RawData.maskUnconfig
  congr 1 <;> exact HostMap.ext fun i => by simp

/-- The check only masks records in place. -/
theorem checkPeers_raw (c : HaConfig) (liveset myHbdomain mySfdomain : HostMap) :
    ∀ (l : List Nat) (hb : ComDataHb) (sf : ComDataSf) (j : Nat),
      let r := checkPeers c liveset myHbdomain mySfdomain l hb sf
      (r.2.1.raw j = hb.raw j ∨ r.2.1.raw j = (hb.raw j).maskUnconfig c.hostnum) ∧
      (r.2.2.raw j = sf.raw j ∨ r.2.2.raw j = (sf.raw j).maskUnconfig c.hostnum)
  | [], hb, sf, j => ⟨.inl rfl, .inl rfl⟩
  | index :: rest, hb, sf, j => by
    simp only [checkPeers]
    split
    · split
      · have h := checkPeers_raw c liveset myHbdomain mySfdomain rest
          { hb with raw := Function.update hb.raw index ((hb.raw index).maskUnconfig c.hostnum) }
          { sf with raw := Function.update sf.raw index ((sf.raw index).maskUnconfig c.hostnum) } j
        by_cases hj : j = index
        · subst hj
          simp only [Function.update_self, RawData.maskUnconfig_twice, or_self] at h
          exact ⟨.inr h.1, .inr h.2⟩
        · simpa only [Function.update_of_ne hj] using h
      · by_cases hj : j = index
        · subst hj; simp
        · simp [hj]
    · exact checkPeers_raw c liveset myHbdomain mySfdomain rest hb sf j

/-- The check holds exactly when every peer of the liveset has the same view. -/
theorem checkPeers_iff (c : HaConfig) (liveset myHbdomain mySfdomain : HostMap) :
    ∀ (l : List Nat) (hb : ComDataHb) (sf : ComDataSf), l.Nodup →
      ((checkPeers c liveset myHbdomain mySfdomain l hb sf).1 = true ↔
        ∀ i ∈ l, i ≠ c.myIndex → liveset.isOn i = true →
          sameView liveset myHbdomain mySfdomain i ((hb.raw i).maskUnconfig c.hostnum)
            ((sf.raw i).maskUnconfig c.hostnum) = true)
  | [], hb, sf, _ => by simp [checkPeers]
  | index :: rest, hb, sf, hnd => by
    obtain ⟨hnot, hnd⟩ := List.nodup_cons.1 hnd
    simp only [checkPeers, Function.update_self, List.forall_mem_cons]
    split
    · rename_i hc
      simp only [Bool.and_eq_true, bne_iff_ne, ne_eq] at hc
      split
      · rename_i hsame
        rw [checkPeers_iff c liveset myHbdomain mySfdomain rest _ _ hnd]
        constructor
        · refine fun h => ⟨fun _ _ => hsame, fun i hi => ?_⟩
          have := h i hi
          have hne : i ≠ index := by rintro rfl; exact hnot hi
          simpa only [Function.update_of_ne hne] using this
        · rintro ⟨-, h⟩ i hi
          have := h i hi
          have hne : i ≠ index := by rintro rfl; exact hnot hi
          simpa only [Function.update_of_ne hne] using this
      · rename_i hsame
        constructor
        · intro h; cases h
        · rintro ⟨h, -⟩; exact absurd (h hc.1 hc.2) hsame
    · rename_i hc
      rw [checkPeers_iff c liveset myHbdomain mySfdomain rest _ _ hnd]
      constructor
      · refine fun h => ⟨fun h1 h2 => ?_, h⟩
        exact absurd (by simp [h1, h2]) hc
      · exact fun h => h.2

/-- The four equalities of the check against one peer, as maps. -/
theorem sameView_iff {liveset myHbdomain mySfdomain : HostMap} {i : Nat} {hbRaw sfRaw : RawData} :
    sameView liveset myHbdomain mySfdomain i hbRaw sfRaw = true ↔
      (myHbdomain.isOn i = true → myHbdomain = hbRaw.hbdomain &&& liveset ∧ mySfdomain = hbRaw.sfdomain &&& liveset) ∧
      (mySfdomain.isOn i = true → mySfdomain = sfRaw.sfdomain &&& liveset ∧ myHbdomain = sfRaw.hbdomain &&& liveset) := by
  unfold sameView
  simp only [Bool.not_eq_true', Bool.or_eq_false_iff, Bool.and_eq_false_imp, bne_eq_false_iff_eq]
  tauto

end Xha
