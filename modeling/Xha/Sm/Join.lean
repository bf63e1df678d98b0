/-
Joining a liveset (sm.c): the sections of `join` under the locks, and `process_join_request`, by which
every host of a liveset acknowledges the hosts that ask to join it and takes them in.
-/
import Xha.Sm.FaultHandler

namespace Xha

open Loop

/-! ## The joining host -/

/-- `join` asks by proposing the local host. -/
def Host.requestJoin (me : Nat) (h : Host) : Host :=
  { h with sm := { h.sm with proposedLiveset := h.sm.proposedLiveset.set me } : Host }.smWriterUnlock

/-- The check of `join`: everybody else in the liveset proposes the local host. -/
def joinAllowed (c : HaConfig) (psm : ComDataSm) (phb : ComDataHb) : Bool :=
  (List.range c.hostnum).all fun index =>
    !(index != c.myIndex && psm.currentLiveset.isOn index && !(phb.raw index).proposedLiveset.isOn c.myIndex)

/-- The end of `join`: the local host is in the liveset, or its request is cancelled. -/
def Host.concludeJoin (me : Nat) (joined : Bool) (h : Host) : Host :=
  let h := { h with hb := { h.hb with ctl := { h.hb.ctl with join := false } } }
  if joined then
    { h with
      sm := { h.sm with currentLiveset := h.sm.currentLiveset.set me }
      smvar := { h.smvar with sr2 := h.sm.sr2 } : Host }.smWriterUnlock
  else { h with sm := { h.sm with proposedLiveset := h.sm.proposedLiveset.reset me } : Host }.smWriterUnlock

/-! ## The other hosts -/

/-- What `process_join_request` works on. -/
structure JoinUpdate where
  proposedLiveset : HostMap
  joiningSet : HostMap
  deriving DecidableEq

/-- Host `index`, as last heard, asks to join. -/
def requestsJoin (phb : ComDataHb) (index : Nat) : Bool :=
  phb.hbdomain.isOn index && !(phb.raw index).currentLiveset.isOn index && (phb.raw index).proposedLiveset.isOn index

/-- Everybody in the liveset has acknowledged the request of `index`. -/
def joinAcknowledged (c : HaConfig) (currentLiveset proposedLiveset : HostMap) (phb : ComDataHb) (index : Nat) : Bool :=
  (List.range c.hostnum).all fun index2 =>
    !(currentLiveset.isOn index2 &&
      (if index2 = c.myIndex then !proposedLiveset.isOn index else !(phb.raw index2).proposedLiveset.isOn index))

/-- One turn of the loop of `process_join_request`. -/
def processJoinHost (c : HaConfig) (h : Host) (s : JoinUpdate) (index : Nat) : JoinUpdate :=
  if index = c.myIndex then s
  else if requestsJoin h.hb index then
    let s := if !h.smvar.joinBlock && (h.sf.sfdomain.isOn index || h.sm.sr2) then
        { s with proposedLiveset := s.proposedLiveset.set index }
      else s
    if !h.sm.currentLiveset.isOn index && joinAcknowledged c h.sm.currentLiveset s.proposedLiveset h.hb index then
      { s with joiningSet := s.joiningSet.set index }
    else s
  -- "If the peer thinks he is in the liveset, accept join."
  else if h.hb.hbdomain.isOn index && (h.hb.raw index).currentLiveset.isOn index &&
      !h.sm.currentLiveset.isOn index then
    ⟨s.proposedLiveset.set index, s.joiningSet.set index⟩
  else s

/-- The loop of `process_join_request`; with an empty liveset it is left to the start criteria. -/
def joinUpdate (c : HaConfig) (h : Host) : JoinUpdate :=
  if isEmptyLiveset c.hostnum h.sm.currentLiveset then ⟨h.sm.proposedLiveset, .empty⟩
  else forRange c.hostnum ⟨h.sm.proposedLiveset, .empty⟩ (processJoinHost c h)

/-- `process_join_request`. -/
def processJoinRequest (c : HaConfig) (h : Host) : Host :=
  let s := joinUpdate c h
  { h with sm := { h.sm with
      proposedLiveset := s.proposedLiveset
      currentLiveset := h.sm.currentLiveset ||| s.joiningSet } : Host }.smWriterUnlock

/-! ## What it does to each host -/

/-- The conditions on which `process_join_request` proposes host `j`. -/
def Host.ProposesJoin (me : Nat) (h : Host) (j : Nat) : Prop :=
  j ≠ me ∧ h.hb.hbdomain.isOn j = true ∧
    ((requestsJoin h.hb j = true ∧ h.smvar.joinBlock = false ∧ (h.sf.sfdomain.isOn j = true ∨ h.sm.sr2 = true)) ∨
      ((h.hb.raw j).currentLiveset.isOn j = true ∧ h.sm.currentLiveset.isOn j = false))

theorem hbdomain_of_requestsJoin {phb : ComDataHb} {j : Nat} (h : requestsJoin phb j = true) :
    phb.hbdomain.isOn j = true := by
  simp only [requestsJoin, Bool.and_eq_true] at h
  exact h.1.1

section

variable {c : HaConfig} {h : Host}

/-- One turn keeps the bits that are on, and turns on the bit of its own host only. -/
theorem processJoinHost_spec (s : JoinUpdate) (index j : Nat) :
    (s.proposedLiveset.isOn j = true → (processJoinHost c h s index).proposedLiveset.isOn j = true) ∧
    ((processJoinHost c h s index).proposedLiveset.isOn j = true →
      s.proposedLiveset.isOn j = true ∨ (index = j ∧ h.ProposesJoin c.myIndex j)) ∧
    ((processJoinHost c h s index).joiningSet.isOn j = true →
      s.joiningSet.isOn j = true ∨ (j ≠ c.myIndex ∧ h.hb.hbdomain.isOn j = true)) := by
  -- the bit of `index` goes on in a map `b`, for a reason `p` that holds of `index`
  have hset : ∀ (b : HostMap) (p : Nat → Prop), p index → (b.set index).isOn j = true →
      b.isOn j = true ∨ (index = j ∧ p j) := by
    intro b p hp hj
    rw [HostMap.isOn_set, Bool.or_eq_true, decide_eq_true_eq] at hj
    rcases hj with hj | ⟨rfl, -⟩
    · exact .inl hj
    · exact .inr ⟨rfl, hp⟩
  have hkeep : ∀ b : HostMap, b.isOn j = true → (b.set index).isOn j = true := by
    intro b hj
    rw [HostMap.isOn_set, hj]
    rfl
  have hjoin : ∀ b : HostMap, index ≠ c.myIndex → h.hb.hbdomain.isOn index = true → (b.set index).isOn j = true →
      b.isOn j = true ∨ (j ≠ c.myIndex ∧ h.hb.hbdomain.isOn j = true) := by
    intro b hme hdom hj
    exact (hset b (fun i => i ≠ c.myIndex ∧ h.hb.hbdomain.isOn i = true) ⟨hme, hdom⟩ hj).imp_right And.right
  unfold processJoinHost
  dsimp only
  by_cases hme : index = c.myIndex
  · rw [if_pos hme]
    exact ⟨id, .inl, .inl⟩
  rw [if_neg hme]
  by_cases hreq : requestsJoin h.hb index = true
  · rw [if_pos hreq]
    have hdom := hbdomain_of_requestsJoin hreq
    by_cases hack : (!h.smvar.joinBlock && (h.sf.sfdomain.isOn index || h.sm.sr2)) = true
    · rw [if_pos hack]
      have hprop : h.ProposesJoin c.myIndex index := by
        rw [Bool.and_eq_true, Bool.or_eq_true, Bool.not_eq_true'] at hack
        exact ⟨hme, hdom, .inl ⟨hreq, hack.1, hack.2⟩⟩
      split
      · exact ⟨hkeep _, hset _ _ hprop, hjoin _ hme hdom⟩
      · exact ⟨hkeep _, hset _ _ hprop, .inl⟩
    · rw [if_neg hack]
      split
      · exact ⟨id, .inl, hjoin _ hme hdom⟩
      · exact ⟨id, .inl, .inl⟩
  · rw [if_neg hreq]
    split
    · rename_i hclaim
      simp only [Bool.and_eq_true, Bool.not_eq_true'] at hclaim
      have hprop : h.ProposesJoin c.myIndex index := ⟨hme, hclaim.1.1, .inr ⟨hclaim.1.2, hclaim.2⟩⟩
      exact ⟨hkeep _, hset _ _ hprop, hjoin _ hme hclaim.1.1⟩
    · exact ⟨id, .inl, .inl⟩

theorem joinUpdate_spec (j : Nat) :
    (h.sm.proposedLiveset.isOn j = true → (joinUpdate c h).proposedLiveset.isOn j = true) ∧
    ((joinUpdate c h).proposedLiveset.isOn j = true →
      h.sm.proposedLiveset.isOn j = true ∨ (j < c.hostnum ∧ h.ProposesJoin c.myIndex j)) ∧
    ((joinUpdate c h).joiningSet.isOn j = true → j ≠ c.myIndex ∧ h.hb.hbdomain.isOn j = true) := by
  unfold joinUpdate
  split
  · exact ⟨id, .inl, fun hj => by simp at hj⟩
  · refine forRange_inv (fun _ (s : JoinUpdate) => (h.sm.proposedLiveset.isOn j = true → s.proposedLiveset.isOn j = true) ∧
      (s.proposedLiveset.isOn j = true →
        h.sm.proposedLiveset.isOn j = true ∨ (j < c.hostnum ∧ h.ProposesJoin c.myIndex j)) ∧
      (s.joiningSet.isOn j = true → j ≠ c.myIndex ∧ h.hb.hbdomain.isOn j = true))
      ⟨id, .inl, fun hj => by simp at hj⟩ fun k s hk hs => ?_
    obtain ⟨hmono, hprop, hjoin⟩ := processJoinHost_spec (c := c) (h := h) s k j
    refine ⟨fun hj => hmono (hs.1 hj), fun hj => ?_, fun hj => (hjoin hj).elim hs.2.2 id⟩
    rcases hprop hj with hj | ⟨rfl, hj⟩
    · exact hs.2.1 hj
    · exact .inr ⟨hk, hj⟩

theorem joinUpdate_lt {j : Nat} : (joinUpdate c h).joiningSet.isOn j = true → j < c.hostnum := by
  unfold joinUpdate
  split
  · intro hj
    simp at hj
  · refine forRange_inv (fun k (s : JoinUpdate) => s.joiningSet.isOn j = true → j < c.hostnum)
      (fun hj => by simp at hj) fun k s hk hs => ?_
    have hset : (s.joiningSet.set k).isOn j = true → j < c.hostnum := by
      intro hj
      rw [HostMap.isOn_set, Bool.or_eq_true, decide_eq_true_eq] at hj
      rcases hj with hj | ⟨rfl, -⟩
      · exact hs hj
      · exact hk
    unfold processJoinHost
    dsimp only
    split_ifs <;> first | exact hs | exact hset

/-- Unless joins are blocked, whoever of the State-File domain is taken in is proposed. -/
theorem joinUpdate_taken {j : Nat} (hblock : h.smvar.joinBlock = false) (hsf : h.sf.sfdomain.isOn j = true) :
    (joinUpdate c h).joiningSet.isOn j = true → (joinUpdate c h).proposedLiveset.isOn j = true := by
  unfold joinUpdate
  split
  · intro hj
    simp at hj
  · refine forRange_inv (fun _ (s : JoinUpdate) => s.joiningSet.isOn j = true → s.proposedLiveset.isOn j = true)
      (fun hj => by simp at hj) fun k s _ hs => ?_
    have hset : ∀ b : HostMap, (b.set k).isOn j = true → b.isOn j = true ∨ (k = j ∧ j < maxHostNum) := by
      intro b hj
      rw [HostMap.isOn_set, Bool.or_eq_true, decide_eq_true_eq] at hj
      exact hj
    unfold processJoinHost
    dsimp only
    split_ifs with hme hreq hack hall hall hclaim
    · exact hs
    · intro hj
      rw [HostMap.isOn_set, Bool.or_eq_true, decide_eq_true_eq]
      exact (hset _ hj).imp_left hs
    · intro hj
      rw [HostMap.isOn_set, hs hj]
      rfl
    · intro hj
      rcases hset _ hj with hj | ⟨rfl, -⟩
      · exact hs hj
      · simp [hblock, hsf] at hack
    · exact hs
    · intro hj
      rw [HostMap.isOn_set, Bool.or_eq_true, decide_eq_true_eq]
      exact (hset _ hj).imp_left hs
    · exact hs

end

theorem Host.smWriterUnlock_livesets (h : Host) :
    h.smWriterUnlock.sm.currentLiveset = h.sm.currentLiveset ∧
    h.smWriterUnlock.sm.proposedLiveset = h.sm.proposedLiveset :=
  ⟨smWriterUnlock_liveset h, smWriterUnlock_proposed h⟩

theorem Host.smWriterUnlock_joinBlock (h : Host) : h.smWriterUnlock.smvar.joinBlock = h.smvar.joinBlock := by
  unfold smWriterUnlock
  split <;> rfl

theorem Host.updateHbData_domains (h : Host) (now : MtcClock) (pkt : HbPacket) :
    (h.updateHbData now pkt).hb.hbdomain = h.hb.hbdomain ∧ (h.updateHbData now pkt).sf.sfdomain = h.sf.sfdomain ∧
    (h.updateHbData now pkt).sm.currentLiveset = h.sm.currentLiveset ∧
    (h.updateHbData now pkt).sm.proposedLiveset = h.sm.proposedLiveset := by
  rw [updateHbData_hb, updateHbData_sf, updateHbData, smWriterUnlock_liveset, smWriterUnlock_proposed]
  exact ⟨rfl, rfl, rfl, rfl⟩

theorem processJoinRequest_livesets (c : HaConfig) (h : Host) :
    (processJoinRequest c h).sm.currentLiveset = h.sm.currentLiveset ||| (joinUpdate c h).joiningSet ∧
    (processJoinRequest c h).sm.proposedLiveset = (joinUpdate c h).proposedLiveset :=
  Host.smWriterUnlock_livesets _

end Xha
