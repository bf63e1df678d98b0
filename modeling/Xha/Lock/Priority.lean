/-
The thread `lock_mgr` (lock_mgr.c) statement by statement, with the State-File object and its copy `lmvar.sf` apart:
other threads write the object under its writer lock, and the callback of the unlock renews the copy. Wherever the
thread stands, a host that requests the lock grants it to nobody of lower priority (`requesting_grants_no_lower`): while
nobody writes the object, the thread decides on what the object says (`LockMgrInv`).
-/
import Mathlib.Logic.Relation
import Xha.Lock.Manager
import Xha.StateFile.Machine

namespace Xha

open Loop Transition

/-! ## The thread -/

/-- Where `lock_mgr` stands: at its wait, before it takes the two locks, in the loop that cancels grants, before its
own requests, in the loop that grants. -/
inductive LockMgrPc
  | waiting
  | locking
  | cancelling (index : Nat)
  | requesting
  | granting (index : Nat)
  | terminated
  deriving DecidableEq

/-- The thread has the writer lock of the State-File object and `lmvar.mutex`. -/
def LockMgrPc.inTurn : LockMgrPc → Bool
  | .cancelling _ | .requesting | .granting _ => true
  | _ => false

/-- A host as its lock manager sees it: the State-File object, `lmvar`, and whether another thread has the writer
lock of the object. -/
structure LockMgr where
  psf : ComDataSf
  lmvar : LmVar
  terminate : Bool
  writer : Bool
  pc : LockMgrPc

/-- The flags of the local host in the object. -/
def LockMgr.own (me : Nat) (s : LockMgr) : LmFields := s.psf.lm me

/-- The thread has written these flags and stands at `pc`. -/
def LockMgr.setOwn (me : Nat) (s : LockMgr) (own : LmFields) (pc : LockMgrPc) : LockMgr :=
  { s with psf := { s.psf with lm := Function.update s.psf.lm me own }, pc }

/-- A turn of the loop "cancelling my grant flags when the request is canceled". -/
def cancelGrant (v : LmVar) (own : LmFields) (index : Nat) : LmFields :=
  if !(v.sf.lm index).request || !v.isOnline index then { own with grant := own.grant.reset index } else own

/-- A turn of the loop "granting to others". -/
def grantToOther (me : Nat) (v : LmVar) (own : LmFields) (index : Nat) : LmFields :=
  if (v.sf.lm index).request && v.isOnline index && (!own.request || isEqualOrPriorToThisNode me index) then
    { own with grant := own.grant.set index }
  else own

theorem cancelGrants_eq (c : HaConfig) (v : LmVar) (own : LmFields) :
    cancelGrants c v own = forRange c.hostnum own (cancelGrant v) := rfl

theorem grantToOthers_eq (c : HaConfig) (v : LmVar) (own : LmFields) :
    grantToOthers c v own = forRange c.hostnum own (grantToOther c.myIndex v) := rfl

/-- The next statement of `lock_mgr`. -/
def LockMgr.turn (c : HaConfig) (s : LockMgr) : Option LockMgr :=
  match s.pc with
  | .waiting =>
    if s.terminate then some { s with pc := .terminated }
    else if !s.lmvar.sf.sfAccess || !s.lmvar.isOnline c.myIndex then some s
    else some { s with pc := .locking }
  | .locking => if s.writer then none else some { s with pc := .cancelling 0 }
  | .cancelling index =>
    if index < c.hostnum then
      some (s.setOwn c.myIndex (cancelGrant s.lmvar (s.own c.myIndex) index) (.cancelling (index + 1)))
    else some { s with pc := .requesting }
  | .requesting =>
    let r := processRequests c s.lmvar (s.own c.myIndex)
    some { s.setOwn c.myIndex r.2 (.granting 0) with lmvar := r.1 }
  | .granting index =>
    if index < c.hostnum then
      some (s.setOwn c.myIndex (grantToOther c.myIndex s.lmvar (s.own c.myIndex) index) (.granting (index + 1)))
    else some { s with lmvar := { s.lmvar with firstCleanupDone := true, sf := s.psf }, pc := .waiting }
  | .terminated => none

inductive LockMgrAction
  | turn
  /-- `lm_request_lock` and `lm_cancel_lock` under the mutex: a request is made, a cancel is requested. -/
  | requestLock
  | cancelLock
  /-- `lm_initialize(-1)`. -/
  | terminate
  /-- Another thread writes the object. -/
  | writerLock
  | write (psf : ComDataSf)
  | writerUnlock
  /-- `lm_sm_updated`. -/
  | smUpdated (psm : ComDataSm)

/-- A step. The other threads never write the flags of the local host, and `lm_sf_updated` copies the object. -/
def lockMgrNext (c : HaConfig) (s : LockMgr) : LockMgrAction → Option LockMgr
  | .turn => s.turn c
  | .requestLock => if s.pc.inTurn then none else some { s with lmvar := { s.lmvar with pendingRequest := true } }
  | .cancelLock => if s.pc.inTurn then none else some { s with lmvar := { s.lmvar with cancelRequest := true } }
  | .terminate =>
    if s.pc.inTurn then none
    else some { s with terminate := true, lmvar := { s.lmvar with pendingRequest := false, cancelRequest := true } }
  | .writerLock => if s.writer || s.pc.inTurn then none else some { s with writer := true }
  | .write psf =>
    if s.writer then some { s with psf := { psf with lm := Function.update psf.lm c.myIndex (s.own c.myIndex) } } else none
  | .writerUnlock => if s.writer then some { s with lmvar := { s.lmvar with sf := s.psf }, writer := false } else none
  | .smUpdated psm => if s.pc.inTurn then none else some { s with lmvar := { s.lmvar with sm := psm } }

/-- `sf_initialize0` has made the object, and `lm_initialize(0)` has cleared the copies; a callback may have
renewed them since. -/
structure LockMgr.Started (c : HaConfig) (s : LockMgr) : Prop where
  psf : s.psf = .initial c.myIndex
  sf : s.lmvar.sf.sfAccess = false
  pending : s.lmvar.pendingRequest = false
  cancel : s.lmvar.cancelRequest = false
  cleanup : s.lmvar.firstCleanupDone = false
  terminate : s.terminate = false
  writer : s.writer = false
  pc : s.pc = .waiting

/-- The runs of the lock manager of one host. -/
def lockManager (c : HaConfig) : Machine LockMgr LockMgrAction where
  init := LockMgr.Started c
  next := lockMgrNext c

/-! ## The invariant -/

section

variable {c : HaConfig} {s t : LockMgr}

@[simp] theorem LockMgr.own_setOwn (me : Nat) (s : LockMgr) (own : LmFields) (pc : LockMgrPc) :
    (s.setOwn me own pc).own me = own :=
  Function.update_self ..

theorem LockMgr.setOwn_setOwn (me : Nat) (s : LockMgr) (own own' : LmFields) (pc pc' : LockMgrPc) :
    (s.setOwn me own pc).setOwn me own' pc' = s.setOwn me own' pc' := by
  simp only [LockMgr.setOwn, Function.update_idem]

/-- A host that requests the lock grants it to no configured host of lower priority. -/
def LockMgr.GrantsNoLower (c : HaConfig) (s : LockMgr) : Prop :=
  (s.own c.myIndex).request = true → ∀ j < c.hostnum, c.myIndex < j → (s.own c.myIndex).grant.isOn j = false

/-- The copy has not been renewed yet, so the thread has never passed its first test. -/
def LockMgr.Blind (s : LockMgr) : Prop := s.lmvar.sf.sfAccess = false ∧ (s.pc = .waiting ∨ s.pc = .terminated)

/-- Below `k` the grants of hosts that are offline are off, and the copy shows all grants that are left. -/
structure LockMgr.Cancelled (c : HaConfig) (k : Nat) (s : LockMgr) : Prop where
  shown : ∀ j, (s.own c.myIndex).grant.isOn j = true → (s.lmvar.sf.lm c.myIndex).grant.isOn j = true
  offline : ∀ j < k, s.lmvar.isOnline j = false → (s.own c.myIndex).grant.isOn j = false

structure LockMgrInv (c : HaConfig) (s : LockMgr) : Prop where
  writer : s.writer = true → s.pc.inTurn = false
  /-- While nobody writes the object, the copy is the object. -/
  synced : s.pc.inTurn = false → s.writer = false → s.lmvar.sf = s.psf ∨ s.Blind
  cancelling : ∀ k, s.pc = .cancelling k → s.Cancelled c k
  requesting : s.pc = .requesting → s.Cancelled c c.hostnum
  grants : s.GrantsNoLower c

/-- Outside a turn, the invariant speaks of the object, the copy and the two waits of the thread. -/
theorem LockMgrInv.of_idle (hturn : t.pc.inTurn = false) (hsync : t.writer = false → t.lmvar.sf = t.psf ∨ t.Blind)
    (hgrants : t.GrantsNoLower c) : LockMgrInv c t := by
  refine ⟨fun _ => hturn, fun _ => hsync, fun k hk => ?_, fun hr => ?_, hgrants⟩
  · rw [hk] at hturn
    cases hturn
  · rw [hr] at hturn
    cases hturn

theorem LockMgr.Started.inv (h : s.Started c) : LockMgrInv c s := by
  refine .of_idle (by rw [h.pc]; rfl) (fun _ => .inr ⟨h.sf, .inl h.pc⟩) fun hr => ?_
  -- `lm_initialize_lm_fields` grants everybody, but requests nothing
  rw [LockMgr.own, h.psf] at hr
  simp [ComDataSf.initial, lmInitializeLmFields] at hr

/-- Inside a turn nobody else writes the object. -/
theorem LockMgrInv.not_writer (h : LockMgrInv c s) (hturn : s.pc.inTurn = true) : ¬ s.writer = true := by
  intro hw
  have hidle := h.writer hw
  rw [hturn] at hidle
  cases hidle

/-- Past its first test, and with nobody writing, the thread finds the object in the copy. -/
theorem LockMgrInv.copy_eq (h : LockMgrInv c s) (hpc : s.pc ≠ .waiting ∧ s.pc ≠ .terminated) (hturn : s.pc.inTurn = false)
    (hw : s.writer = false) : s.lmvar.sf = s.psf :=
  (h.synced hturn hw).resolve_right fun hb => hb.2.elim hpc.1 hpc.2

/-- Only the flags of the local host matter. -/
theorem LockMgr.GrantsNoLower.congr (h : s.GrantsNoLower c) (hown : t.own c.myIndex = s.own c.myIndex) :
    t.GrantsNoLower c := by
  unfold LockMgr.GrantsNoLower
  rw [hown]
  exact h

/-! ## The statements of a turn -/

theorem LockMgr.Cancelled.cancelGrant {k : Nat} (h : s.Cancelled c k) :
    (s.setOwn c.myIndex (cancelGrant s.lmvar (s.own c.myIndex) k) (.cancelling (k + 1))).Cancelled c (k + 1) := by
  have hon : ∀ j, (Xha.cancelGrant s.lmvar (s.own c.myIndex) k).grant.isOn j = true →
      (s.own c.myIndex).grant.isOn j = true ∧ (s.lmvar.isOnline k = false → j ≠ k) := by
    intro j hj
    unfold Xha.cancelGrant at hj
    split at hj
    · rw [HostMap.isOn_reset, Bool.and_eq_true, decide_eq_true_eq] at hj
      exact ⟨hj.1, fun _ => Ne.symm hj.2⟩
    · rename_i hoff
      refine ⟨hj, fun hk => ?_⟩
      rw [hk] at hoff
      simp at hoff
  refine ⟨fun j hj => ?_, fun j hj hoff => ?_⟩
  · rw [LockMgr.own_setOwn] at hj
    exact h.shown j (hon j hj).1
  · rw [LockMgr.own_setOwn, ← Bool.not_eq_true]
    intro hgrant
    obtain ⟨hold, hne⟩ := hon j hgrant
    rcases Nat.lt_succ_iff_lt_or_eq.1 hj with hlt | rfl
    · rw [h.offline j hlt hoff] at hold
      cases hold
    · exact hne hoff rfl

/-- Cancelling grants only takes grants back. -/
theorem LockMgr.GrantsNoLower.cancelGrant {k : Nat} {p : LockMgrPc} (h : s.GrantsNoLower c) :
    (s.setOwn c.myIndex (cancelGrant s.lmvar (s.own c.myIndex) k) p).GrantsNoLower c := by
  unfold LockMgr.GrantsNoLower at *
  rw [LockMgr.own_setOwn]
  unfold Xha.cancelGrant
  split
  · intro hr j hj hlt
    rw [HostMap.isOn_reset, h hr j hj hlt, Bool.false_and]
  · exact h

/-- Granting to others with REQUEST up reaches hosts of equal or higher priority only. -/
theorem LockMgr.GrantsNoLower.grantToOther {k : Nat} {p : LockMgrPc} (h : s.GrantsNoLower c) :
    (s.setOwn c.myIndex (grantToOther c.myIndex s.lmvar (s.own c.myIndex) k) p).GrantsNoLower c := by
  unfold LockMgr.GrantsNoLower at *
  rw [LockMgr.own_setOwn]
  unfold Xha.grantToOther
  split
  · rename_i hgrant
    intro hr j hj hlt
    have hr : (s.own c.myIndex).request = true := hr
    rw [HostMap.isOn_set, h hr j hj hlt, Bool.false_or, decide_eq_false_iff_not]
    rintro ⟨rfl, -⟩
    rw [hr, isEqualOrPriorToThisNode] at hgrant
    simp [Nat.not_le.2 hlt] at hgrant
  · exact h

/-- REQUEST goes up only when no grant to a host of lower priority is left: the copy shows none to a host that is
online, and the others have been taken back. -/
theorem LockMgr.GrantsNoLower.processRequests {p : LockMgrPc} (h : s.GrantsNoLower c)
    (hcan : s.Cancelled c c.hostnum) :
    (s.setOwn c.myIndex (processRequests c s.lmvar (s.own c.myIndex)).2 p).GrantsNoLower c := by
  unfold LockMgr.GrantsNoLower at *
  obtain ⟨hown, -⟩ := processRequests_spec c s.lmvar (s.own c.myIndex)
  rw [LockMgr.own_setOwn, hown]
  intro hr j hj hlt
  rw [Bool.and_eq_true, Bool.or_eq_true, Bool.and_eq_true] at hr
  rcases hr.2 with hold | ⟨-, hready⟩
  · exact h hold j hj hlt
  · cases hon : s.lmvar.isOnline j with
    | false => exact hcan.offline j hj hon
    | true =>
      have hcopy := not_grant_of_ready hready hj hlt hon
      rw [← Bool.not_eq_true]
      intro hgrant
      rw [hcan.shown j hgrant] at hcopy
      cases hcopy

theorem LockMgrInv.turn (h : LockMgrInv c s) (hn : s.turn c = some t) : LockMgrInv c t := by
  unfold LockMgr.turn at hn
  cases hpc : s.pc with
  | waiting =>
    rw [hpc] at hn
    have hsync := h.synced (by rw [hpc]; rfl)
    dsimp only at hn
    split at hn
    · cases hn
      refine .of_idle rfl (fun hw => ?_) h.grants
      exact (hsync hw).imp_right fun hb => ⟨hb.1, .inr rfl⟩
    · split at hn
      · cases hn
        exact h
      · rename_i haccess
        cases hn
        refine .of_idle rfl (fun hw => .inl ?_) h.grants
        refine (hsync hw).resolve_right fun hb => haccess ?_
        rw [hb.1]
        rfl
  | locking =>
    rw [hpc] at hn
    dsimp only at hn
    split at hn
    · cases hn
    · rename_i hw
      cases hn
      have hsync := h.copy_eq (by rw [hpc]; decide) (by rw [hpc]; rfl) (Bool.eq_false_iff.2 hw)
      refine ⟨fun hw' => absurd hw' hw, nofun, fun k hk => ?_, nofun, h.grants⟩
      cases hk
      refine ⟨fun j hj => ?_, fun j hj => absurd hj (Nat.not_lt_zero j)⟩
      show (s.lmvar.sf.lm c.myIndex).grant.isOn j = true
      rw [hsync]
      exact hj
  | cancelling index =>
    have hw := h.not_writer (by rw [hpc]; rfl)
    have hcan := h.cancelling index hpc
    rw [hpc] at hn
    dsimp only at hn
    split at hn
    · cases hn
      refine ⟨fun hw' => absurd hw' hw, nofun, fun k hk => ?_, nofun, h.grants.cancelGrant⟩
      cases hk
      exact hcan.cancelGrant
    · rename_i hge
      cases hn
      refine ⟨fun hw' => absurd hw' hw, nofun, nofun, fun _ => ?_, h.grants⟩
      exact ⟨hcan.shown, fun j hj => hcan.offline j (lt_of_lt_of_le hj (Nat.not_lt.1 hge))⟩
  | requesting =>
    have hw := h.not_writer (by rw [hpc]; rfl)
    have hcan := h.requesting hpc
    rw [hpc] at hn
    cases hn
    exact ⟨fun hw' => absurd hw' hw, nofun, nofun, nofun,
      h.grants.processRequests (p := .granting 0) hcan⟩
  | granting index =>
    have hw := h.not_writer (by rw [hpc]; rfl)
    rw [hpc] at hn
    dsimp only at hn
    split at hn
    · cases hn
      exact ⟨fun hw' => absurd hw' hw, nofun, nofun, nofun,
        h.grants.grantToOther⟩
    · cases hn
      exact .of_idle rfl (fun _ => .inl rfl) h.grants
  | terminated =>
    rw [hpc] at hn
    cases hn

theorem LockMgrInv.next {a : LockMgrAction} (h : LockMgrInv c s) (hn : lockMgrNext c s a = some t) : LockMgrInv c t := by
  cases a with
  | turn => exact h.turn hn
  | requestLock | cancelLock | terminate | smUpdated psm =>
    simp only [lockMgrNext] at hn
    split at hn
    · cases hn
    · rename_i hturn
      rw [Bool.not_eq_true] at hturn
      cases hn
      exact .of_idle hturn (h.synced hturn) h.grants
  | writerLock =>
    simp only [lockMgrNext] at hn
    split at hn
    · cases hn
    · rename_i hfree
      rw [Bool.not_eq_true, Bool.or_eq_false_iff] at hfree
      cases hn
      exact .of_idle hfree.2 nofun h.grants
  | write psf =>
    simp only [lockMgrNext] at hn
    split at hn
    · rename_i hw
      cases hn
      refine .of_idle (h.writer hw) (fun hw' => ?_) (h.grants.congr (Function.update_self ..))
      exact absurd hw (Bool.eq_false_iff.1 hw')
    · cases hn
  | writerUnlock =>
    simp only [lockMgrNext] at hn
    split at hn
    · rename_i hw
      cases hn
      exact .of_idle (h.writer hw) (fun _ => .inl rfl) h.grants
    · cases hn

theorem LockMgrInv.of_reachable (h : (lockManager c).Reachable s) : LockMgrInv c s :=
  h.inv (fun _ => LockMgr.Started.inv) fun _ _ _ hinv _ hn => hinv.next hn

/-- In every reachable state a host that requests the lock grants it to no host of lower priority, and no step
turns such a grant on while REQUEST stays up. -/
theorem requesting_grants_no_lower (c : HaConfig) (s : LockMgr) (h : (lockManager c).Reachable s) :
    ((s.psf.lm c.myIndex).request = true →
      ∀ j < c.hostnum, c.myIndex < j → (s.psf.lm c.myIndex).grant.isOn j = false) ∧
    ∀ (a : LockMgrAction) (t : LockMgr), lockMgrNext c s a = some t →
      (s.psf.lm c.myIndex).request = true → (t.psf.lm c.myIndex).request = true →
        ∀ j < c.hostnum, c.myIndex < j → (t.psf.lm c.myIndex).grant.isOn j = false := by
  have hinv := LockMgrInv.of_reachable h
  exact ⟨hinv.grants, fun a t hn _ hr => (hinv.next hn).grants hr⟩

/-- The lock manager of the first host of a pool of two, before its first turn. -/
def LockMgr.pair : LockMgr where
  psf := .initial 0
  lmvar := ⟨false, false, false, .initial 0, .initial⟩
  terminate := false
  writer := false
  pc := .waiting

theorem LockMgr.pair_started : LockMgr.pair.Started .pair := ⟨rfl, rfl, rfl, rfl, rfl, rfl, rfl, rfl⟩

/-- The State-File is read and both hosts are online. -/
def bothOnline : List LockMgrAction :=
  [.writerLock, .write { ComDataSf.initial 0 with sfAccess := true }, .writerUnlock,
    .smUpdated { ComDataSm.initial with currentLiveset := 3 }]

/-- The request of a host is made when all that it granted at first is taken back. -/
theorem requesting_grants_no_lower_first :
    ∃ s : LockMgr, (s.psf.lm 0).request = true ∧ (s.psf.lm 0).grant.isOn 1 = false := by
  have hrun : ∃ s, (lockManager .pair).Reachable s ∧ (s.psf.lm 0).request = true :=
    Machine.reach_of_check LockMgr.pair_started
      (bothOnline ++ .requestLock :: List.replicate 18 .turn) (fun s : LockMgr => (s.psf.lm 0).request) (by decide +kernel)
  obtain ⟨s, hs, hr⟩ := hrun
  exact ⟨s, hr, (requesting_grants_no_lower .pair s hs).1 hr 1 (by decide) (by decide)⟩

/-! ## A whole turn, and the other threads -/

/-- The thread goes on by itself. -/
abbrev LockMgr.Runs (c : HaConfig) : LockMgr → LockMgr → Prop := Relation.ReflTransGen fun s t => s.turn c = some t

/-- A loop of the thread over the hosts. -/
theorem LockMgr.runs_loop {p : Nat → LockMgrPc} {f : LmFields → Nat → LmFields} (s : LockMgr) (hpc : s.pc = p 0)
    (hturn : ∀ t : LockMgr, ∀ k < c.hostnum, t.lmvar = s.lmvar → t.pc = p k →
      t.turn c = some (t.setOwn c.myIndex (f (t.own c.myIndex) k) (p (k + 1)))) :
    LockMgr.Runs c s (s.setOwn c.myIndex (forRange c.hostnum (s.own c.myIndex) f) (p c.hostnum)) := by
  have hrun : ∀ k ≤ c.hostnum,
      LockMgr.Runs c s (s.setOwn c.myIndex (forRange k (s.own c.myIndex) f) (p k)) := by
    intro k hk
    induction k with
    | zero =>
      have hself : s.setOwn c.myIndex (s.own c.myIndex) (p 0) = s := by
        rw [LockMgr.setOwn, LockMgr.own, Function.update_eq_self, ← hpc]
      rw [forRange_zero, hself]
    | succ k ih =>
      refine (ih (Nat.le_of_succ_le hk)).tail ?_
      rw [hturn (s.setOwn c.myIndex _ (p k)) k hk rfl rfl, LockMgr.own_setOwn, LockMgr.setOwn_setOwn, forRange_succ]
  exact hrun c.hostnum le_rfl

/-- With nobody writing the object, the thread goes through one update of `lockMgrUpdate`. -/
theorem LockMgr.runs_turn (s : LockMgr) (hpc : s.pc = .locking) (hw : s.writer = false) (hcopy : s.lmvar.sf = s.psf) :
    LockMgr.Runs c s
      { s with psf := (lockMgrUpdate c s.lmvar).sf, lmvar := lockMgrUpdate c s.lmvar, pc := .waiting } := by
  generalize hcan : cancelGrants c s.lmvar (s.own c.myIndex) = can
  generalize hreq : processRequests c s.lmvar can = req
  obtain ⟨-, -, -, -, hsf, hsm⟩ := processRequests_spec c s.lmvar can
  rw [hreq] at hsf hsm
  have hgrant : grantToOther c.myIndex req.1 = grantToOther c.myIndex s.lmvar := by
    unfold grantToOther LmVar.isOnline
    rw [hsf, hsm]
  have hupdate : lockMgrUpdate c s.lmvar = { req.1 with
      firstCleanupDone := true
      sf := { s.psf with lm := Function.update s.psf.lm c.myIndex (grantToOthers c s.lmvar req.2) } } := by
    unfold lockMgrUpdate
    rw [← hreq, ← hcan, LockMgr.own, hcopy]
  have hlock : s.turn c = some { s with pc := .cancelling 0 } := by simp [LockMgr.turn, hpc, hw]
  have hcancelled : LockMgr.Runs c { s with pc := .cancelling 0 } (s.setOwn c.myIndex can (.cancelling c.hostnum)) := by
    rw [← hcan, cancelGrants_eq]
    refine LockMgr.runs_loop (p := .cancelling) (f := cancelGrant s.lmvar) _ rfl fun t k hk hv ht => ?_
    rw [LockMgr.turn, ht]
    simp only [if_pos hk, hv]
  have hrequests : (s.setOwn c.myIndex can (.cancelling c.hostnum)).turn c =
      some (s.setOwn c.myIndex can .requesting) := if_neg (lt_irrefl _)
  have hprocessed : (s.setOwn c.myIndex can .requesting).turn c =
      some { s.setOwn c.myIndex req.2 (.granting 0) with lmvar := req.1 } := by
    show some { (s.setOwn c.myIndex can .requesting).setOwn c.myIndex
      (processRequests c s.lmvar ((s.setOwn c.myIndex can .requesting).own c.myIndex)).2 (.granting 0) with
        lmvar := (processRequests c s.lmvar ((s.setOwn c.myIndex can .requesting).own c.myIndex)).1 } = _
    rw [LockMgr.own_setOwn, hreq, LockMgr.setOwn_setOwn]
  have hgranted : LockMgr.Runs c { s.setOwn c.myIndex req.2 (.granting 0) with lmvar := req.1 }
      { s.setOwn c.myIndex (grantToOthers c s.lmvar req.2) (.granting c.hostnum) with lmvar := req.1 } := by
    have hloop := LockMgr.runs_loop (c := c) (p := .granting) (f := grantToOther c.myIndex s.lmvar)
      { s.setOwn c.myIndex req.2 (.granting 0) with lmvar := req.1 } rfl fun t k hk hv ht => by
        rw [LockMgr.turn, ht]
        simp only [if_pos hk, hv, hgrant]
    have hown : ({ s.setOwn c.myIndex req.2 (.granting 0) with lmvar := req.1 } : LockMgr).own c.myIndex = req.2 :=
      Function.update_self ..
    rw [hown, ← grantToOthers_eq] at hloop
    simpa only [LockMgr.setOwn, Function.update_idem] using hloop
  have hdone : ({ s.setOwn c.myIndex (grantToOthers c s.lmvar req.2) (.granting c.hostnum) with
      lmvar := req.1 } : LockMgr).turn c =
        some { s with psf := (lockMgrUpdate c s.lmvar).sf, lmvar := lockMgrUpdate c s.lmvar, pc := .waiting } := by
    rw [hupdate]
    exact if_neg (lt_irrefl _)
  exact .head hlock (hcancelled.trans (.head hrequests (.head hprocessed (hgranted.tail hdone))))

/-- A step of the script thread makes a request, requests a cancel, writes the object under its lock, or leaves
`lmvar` alone. -/
theorem scriptNext_lmvar {uuidMaster : MtcUuid} {h h' : LockHost} (hn : scriptNext c uuidMaster h = some h') :
    h'.lm = h.lm ∨ h'.lm = { h.lm with pendingRequest := true } ∨ h'.lm = { h.lm with cancelRequest := true } ∨
      h'.lm = { h.lm with sf := sfSetMaster uuidMaster h.lm.sf } := by
  unfold scriptNext at hn
  repeat' split at hn
  all_goals cases hn
  all_goals simp [LockHost.locked]

/-- The locked part of `readsf` leaves the flags of the local host alone. -/
theorem updateObjects_own {w w' : SfWorld} (hn : updateObjects c w = some w') : w'.sf.lm c.myIndex = w.sf.lm c.myIndex := by
  have hhosts : (forRange c.hostnum w.sf (updateHost c.myIndex w.stateFile w.sfvar.hoststat w.sm)).lm c.myIndex =
      w.sf.lm c.myIndex := by
    refine forRange_inv (fun _ (psf : ComDataSf) => psf.lm c.myIndex = w.sf.lm c.myIndex) rfl fun i psf _ h => ?_
    unfold updateHost
    dsimp only
    split
    · rename_i hi
      rw [Function.update_of_ne (Ne.symm hi), h]
    · exact h
  have hglobal : ∀ file psf, (updateGlobal file psf).2.2.lm = psf.lm := by
    intro file psf
    unfold updateGlobal
    cases psf.modifiedMask.master <;> cases hp : psf.modifiedMask.poolState <;> simp [hp]
  have hupdated : (updatedObjects c w).2.2.lm c.myIndex = w.sf.lm c.myIndex := (congrFun (hglobal ..) _).trans hhosts
  cases updateObjects_move hn with
  | updated | updatedPending => exact hupdated
  | readFailed => rfl

end

end Xha
