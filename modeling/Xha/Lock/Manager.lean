/-
The lock manager of one host (lock_mgr.c): a turn of `lock_mgr`, and `lm_request_lock` and `lm_cancel_lock`
as steps of the script thread, one for each section under `lmvar.mutex`.
-/
import Xha.Lib.Loop
import Xha.StateFile.Thread

namespace Xha

open Loop

/-! ## The lock node -/

/-- `lmvar`. Only inside a turn of `lock_mgr` does the object differ from its copy `lmvar.sf`, so there is one. -/
structure LmVar where
  pendingRequest : Bool
  cancelRequest : Bool
  firstCleanupDone : Bool
  sf : ComDataSf
  sm : ComDataSm

/-- `is_equal_or_prior_to_this_node`. -/
def isEqualOrPriorToThisNode (me index : Nat) : Bool := index ≤ me

/-- `is_online`. -/
def LmVar.isOnline (v : LmVar) (index : Nat) : Bool := v.sm.currentLiveset.isOn index

/-- `am_i_ready_to_request`: my cancellation is processed, and I grant nobody of lower priority. -/
def amIReadyToRequest (c : HaConfig) (v : LmVar) : Bool :=
  ((List.range c.hostnum).all fun index => !v.isOnline index || !(v.sf.lm index).grant.isOn c.myIndex) &&
    (List.range c.hostnum).all fun index =>
      !(!isEqualOrPriorToThisNode c.myIndex index && v.isOnline index) || !(v.sf.lm c.myIndex).grant.isOn index

/-- `is_locked`: the host is online and granted by every online host. -/
def isLocked (c : HaConfig) (v : LmVar) (nodeIndex : Nat) : Bool :=
  v.isOnline nodeIndex && (List.range c.hostnum).all fun index => !v.isOnline index || (v.sf.lm index).grant.isOn nodeIndex

/-- `get_lock_node`. -/
def getLockNode (c : HaConfig) (v : LmVar) : Option Nat := (List.range c.hostnum).find? (isLocked c v)

/-- `is_requesting`. -/
def LmVar.isRequesting (v : LmVar) (index : Nat) : Bool := v.pendingRequest || (v.sf.lm index).request

/-! ## A turn of the lock manager -/

/-- "cancelling my grant flags when the request is canceled". -/
def cancelGrants (c : HaConfig) (v : LmVar) (own : LmFields) : LmFields :=
  forRange c.hostnum own fun own index =>
    if !(v.sf.lm index).request || !v.isOnline index then { own with grant := own.grant.reset index } else own

/-- "processing my requests". -/
def processRequests (c : HaConfig) (v : LmVar) (own : LmFields) : LmVar × LmFields :=
  let (v, own) :=
    if v.pendingRequest && amIReadyToRequest c v then ({ v with pendingRequest := false }, { own with request := true })
    else (v, own)
  if v.cancelRequest then
    ({ v with pendingRequest := false, cancelRequest := false }, { own with request := false })
  else (v, own)

/-- "granting to others". -/
def grantToOthers (c : HaConfig) (v : LmVar) (own : LmFields) : LmFields :=
  forRange c.hostnum own fun own index =>
    if (v.sf.lm index).request && v.isOnline index && (!own.request || isEqualOrPriorToThisNode c.myIndex index) then
      { own with grant := own.grant.set index }
    else own

/-- What a turn of `lock_mgr` does under the locks. It reads the flags of the last copy, its own too. -/
def lockMgrUpdate (c : HaConfig) (v : LmVar) : LmVar :=
  let r := processRequests c v (cancelGrants c v (v.sf.lm c.myIndex))
  { r.1 with
    firstCleanupDone := true
    sf := { v.sf with lm := Function.update v.sf.lm c.myIndex (grantToOthers c v r.2) } }

/-- A turn of `lock_mgr`. -/
def lockMgr (c : HaConfig) (v : LmVar) : LmVar :=
  if !v.sf.sfAccess || !v.isOnline c.myIndex then v else lockMgrUpdate c v

/-! ## The script thread -/

/-- Where the script thread stands. -/
inductive ScriptPc
  | idle
  /-- In `lm_request_lock`: before the first cleanup is done, before "Someone has locked?", before the request is
  made, in the loop (`woken` after its first wait), and past the loop. -/
  | cleanup
  | check
  | request
  | polling (woken : Bool)
  | found (index : Option Nat)
  /-- In `lm_cancel_lock`: before the cancel is requested, and until it is acknowledged. -/
  | cancel
  | cancelling
  deriving DecidableEq, Repr

/-- A host with its script thread; `holds` says that `lm_request_lock` has returned TRUE and no later
`lm_cancel_lock` has returned. -/
structure LockHost where
  lm : LmVar
  pc : ScriptPc
  holds : Bool

/-- `lm_request_lock` returns TRUE, having written the master UUID. -/
def LockHost.locked (uuidMaster : MtcUuid) (h : LockHost) : LockHost :=
  { h with lm := { h.lm with sf := sfSetMaster uuidMaster h.lm.sf }, pc := .idle, holds := true }

/-- A step of the script thread inside a call. -/
def scriptNext (c : HaConfig) (uuidMaster : MtcUuid) (h : LockHost) : Option LockHost :=
  match h.pc with
  | .idle => none
  | .cleanup => if h.lm.firstCleanupDone then some { h with pc := .check } else none
  | .check =>
    match getLockNode c h.lm with
    | some index => if index = c.myIndex then some (h.locked uuidMaster) else some { h with pc := .idle }
    | none => some { h with pc := .request }
  | .request => some { h with lm := { h.lm with pendingRequest := true }, pc := .polling false }
  | .polling woken =>
    if woken && (!h.lm.isRequesting c.myIndex || !h.lm.sf.sfAccess) then some { h with pc := .found none }
    else
      match getLockNode c h.lm with
      | some index => some { h with pc := .found (some index) }
      | none => some { h with pc := .polling true }
  | .found index =>
    if index = some c.myIndex then some (h.locked uuidMaster)
    else some { h with lm := { h.lm with cancelRequest := true }, pc := .idle }
  | .cancel => some { h with lm := { h.lm with cancelRequest := true }, pc := .cancelling }
  | .cancelling => if h.lm.cancelRequest then none else some { h with pc := .idle, holds := false }

/-! ## What a turn does -/

section

variable {c : HaConfig} {v : LmVar}

theorem cancelGrants_spec (c : HaConfig) (v : LmVar) (own : LmFields) :
    (cancelGrants c v own).request = own.request ∧ ∀ i, (cancelGrants c v own).grant.isOn i =
      (own.grant.isOn i && (!decide (i < c.hostnum) || ((v.sf.lm i).request && v.isOnline i))) := by
  refine forRange_inv (fun k (own' : LmFields) => own'.request = own.request ∧ ∀ i, own'.grant.isOn i =
    (own.grant.isOn i && (!decide (i < k) || ((v.sf.lm i).request && v.isOnline i)))) (by simp) fun k own' _ h => ?_
  obtain ⟨hr, hg⟩ := h
  have hlt : ∀ i, i ≠ k → decide (i < k + 1) = decide (i < k) := fun i hi => by rw [decide_eq_decide]; omega
  split
  · rename_i hoff
    refine ⟨hr, fun i => ?_⟩
    rw [HostMap.isOn_reset, hg i]
    by_cases hi : i = k
    · subst hi
      have hoff : ((v.sf.lm i).request && v.isOnline i) = false := by simpa [Bool.or_eq_true, imp_iff_not_or] using hoff
      simp [hoff]
    · rw [hlt i hi]; simp [Ne.symm hi]
  · rename_i hon
    refine ⟨hr, fun i => ?_⟩
    rw [hg i]
    by_cases hi : i = k
    · subst hi
      have hon : ((v.sf.lm i).request && v.isOnline i) = true := by simpa using hon
      simp [hon]
    · rw [hlt i hi]

theorem grantToOthers_spec (c : HaConfig) (v : LmVar) (own : LmFields) :
    (grantToOthers c v own).request = own.request ∧ ∀ i, (grantToOthers c v own).grant.isOn i =
      (own.grant.isOn i || (decide (i < c.hostnum) &&
        ((v.sf.lm i).request && v.isOnline i && (!own.request || isEqualOrPriorToThisNode c.myIndex i)))) := by
  refine forRange_inv (fun k (own' : LmFields) => k ≤ c.hostnum → own'.request = own.request ∧ ∀ i, own'.grant.isOn i =
    (own.grant.isOn i || (decide (i < k) && ((v.sf.lm i).request && v.isOnline i &&
      (!own.request || isEqualOrPriorToThisNode c.myIndex i))))) (fun _ => by simp) (fun k own' hk h hkn => ?_) le_rfl
  obtain ⟨hr, hg⟩ := h (Nat.le_of_succ_le hkn)
  have hmax : k < maxHostNum := lt_of_lt_of_le hk c.hostnum_le
  have hlt : ∀ i, i ≠ k → decide (i < k + 1) = decide (i < k) := fun i hi => by rw [decide_eq_decide]; omega
  rw [hr]
  split
  · rename_i hon
    refine ⟨rfl, fun i => ?_⟩
    rw [HostMap.isOn_set, hg i]
    by_cases hi : i = k
    · subst hi; simp [hon, hmax]
    · rw [hlt i hi]; simp [Ne.symm hi]
  · rename_i hoff
    refine ⟨hr, fun i => ?_⟩
    rw [hg i]
    by_cases hi : i = k
    · subst hi
      rw [Bool.not_eq_true] at hoff
      simp [hoff]
    · rw [hlt i hi]

/-- REQUEST goes up in this turn. -/
def raisesRequest (c : HaConfig) (v : LmVar) : Bool :=
  v.sf.sfAccess && v.isOnline c.myIndex && !(v.sf.lm c.myIndex).request && v.pendingRequest && amIReadyToRequest c v &&
    !v.cancelRequest

/-- What a turn with access leaves: only the flags of the local host change. -/
structure LmUpdated (c : HaConfig) (v v' : LmVar) : Prop where
  others : ∀ j, j ≠ c.myIndex → v'.sf.lm j = v.sf.lm j
  request : (v'.sf.lm c.myIndex).request =
    (!v.cancelRequest && ((v.sf.lm c.myIndex).request || (v.pendingRequest && amIReadyToRequest c v)))
  grant : ∀ i < c.hostnum, (v'.sf.lm c.myIndex).grant.isOn i = ((v.sf.lm i).request && v.isOnline i &&
    ((v.sf.lm c.myIndex).grant.isOn i || !(v'.sf.lm c.myIndex).request || decide (i ≤ c.myIndex)))
  cancel : v'.cancelRequest = false
  pending : v'.pendingRequest = true → v.pendingRequest = true
  access : v'.sf.sfAccess = v.sf.sfAccess
  sm : v'.sm = v.sm

/-- What "processing my requests" does: REQUEST goes up or down, and the cancel is acknowledged. -/
theorem processRequests_spec (c : HaConfig) (v : LmVar) (own : LmFields) :
    (processRequests c v own).2 =
        { own with request := !v.cancelRequest && (own.request || (v.pendingRequest && amIReadyToRequest c v)) } ∧
      (processRequests c v own).1.cancelRequest = false ∧
      ((processRequests c v own).1.pendingRequest = true → v.pendingRequest = true) ∧
      (processRequests c v own).1.firstCleanupDone = v.firstCleanupDone ∧
      (processRequests c v own).1.sf = v.sf ∧ (processRequests c v own).1.sm = v.sm := by
  unfold processRequests
  cases hp : v.pendingRequest && amIReadyToRequest c v <;> cases hc : v.cancelRequest <;> simp [hc]

theorem lockMgrUpdate_spec (c : HaConfig) (v : LmVar) : LmUpdated c v (lockMgrUpdate c v) := by
  obtain ⟨hcr, hcg⟩ := cancelGrants_spec c v (v.sf.lm c.myIndex)
  obtain ⟨hown, hcancel, hpending, -, -, hsm⟩ := processRequests_spec c v (cancelGrants c v (v.sf.lm c.myIndex))
  obtain ⟨hgr, hgg⟩ := grantToOthers_spec c v (processRequests c v (cancelGrants c v (v.sf.lm c.myIndex))).2
  refine ⟨fun j hj => ?_, ?_, fun i hi => ?_, hcancel, hpending, rfl, hsm⟩
  · show Function.update v.sf.lm c.myIndex _ j = _
    rw [Function.update_of_ne hj]
  · show (Function.update v.sf.lm c.myIndex _ c.myIndex).request = _
    rw [Function.update_self, hgr, hown, hcr]
  · show (Function.update v.sf.lm c.myIndex _ c.myIndex).grant.isOn i = (_ && _ && (_ ||
      !(Function.update v.sf.lm c.myIndex _ c.myIndex).request || _))
    rw [Function.update_self, hgr, hgg i, hown]
    dsimp only
    rw [hcg i]
    simp only [hi, decide_true, Bool.not_true, Bool.false_or, Bool.true_and, isEqualOrPriorToThisNode]
    cases (v.sf.lm i).request && v.isOnline i <;> simp [Bool.or_assoc]

/-- The lock node is online and granted by every online host. -/
theorem getLockNode_spec {index : Nat} (h : getLockNode c v = some index) :
    index < c.hostnum ∧ v.isOnline index = true ∧
      ∀ i < c.hostnum, v.isOnline i = true → (v.sf.lm i).grant.isOn index = true := by
  have hlocked := List.find?_some h
  have hmem := List.mem_of_find?_eq_some h
  rw [isLocked, Bool.and_eq_true, List.all_eq_true] at hlocked
  refine ⟨List.mem_range.1 hmem, hlocked.1, fun i hi hon => ?_⟩
  have := hlocked.2 i (List.mem_range.2 hi)
  rw [hon] at this
  exact this

/-- A host that is ready grants nobody of lower priority. -/
theorem not_grant_of_ready (h : amIReadyToRequest c v = true) {i : Nat} (hi : i < c.hostnum) (hlt : c.myIndex < i)
    (hon : v.isOnline i = true) : (v.sf.lm c.myIndex).grant.isOn i = false := by
  rw [amIReadyToRequest, Bool.and_eq_true] at h
  have := List.all_eq_true.1 h.2 i (List.mem_range.2 hi)
  rw [hon, isEqualOrPriorToThisNode] at this
  simpa [Nat.not_le.2 hlt] using this

end

end Xha
