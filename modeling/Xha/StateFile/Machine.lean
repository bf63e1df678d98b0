/-
The daemon's State-File side as a machine: the State-File thread, the other threads and hosts around it,
and the script thread (sc_func.c) with the calls that answer once their change is "written on disk".
-/
import Xha.Lib.Transition
import Xha.StateFile.Thread

namespace Xha

open Loop

/-! ## The daemon and its surroundings -/

/-- The steps of the State-File thread (with the status of the access, where there is one), of the clock,
of the other hosts on the disk, and of the other threads on the fields that are theirs. -/
inductive SfAction
  | begin
  | copy
  | write (status : SfStatus)
  | read (status : SfStatus)
  | update
  | writeGlobal (status : SfStatus)
  | tick (ms : Nat)
  | peerHost (i : Nat) (r : SfHost)
  | peerGlobal (g : SfGlobal)
  | objects (sm : ComDataSm) (hb : ComDataHb) (ctl : SfCtl) (lm : Nat → LmFields) (sfdomain : HostMap) (lost : Bool)

def sfNext (c : HaConfig) (w : SfWorld) : SfAction → Option SfWorld
  | .begin => beginCycle w
  | .copy => copyHostspecific c.myIndex w
  | .write status => writeHostspecific c.myIndex status w
  | .read status => readNext c status w
  | .update => updateObjects c w
  | .writeGlobal status => writeGlobal status w
  | .tick ms => some { w with clock := w.clock + ms }
  | .peerHost i r => if i ≠ c.myIndex then some { w with disk := w.disk.setHost i r } else none
  | .peerGlobal g => some { w with disk := { w.disk with global := g } }
  | .objects sm hb ctl lm sfdomain lost =>
    some { w with
      sm := sm
      hb := hb
      sf := { w.sf with ctl := ctl, lm := lm, sfdomain := sfdomain, sfAccess := w.sf.sfAccess && !lost } }

/-! ## The steps, case by case -/

/-- The status, the buffer and the objects at the end of the locked part of a `readsf` that read everything. -/
def updatedObjects (c : HaConfig) (w : SfWorld) : SfStatus × SfImage × ComDataSf :=
  updateGlobal w.stateFile
    { forRange c.hostnum w.sf (updateHost c.myIndex w.stateFile w.sfvar.hoststat w.sm) with sfAccess := true }

/-- What each step leaves, with the branch it took. -/
inductive SfMove (c : HaConfig) (w : SfWorld) : SfAction → SfWorld → Prop
  | beginWrite : w.pc = .waiting → (w.sf.ctl.enableSfWrite && w.readOnce) = true →
      SfMove c w .begin { w with pc := .copying w.sf.ctl.enableSfRead }
  | beginRead : w.pc = .waiting → (w.sf.ctl.enableSfWrite && w.readOnce) ≠ true → w.sf.ctl.enableSfRead = true →
      SfMove c w .begin { w with pc := .reading 0 0 .undefined }
  | beginNothing : w.pc = .waiting → (w.sf.ctl.enableSfWrite && w.readOnce) ≠ true → w.sf.ctl.enableSfRead ≠ true →
      SfMove c w .begin w
  | copied (readable : Bool) : w.pc = .copying readable →
      SfMove c w .copy { w with
        stateFile := w.stateFile.setHost c.myIndex (hostspecific w c.myIndex)
        sfvar := { w.sfvar with sequence := w.sfvar.sequence + 1 }
        sf := { w.sf with
          modifiedMask := { w.sf.modifiedMask with excluded := false }
          smPhase := Function.update w.sf.smPhase c.myIndex w.sm.phase
          weight := Function.update w.sf.weight c.myIndex w.sm.commitedWeight }
        pc := .writing readable w.sf.modifiedMask.excluded }
  | written (readable pending : Bool) : w.pc = .writing readable pending →
      SfMove c w (.write .success)
        { w with disk := w.disk.setHost c.myIndex (w.stateFile.host c.myIndex), pc := afterWrite readable }
  | unwritten (readable pending : Bool) (status : SfStatus) : w.pc = .writing readable pending → status ≠ .success →
      SfMove c w (.write status) { w with
        sf := { w.sf with
          modifiedMask := { w.sf.modifiedMask with excluded := pending || w.sf.modifiedMask.excluded }
          sfAccess := false }
        pc := afterWrite readable }
  | globalSkipped (attempt : Nat) (io : IoStatus) (status : SfStatus) : w.pc = .reading attempt 0 io →
      io.globalSection = .success → SfMove c w (.read status) { w with pc := .reading attempt 1 io }
  | globalRead (attempt : Nat) (io : IoStatus) : w.pc = .reading attempt 0 io → io.globalSection ≠ .success →
      SfMove c w (.read .success) { w with
        stateFile := { w.stateFile with global := w.disk.global }
        pc := .reading attempt 1 { io with globalSection := .success } }
  | globalUnread (attempt : Nat) (io : IoStatus) (status : SfStatus) : w.pc = .reading attempt 0 io →
      io.globalSection ≠ .success → status ≠ .success →
      SfMove c w (.read status) { w with pc := .reading attempt 1 { io with globalSection := status } }
  | hostSkipped (attempt i : Nat) (io : IoStatus) (status : SfStatus) : w.pc = .reading attempt (i + 1) io →
      i < c.hostnum → io.hostSection i = .success →
      SfMove c w (.read status) { w with pc := .reading attempt (i + 2) io }
  | hostRead (attempt i : Nat) (io : IoStatus) : w.pc = .reading attempt (i + 1) io → i < c.hostnum →
      io.hostSection i ≠ .success →
      SfMove c w (.read .success) { readHostspecific c.myIndex i w with
        pc := .reading attempt (i + 2) { io with hostSection := Function.update io.hostSection i .success } }
  | hostUnread (attempt i : Nat) (io : IoStatus) (status : SfStatus) : w.pc = .reading attempt (i + 1) io →
      i < c.hostnum → io.hostSection i ≠ .success → status ≠ .success →
      SfMove c w (.read status) { w with
        pc := .reading attempt (i + 2) { io with hostSection := Function.update io.hostSection i status } }
  | lastAttempt (attempt i : Nat) (io : IoStatus) (status : SfStatus) : w.pc = .reading attempt (i + 1) io →
      ¬ i < c.hostnum → (io.allRead c.hostnum || attempt + 1 = sfIoAttempts) = true →
      SfMove c w (.read status) { w with pc := .updating io }
  | nextAttempt (attempt i : Nat) (io : IoStatus) (status : SfStatus) : w.pc = .reading attempt (i + 1) io →
      ¬ i < c.hostnum → (io.allRead c.hostnum || attempt + 1 = sfIoAttempts) ≠ true →
      SfMove c w (.read status) { w with pc := .reading (attempt + 1) 0 io }
  | updated (io : IoStatus) : w.pc = .updating io → io.allRead c.hostnum = true → (updatedObjects c w).1 = .success →
      SfMove c w .update { w with
        stateFile := (updatedObjects c w).2.1, sf := (updatedObjects c w).2.2, readOnce := true, pc := .waiting }
  | updatedPending (io : IoStatus) : w.pc = .updating io → io.allRead c.hostnum = true →
      (updatedObjects c w).1 ≠ .success →
      SfMove c w .update { w with
        stateFile := (updatedObjects c w).2.1, sf := (updatedObjects c w).2.2, pc := .writingGlobal }
  | readFailed (io : IoStatus) (sfCorrupted readOnce : Bool) (pc : SfPc) : w.pc = .updating io →
      io.allRead c.hostnum ≠ true → (pc = .waiting ∨ pc = .terminated) →
      SfMove c w .update { w with
        sf := { w.sf with sfAccess := false, sfCorrupted := sfCorrupted }, readOnce := readOnce, pc := pc }
  | globalWritten : w.pc = .writingGlobal →
      SfMove c w (.writeGlobal .success) { w with
        disk := { w.disk with global := w.stateFile.global }
        globalWrites := w.stateFile.global :: w.globalWrites
        pc := .waiting }
  | globalUnwritten (status : SfStatus) : w.pc = .writingGlobal → status ≠ .success →
      SfMove c w (.writeGlobal status) { w with pc := .waiting }
  | tick (ms : Nat) : SfMove c w (.tick ms) { w with clock := w.clock + ms }
  | peerHost (i : Nat) (r : SfHost) : i ≠ c.myIndex → SfMove c w (.peerHost i r) { w with disk := w.disk.setHost i r }
  | peerGlobal (g : SfGlobal) : SfMove c w (.peerGlobal g) { w with disk := { w.disk with global := g } }
  | objects (sm : ComDataSm) (hb : ComDataHb) (ctl : SfCtl) (lm : Nat → LmFields) (sfdomain : HostMap) (lost : Bool) :
      SfMove c w (.objects sm hb ctl lm sfdomain lost) { w with
        sm := sm
        hb := hb
        sf := { w.sf with ctl := ctl, lm := lm, sfdomain := sfdomain, sfAccess := w.sf.sfAccess && !lost } }

section

variable {c : HaConfig} {w w' : SfWorld} {a : SfAction} {status : SfStatus}

theorem readNext_move (hn : readNext c status w = some w') : SfMove c w (.read status) w' := by
  unfold readNext at hn
  split at hn
  · rename_i attempt io hpc
    split at hn
    · rename_i hdone
      cases hn
      exact .globalSkipped attempt io status hpc hdone
    · rename_i hopen
      cases hn
      by_cases hs : status = .success
      · subst hs
        exact .globalRead attempt io hpc hopen
      · rw [if_neg hs]
        exact .globalUnread attempt io status hpc hopen hs
  · rename_i attempt i io hpc
    split at hn
    · rename_i hi
      split at hn
      · rename_i hdone
        cases hn
        exact .hostSkipped attempt i io status hpc hi hdone
      · rename_i hopen
        cases hn
        by_cases hs : status = .success
        · subst hs
          exact .hostRead attempt i io hpc hi hopen
        · rw [if_neg hs]
          exact .hostUnread attempt i io status hpc hi hopen hs
    · rename_i hi
      split at hn <;> rename_i hlast <;> cases hn
      · exact .lastAttempt attempt i io status hpc hi hlast
      · exact .nextAttempt attempt i io status hpc hi hlast
  · cases hn

theorem updateObjects_move (hn : updateObjects c w = some w') : SfMove c w .update w' := by
  unfold updateObjects at hn
  split at hn
  · rename_i io hpc
    split at hn
    · rename_i hall
      dsimp only at hn
      split at hn <;> rename_i hstatus <;> cases hn
      · exact .updated io hpc hall hstatus
      · exact .updatedPending io hpc hall hstatus
    · rename_i hall
      split at hn <;> cases hn
      · exact .readFailed io false w.readOnce .terminated hpc hall (.inr rfl)
      · exact .readFailed io false w.readOnce .terminated hpc hall (.inr rfl)
      · exact .readFailed io (io.corrupted c.hostnum) false .waiting hpc hall (.inl rfl)
  · cases hn

theorem sfNext_move (hn : sfNext c w a = some w') : SfMove c w a w' := by
  cases a with
  | begin =>
    simp only [sfNext, beginCycle] at hn
    split at hn
    · rename_i hpc
      split at hn
      · rename_i hwrite
        cases hn
        exact .beginWrite hpc hwrite
      · rename_i hwrite
        split at hn <;> rename_i hread <;> cases hn
        · exact .beginRead hpc hwrite hread
        · exact .beginNothing hpc hwrite hread
    · cases hn
  | copy =>
    simp only [sfNext, copyHostspecific] at hn
    split at hn
    · rename_i readable hpc
      cases hn
      exact .copied readable hpc
    · cases hn
  | write status =>
    simp only [sfNext, writeHostspecific] at hn
    split at hn
    · rename_i readable pending hpc
      split at hn
      · rename_i hs
        cases hn
        subst hs
        exact .written readable pending hpc
      · rename_i hs
        cases hn
        exact .unwritten readable pending status hpc hs
    · cases hn
  | read status => exact readNext_move hn
  | update => exact updateObjects_move hn
  | writeGlobal status =>
    simp only [sfNext, writeGlobal] at hn
    split at hn
    · rename_i hpc
      split at hn
      · rename_i hs
        cases hn
        subst hs
        exact .globalWritten hpc
      · rename_i hs
        cases hn
        exact .globalUnwritten status hpc hs
    · cases hn
  | tick ms => cases hn; exact .tick ms
  | peerHost i r =>
    simp only [sfNext] at hn
    split at hn
    · rename_i hne
      cases hn
      exact .peerHost i r hne
    · cases hn
  | peerGlobal g => cases hn; exact .peerGlobal g
  | objects sm hb ctl lm sfdomain lost => cases hn; exact .objects sm hb ctl lm sfdomain lost

end

/-! ## The script thread -/

/-- The requests that wait until they are written on disk. -/
inductive ScRequest
  | setExcluded (set : Bool)
  | setPoolState (state : PoolState)
  deriving DecidableEq

/-- `MTC_SUCCESS`, `MTC_ERROR_SC_STATEFILE_ACCESS`, `MTC_ERROR_SC_INVALID_POOL_STATE`. -/
inductive ScStatus
  | success | statefileAccess | invalidPoolState
  deriving DecidableEq

/-- Where the script thread stands in `do_set_clear_excluded_sub` or `script_service_do_set_pool_state`:
the access checked, the change requested, `time_start` taken, the call answered. `since` counts the
global sections the host had written when the call started. -/
inductive ScPc
  | idle
  | checked (req : ScRequest) (since : Nat)
  | requested (req : ScRequest) (since : Nat)
  | polling (req : ScRequest) (timeStart : MtcClock) (since : Nat)
  | returned (req : ScRequest) (status : ScStatus) (since : Nat)
  deriving DecidableEq

/-- The check at the head of a call: State-File access, and an active pool for the excluded flag. -/
def scCheck (psf : ComDataSf) : ScRequest → ScStatus
  | .setExcluded _ =>
    if psf.sfAccess = false then .statefileAccess
    else if psf.poolState ≠ sfStateActive then .invalidPoolState
    else .success
  | .setPoolState _ => if psf.sfAccess = false then .statefileAccess else .success

/-- The request to the State-File thread. -/
def scApply (me : Nat) (psf : ComDataSf) : ScRequest → ComDataSf
  | .setExcluded set => sfSetExcluded me set psf
  | .setPoolState state => sfSetPoolState state psf

structure ScWorld where
  daemon : SfWorld
  script : ScPc

inductive ScAction
  | daemon (a : SfAction)
  | call (req : ScRequest)
  | request
  | start
  | poll
  | finish
  | setMaster (master : MtcUuid)

/-- One pass of the loop "wait until written on disk". -/
def scPoll (me : Nat) (w : ScWorld) (req : ScRequest) (timeStart : MtcClock) (since : Nat) : ScWorld :=
  if w.daemon.sf.sfAccess = false then { w with script := .returned req .statefileAccess since }
  else if timeStart < w.daemon.sf.timeLastSf me then { w with script := .returned req .success since }
  else w

def scNext (c : HaConfig) (w : ScWorld) : ScAction → Option ScWorld
  | .daemon a => (sfNext c w.daemon a).map fun d => { w with daemon := d }
  | .call req =>
    match w.script with
    | .idle =>
      let since := w.daemon.globalWrites.length
      match scCheck w.daemon.sf req with
      | .success => some { w with script := .checked req since }
      | status => some { w with script := .returned req status since }
    | _ => none
  | .request =>
    match w.script with
    | .checked req since =>
      some { daemon := { w.daemon with sf := scApply c.myIndex w.daemon.sf req }, script := .requested req since }
    | _ => none
  | .start =>
    match w.script with
    | .requested req since => some { w with script := .polling req w.daemon.clock since }
    | _ => none
  | .poll =>
    match w.script with
    | .polling req timeStart since => some (scPoll c.myIndex w req timeStart since)
    | _ => none
  | .finish =>
    match w.script with
    | .returned _ _ _ => some { w with script := .idle }
    | _ => none
  | .setMaster master =>
    match w.script with
    | .idle => some { w with daemon := { w.daemon with sf := sfSetMaster master w.daemon.sf } }
    | _ => none

/-- The daemon starts on any State-File, at any time. -/
def scMachine (c : HaConfig) : Transition.Machine ScWorld ScAction where
  init w := ∃ clock disk buffer sequence, 0 ≤ clock ∧
    w = ⟨SfWorld.initial c.myIndex clock disk buffer sequence, .idle⟩
  next := scNext c

/-- What each step around the script thread leaves, with the branch it took. -/
inductive ScMove (c : HaConfig) : ScWorld → ScAction → ScWorld → Prop
  | daemon (d d' : SfWorld) (a : SfAction) (script : ScPc) : sfNext c d a = some d' →
      ScMove c ⟨d, script⟩ (.daemon a) ⟨d', script⟩
  | accepted (d : SfWorld) (req : ScRequest) : scCheck d.sf req = .success →
      ScMove c ⟨d, .idle⟩ (.call req) ⟨d, .checked req d.globalWrites.length⟩
  | refused (d : SfWorld) (req : ScRequest) (status : ScStatus) : scCheck d.sf req = status → status ≠ .success →
      ScMove c ⟨d, .idle⟩ (.call req) ⟨d, .returned req status d.globalWrites.length⟩
  | request (d : SfWorld) (req : ScRequest) (since : Nat) :
      ScMove c ⟨d, .checked req since⟩ .request ⟨{ d with sf := scApply c.myIndex d.sf req }, .requested req since⟩
  | start (d : SfWorld) (req : ScRequest) (since : Nat) :
      ScMove c ⟨d, .requested req since⟩ .start ⟨d, .polling req d.clock since⟩
  | accessLost (d : SfWorld) (req : ScRequest) (timeStart : MtcClock) (since : Nat) : d.sf.sfAccess = false →
      ScMove c ⟨d, .polling req timeStart since⟩ .poll ⟨d, .returned req .statefileAccess since⟩
  | answered (d : SfWorld) (req : ScRequest) (timeStart : MtcClock) (since : Nat) : d.sf.sfAccess ≠ false →
      timeStart < d.sf.timeLastSf c.myIndex →
      ScMove c ⟨d, .polling req timeStart since⟩ .poll ⟨d, .returned req .success since⟩
  | waiting (d : SfWorld) (req : ScRequest) (timeStart : MtcClock) (since : Nat) : d.sf.sfAccess ≠ false →
      ¬ timeStart < d.sf.timeLastSf c.myIndex →
      ScMove c ⟨d, .polling req timeStart since⟩ .poll ⟨d, .polling req timeStart since⟩
  | finish (d : SfWorld) (req : ScRequest) (status : ScStatus) (since : Nat) :
      ScMove c ⟨d, .returned req status since⟩ .finish ⟨d, .idle⟩
  | setMaster (d : SfWorld) (master : MtcUuid) :
      ScMove c ⟨d, .idle⟩ (.setMaster master) ⟨{ d with sf := sfSetMaster master d.sf }, .idle⟩

theorem scNext_move {c : HaConfig} {w w' : ScWorld} {a : ScAction} (hn : scNext c w a = some w') : ScMove c w a w' := by
  obtain ⟨d, script⟩ := w
  cases a with
  | daemon a =>
    simp only [scNext, Option.map_eq_some_iff] at hn
    obtain ⟨d', hd, rfl⟩ := hn
    exact .daemon d d' a script hd
  | call req =>
    cases script with
    | idle =>
      simp only [scNext] at hn
      split at hn
      · rename_i hcheck
        cases hn
        exact .accepted d req hcheck
      · rename_i hne
        cases hn
        exact .refused d req _ rfl fun he => hne he
    | _ => cases hn
  | request =>
    cases script with
    | checked req since => cases hn; exact .request d req since
    | _ => cases hn
  | start =>
    cases script with
    | requested req since => cases hn; exact .start d req since
    | _ => cases hn
  | poll =>
    cases script with
    | polling req timeStart since =>
      simp only [scNext, scPoll] at hn
      split at hn
      · rename_i hlost
        cases hn
        exact .accessLost d req timeStart since hlost
      · rename_i haccess
        split at hn <;> rename_i htime <;> cases hn
        · exact .answered d req timeStart since haccess htime
        · exact .waiting d req timeStart since haccess htime
    | _ => cases hn
  | finish =>
    cases script with
    | returned req status since => cases hn; exact .finish d req status since
    | _ => cases hn
  | setMaster master =>
    cases script with
    | idle => cases hn; exact .setMaster d master
    | _ => cases hn

/-! ## The update of the objects, host by host -/

/-- What the loop of `readsf` leaves of the fields of the local host. -/
structure UpdatedHosts (me k : Nat) (w : SfWorld) (psf : ComDataSf) : Prop where
  mask : psf.modifiedMask = w.sf.modifiedMask
  poolState : psf.poolState = w.sf.poolState
  master : psf.master = w.sf.master
  excluded : me < maxHostNum → psf.excluded.isOn me =
    if me < k ∧ w.sf.modifiedMask.excluded = false then (w.stateFile.host me).excluded else w.sf.excluded.isOn me
  timeLastSf : psf.timeLastSf me = w.sf.timeLastSf me ∨ psf.timeLastSf me = (w.sfvar.hoststat me).updateclock

theorem updateHosts_spec (c : HaConfig) (w : SfWorld) :
    UpdatedHosts c.myIndex c.hostnum w
      (forRange c.hostnum w.sf (updateHost c.myIndex w.stateFile w.sfvar.hoststat w.sm)) := by
  refine forRange_inv (UpdatedHosts c.myIndex · w) ⟨rfl, rfl, rfl, by simp, .inl rfl⟩ fun k psf hk h => ?_
  have hkn : k < maxHostNum := lt_of_lt_of_le hk c.hostnum_le
  refine ⟨h.mask, h.poolState, h.master, fun hme => ?_, ?_⟩
  · have hcond : ((k ≠ c.myIndex ∨ psf.modifiedMask.excluded = false) : Prop) ↔
        (k ≠ c.myIndex ∨ w.sf.modifiedMask.excluded = false) := by rw [h.mask]
    by_cases hkm : k = c.myIndex
    · subst hkm
      simp only [updateHost, hcond]
      by_cases hmask : w.sf.modifiedMask.excluded = false
      · simp [hmask, HostMap.isOn_setBoolean, hkn]
      · have := h.excluded hme
        simp [hmask] at this ⊢
        exact this
    · have hlt : c.myIndex < k + 1 ↔ c.myIndex < k := by omega
      simp only [updateHost, hcond, hlt]
      rw [if_pos (.inl hkm), HostMap.isOn_setBoolean _ _ _ _ hkn, if_neg hkm]
      exact h.excluded hme
  · by_cases hkm : k = c.myIndex
    · subst hkm
      simp only [updateHost]
      split
      · exact .inr (Function.update_self ..)
      · exact h.timeLastSf
    · simp only [updateHost]
      split
      · rw [Function.update_of_ne (Ne.symm hkm)]; exact h.timeLastSf
      · exact h.timeLastSf

/-- The update of the global section leaves everything else alone. -/
theorem updateGlobal_frame (file : SfImage) (psf : ComDataSf) :
    let r := updateGlobal file psf
    r.2.1.host = file.host ∧ r.2.2.excluded = psf.excluded ∧ r.2.2.modifiedMask.excluded = psf.modifiedMask.excluded ∧
      r.2.2.timeLastSf = psf.timeLastSf := by
  unfold updateGlobal
  cases psf.modifiedMask.master <;> cases hp : psf.modifiedMask.poolState <;> simp [hp]

theorem IoStatus.allRead_host {io : IoStatus} {n i : Nat} (h : io.allRead n = true) (hi : i < n) :
    io.hostSection i = .success := by
  simp only [IoStatus.allRead, Bool.and_eq_true, List.all_eq_true, List.mem_range, decide_eq_true_eq] at h
  exact h.2 i hi

/-- A `readsf` that read everything, at the local host and its pool state. -/
theorem updatedObjects_local (c : HaConfig) (w : SfWorld) :
    let r := updatedObjects c w
    r.2.1.host = w.stateFile.host ∧
      r.2.2.excluded.isOn c.myIndex = (if w.sf.modifiedMask.excluded = false
        then (w.stateFile.host c.myIndex).excluded else w.sf.excluded.isOn c.myIndex) ∧
      r.2.2.modifiedMask.excluded = w.sf.modifiedMask.excluded ∧
      (r.2.2.timeLastSf c.myIndex = w.sf.timeLastSf c.myIndex ∨
        r.2.2.timeLastSf c.myIndex = (w.sfvar.hoststat c.myIndex).updateclock) ∧
      r.2.2.modifiedMask.poolState = false ∧
      (w.sf.modifiedMask.poolState = true → r.1 = .pendingWrite ∧ r.2.1.global.poolState = w.sf.poolState) := by
  have hspec := updateHosts_spec c w
  have hme : c.myIndex < maxHostNum := lt_of_lt_of_le c.myIndex_lt c.hostnum_le
  unfold updatedObjects
  generalize forRange c.hostnum w.sf (updateHost c.myIndex w.stateFile w.sfvar.hoststat w.sm) = psf at hspec ⊢
  obtain ⟨hhost, hexc, hmask, htime⟩ := updateGlobal_frame w.stateFile { psf with sfAccess := true }
  have hexcluded := hspec.excluded hme
  simp only [c.myIndex_lt, true_and] at hexcluded
  refine ⟨hhost, (congrArg (·.isOn c.myIndex) hexc).trans hexcluded, hmask.trans (congrArg _ hspec.mask), ?_, ?_⟩
  · rw [htime]
    exact hspec.timeLastSf
  · rw [← hspec.mask, ← hspec.poolState]
    unfold updateGlobal
    cases psf.modifiedMask.master <;> cases hp : psf.modifiedMask.poolState <;> simp [hp]

theorem scApply_timeLastSf (me : Nat) (psf : ComDataSf) (req : ScRequest) :
    (scApply me psf req).timeLastSf = psf.timeLastSf := by
  cases req <;> rfl

/-! ## What a step does to the local record -/

/-- The five things a step of the daemon or its surroundings can do to the local record and its times. -/
inductive LocalStep (me : Nat) (w w' : SfWorld) : Prop
  | quiet : w.clock ≤ w'.clock → w'.disk.host me = w.disk.host me → w'.sfvar.hoststat me = w.sfvar.hoststat me →
      w'.sf.timeLastSf me = w.sf.timeLastSf me →
      (∀ r p, w'.pc = .writing r p → w.pc = .writing r p ∧ w'.stateFile.host me = w.stateFile.host me) →
      LocalStep me w w'
  | copied : w'.clock = w.clock → w'.disk.host me = w.disk.host me → w'.sfvar.hoststat me = w.sfvar.hoststat me →
      w'.sf.timeLastSf me = w.sf.timeLastSf me → (w'.stateFile.host me).excluded = w.sf.excluded.isOn me →
      LocalStep me w w'
  | written (r p : Bool) : w.pc = .writing r p → w'.disk.host me = w.stateFile.host me → w'.clock = w.clock →
      w'.sfvar.hoststat me = w.sfvar.hoststat me → w'.sf.timeLastSf me = w.sf.timeLastSf me →
      (∀ r p, w'.pc ≠ .writing r p) → LocalStep me w w'
  | readBack : w'.sfvar.hoststat me = (w.sfvar.hoststat me).read w.clock (w.disk.host me).sequence →
      w'.clock = w.clock → w'.disk.host me = w.disk.host me → w'.sf.timeLastSf me = w.sf.timeLastSf me →
      (∀ r p, w'.pc ≠ .writing r p) → LocalStep me w w'
  | published : w'.sf.timeLastSf me = (w.sfvar.hoststat me).updateclock → w'.clock = w.clock →
      w'.disk.host me = w.disk.host me → w'.sfvar.hoststat me = w.sfvar.hoststat me →
      (∀ r p, w'.pc ≠ .writing r p) → LocalStep me w w'

theorem afterWrite_ne_writing (readable r p : Bool) : afterWrite readable ≠ .writing r p := by
  cases readable <;> simp [afterWrite]

theorem sfNext_local {c : HaConfig} {a : SfAction} {w w' : SfWorld} (hn : sfNext c w a = some w') :
    LocalStep c.myIndex w w' := by
  cases sfNext_move hn with
  | beginWrite | beginRead | globalSkipped | globalRead | globalUnread | hostSkipped | hostUnread | lastAttempt
  | nextAttempt | globalWritten | globalUnwritten => exact .quiet le_rfl rfl rfl rfl (by simp)
  | beginNothing | peerGlobal | objects => exact .quiet le_rfl rfl rfl rfl fun r p he => ⟨he, rfl⟩
  | copied => exact .copied rfl rfl rfl rfl (by simp [SfImage.setHost, hostspecific])
  | written readable pending hpc =>
    exact .written readable pending hpc (by simp [SfImage.setHost]) rfl rfl rfl (afterWrite_ne_writing readable)
  | unwritten => exact .quiet le_rfl rfl rfl rfl fun r p he => (afterWrite_ne_writing _ _ _ he).elim
  | hostRead attempt i io =>
    by_cases hime : i = c.myIndex
    · subst hime
      exact .readBack (by simp [readHostspecific]) rfl rfl rfl (by simp)
    · exact .quiet le_rfl rfl (by simp [readHostspecific, Function.update_of_ne (Ne.symm hime)]) rfl (by simp)
  | readFailed io corrupted readOnce pc _ _ hend =>
    refine .quiet le_rfl rfl rfl rfl fun r p he => ?_
    rcases hend with rfl | rfl <;> cases he
  | updated | updatedPending =>
    obtain ⟨-, -, -, htime, -, -⟩ := updatedObjects_local c w
    rcases htime with htime | htime
    · exact .quiet le_rfl rfl rfl htime (by simp)
    · exact .published htime rfl rfl rfl (by simp)
  | tick ms => exact .quiet (Int.le_add_of_nonneg_right (Int.natCast_nonneg ms)) rfl rfl rfl fun r p he => ⟨he, rfl⟩
  | peerHost i r hne =>
    exact .quiet le_rfl (by simp [SfImage.setHost, Function.update_of_ne (Ne.symm hne)]) rfl rfl fun r p he => ⟨he, rfl⟩

/-- The times of the local record are in the past. -/
structure TimesPast (me : Nat) (w : SfWorld) : Prop where
  updated : (w.sfvar.hoststat me).updateclock ≤ w.clock
  published : w.sf.timeLastSf me ≤ w.clock

theorem HostStat.read_updateclock (s : HostStat) (now : MtcClock) (sequence : MtcU32) :
    (s.read now sequence).updateclock = s.updateclock ∨ (s.read now sequence).updateclock = now := by
  unfold HostStat.read
  dsimp only
  split
  · exact .inl rfl
  · split
    · exact .inr rfl
    · exact .inl rfl

theorem HostStat.read_sequence (s : HostStat) (now : MtcClock) (sequence : MtcU32) :
    (s.read now sequence).sequence = sequence := by
  unfold HostStat.read
  dsimp only
  split
  · rfl
  · split
    · rfl
    · rename_i h; simpa using h

theorem TimesPast.next {c : HaConfig} {a : SfAction} {w w' : SfWorld} (h : TimesPast c.myIndex w)
    (hn : sfNext c w a = some w') : TimesPast c.myIndex w' := by
  obtain ⟨hu, hp⟩ := h
  cases sfNext_local hn with
  | quiet hclock _ hstat htime _ => exact ⟨by rw [hstat]; exact hu.trans hclock, by rw [htime]; exact hp.trans hclock⟩
  | copied hclock _ hstat htime _ => exact ⟨by rw [hstat, hclock]; exact hu, by rw [htime, hclock]; exact hp⟩
  | written _ _ _ _ hclock hstat htime _ => exact ⟨by rw [hstat, hclock]; exact hu, by rw [htime, hclock]; exact hp⟩
  | readBack hstat hclock _ htime _ =>
    refine ⟨?_, by rw [htime, hclock]; exact hp⟩
    rw [hstat, hclock]
    rcases HostStat.read_updateclock (w.sfvar.hoststat c.myIndex) w.clock (w.disk.host c.myIndex).sequence with he | he
    · rw [he]; exact hu
    · rw [he]
  | published htime hclock _ hstat _ => exact ⟨by rw [hstat, hclock]; exact hu, by rw [htime, hclock]; exact hu⟩

/-- The script thread leaves the times alone. -/
theorem TimesPast.script {c : HaConfig} {a : ScAction} {w w' : ScWorld} (h : TimesPast c.myIndex w.daemon)
    (hn : scNext c w a = some w') : TimesPast c.myIndex w'.daemon := by
  cases scNext_move hn with
  | daemon d d' a script hd => exact h.next hd
  | request d req since => exact ⟨h.updated, by rw [scApply_timeLastSf]; exact h.published⟩
  | setMaster => exact ⟨h.updated, h.published⟩
  | accepted | refused | start | accessLost | answered | waiting | finish => exact h

theorem TimesPast.initial {me : Nat} {clock : MtcClock} {disk buffer : SfImage} {sequence : MtcU32} (h : 0 ≤ clock) :
    TimesPast me (SfWorld.initial me clock disk buffer sequence) := by
  have hneg : (-1 : Int) ≤ clock := le_trans (by decide) h
  exact ⟨hneg, hneg⟩

/-- The invariant rule for what is said of a call: it holds while there is none, and the steps keep it, the times
being in the past. -/
theorem ScWorld.call_inv {c : HaConfig} {ok : ScWorld → ScAction → Prop} {I : SfWorld → ScPc → Prop} {w : ScWorld}
    (h : (scMachine c).Reach ok w) (h0 : ∀ d, I d .idle)
    (hs : ∀ w w' a, TimesPast c.myIndex w.daemon → I w.daemon w.script → ok w a → scNext c w a = some w' →
      I w'.daemon w'.script) : I w.daemon w.script := by
  have hinv : TimesPast c.myIndex w.daemon ∧ I w.daemon w.script := by
    refine h.inv (I := fun w => TimesPast c.myIndex w.daemon ∧ I w.daemon w.script) ?_ ?_
    · rintro s ⟨clock, disk, buffer, sequence, hclock, rfl⟩
      exact ⟨TimesPast.initial hclock, h0 _⟩
    · rintro s t a ⟨ht, hcall⟩ hok hn
      exact ⟨ht.script hn, hs s t a ht hcall hok hn⟩
  exact hinv.2

/-! ## A pool of one host -/

def loneHost : HaConfig where
  hostnum := 1
  myIndex := 0
  hostnum_le := by decide
  myIndex_lt := by decide

/-- The State-File of an active pool, its hosts not excluded. -/
def activeDisk : SfImage where
  global := ⟨sfStateActive, []⟩
  host _ := ⟨0, false, false, .initial, ⟨false, .empty⟩, .starting, 0⟩

def loneWorld : ScWorld := ⟨SfWorld.initial 0 0 activeDisk activeDisk 0, .idle⟩

theorem loneWorld_init : (scMachine loneHost).init loneWorld := ⟨0, activeDisk, activeDisk, 0, le_refl _, rfl⟩

/-- A read of the whole State-File by the lone host. -/
def readAll : List ScAction :=
  [.daemon (.read .success), .daemon (.read .success), .daemon (.read .success), .daemon .update]

/-- The State-File opened, read, written and read again. -/
def openStateFile : List ScAction :=
  [.daemon (.objects .initial .initial ⟨true, true, false⟩ (lmInitializeLmFields 0) .empty false), .daemon .begin] ++
  readAll ++ [.daemon .begin, .daemon .copy, .daemon (.write .success)] ++ readAll

end Xha
