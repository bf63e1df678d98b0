/-
The fault handler of one host (sm.c): `start_fh`, `wait_fh_event` and the phases of `fault_handler`, one
step for each section under the locks, among the updates of the domains and the heartbeats (heartbeat.c)
that start it. `start_fh` is one step: the phase it finds is the one at its sections under the locks.
-/
import Xha.Sm.SfdomainUpdate
import Xha.Sm.Survival
import Xha.StateFile.Thread

namespace Xha

open Loop

/-! ## Starting the fault handler -/

/-- `set_sm_phase`. -/
def Host.setSmPhase (h : Host) (phase : SmPhase) : Host :=
  { h with sm := { h.sm with phase := phase }, smvar := { h.smvar with phase := phase } : Host }.smWriterUnlock

/-- What one turn of the loop of `start_fh` does for one domain: the host goes up in `last`, or it goes
down there and `degraded` becomes its membership of the liveset. -/
def trackHost (liveset domain : HostMap) (s : HostMap × Bool) (index : Nat) : HostMap × Bool :=
  let last := if domain.isOn index && !s.1.isOn index then s.1.set index else s.1
  if last.isOn index && !domain.isOn index then (last.reset index, liveset.isOn index) else (last, s.2)

/-- The new `last_hbdomain` or `last_sfdomain`, and `hb_degraded` or `sf_degraded`. -/
def trackDomain (n : Nat) (liveset domain last : HostMap) : HostMap × Bool :=
  forRange n (last, false) (trackHost liveset domain)

/-- The phases in which `start_fh` leaves `need_fh` alone. -/
def SmPhase.fhUnderway : SmPhase → Bool
  | .fhready | .fh1 | .fh1done | .fh2 | .fh2done => true
  | _ => false

/-- `start_fh`. -/
def startFh (n : Nat) (force : Bool) (h : Host) : Host :=
  let hb := trackDomain n h.sm.currentLiveset h.hb.hbdomain h.smvar.lastHbdomain
  let sf := trackDomain n h.sm.currentLiveset h.sf.sfdomain h.smvar.lastSfdomain
  let forceRequested := force && h.smvar.phase = .started
  -- "degrade on SF domain is ignored because of SR2"
  let sfDegraded := sf.2 && !h.smvar.sr2
  { h with smvar := { h.smvar with
      lastHbdomain := hb.1
      lastSfdomain := sf.1
      needFh := h.smvar.needFh || ((hb.2 || sfDegraded || forceRequested) && !h.smvar.phase.fhUnderway) } }

/-! ## The phases of the fault handler -/

/-- The calls of `rendezvous` in `fault_handler`, each named after its second phase. -/
inductive FhStage
  | fh1 | fh2 | fh3 | fh4 | started
  deriving DecidableEq, Repr

namespace FhStage

def phase1 : FhStage → SmPhase
  | fh1 => .fhready | fh2 => .fh1done | fh3 => .fh2done | fh4 => .fh3done | started => .fh4done

def phase2 : FhStage → SmPhase
  | fh1 => .fh1 | fh2 => .fh2 | fh3 => .fh3 | fh4 => .fh4 | started => .started

def phase3 : FhStage → SmPhase
  | fh1 => .fh1done | fh2 => .fh2done | fh3 => .fh3done | fh4 => .fh4done | started => .fhready

/-- Only the rendezvous before the consistent view is on the State-File as well. -/
def onStatefile : FhStage → Bool
  | fh2 => true
  | _ => false

def next : FhStage → FhStage
  | fh1 => fh2 | fh2 => fh3 | fh3 => fh4 | fh4 => started | started => fh1

end FhStage

/-- Where the sm thread stands: in the first wait of a rendezvous, past its check, in the second wait, in
what follows the rendezvous (after `started` that is `wait_fh_event`), and at its end. -/
inductive FhPc
  | wait1 (s : FhStage)
  | met1 (s : FhStage)
  | wait2 (s : FhStage)
  | body (s : FhStage)
  /-- The loop of `wait_until_all_hosts_have_consistent_view` is left with these local domains. -/
  | freezing (consistent : Bool) (myHbdomain mySfdomain : HostMap)
  /-- Fencing is requested, the liveset not yet updated. -/
  | fencing
  | done (s : FhStage)
  | fenced
  deriving DecidableEq, Repr

/-- The check of `rendezvous_wait`. -/
def rendezvousWait (n : Nat) (p1 p2 : SmPhase) (onStatefile : Bool) (h : Host) : Bool :=
  (List.range n).all fun index =>
    !h.sm.currentLiveset.isOn index ||
      ((!h.hb.hbdomain.isOn index || h.hb.smPhase index = p1 || h.hb.smPhase index = p2) &&
        (!onStatefile || !h.sf.sfdomain.isOn index || h.sf.smPhase index = p1 || h.sf.smPhase index = p2))

/-- `commit_weight`. -/
def Host.commitWeight (h : Host) : Host :=
  { h with sm := { h.sm with commitedWeight := h.sm.weight } : Host }.smWriterUnlock

/-- What follows a rendezvous. -/
def fhBody (c : HaConfig) (timeout : Bool) (h : Host) : FhStage → Option (Host × FhPc)
  | .fh1 => some (h.commitWeight, .done .fh1)
  | .fh2 =>
    let v := checkConsistentView c h.sm h.hb h.sf
    let h := { h with hb := v.hb, sf := v.sf }
    if v.consistent || timeout then some (h, .freezing v.consistent v.myHbdomain v.mySfdomain)
    else some (h, .body .fh2)
  | .fh3 =>
    -- `self_fence` returns on a host that is not armed; whoever disarms it between the test and `self_fence`
    -- may as well do so before the test, since a test that is lost does not look at the fencing mode
    let r := testSurvivalRule c h
    if r.1 || r.2.smvar.fencing ≠ .armed then some (r.2, .done .fh3) else some (r.2, .fenced)
  | .fh4 =>
    if !h.sm.currentLiveset.subsetEqual h.sm.proposedLiveset then
      some ({ h with hb := { h.hb with ctl := { h.hb.ctl with
        fenceRequest := h.hb.ctl.fenceRequest || decide (h.smvar.fencing = .armed) } } }, .fencing)
    else some (h, .done .fh4)
  | .started =>
    -- `wait_fh_event`
    if h.smvar.needFh then
      some ({ h with smvar := { h.smvar with needFh := false, phase := .fhready } }, .done .started)
    else none

/-- A step of the sm thread; `timeout` says whether the time for a consistent view is up. -/
def fhNext (c : HaConfig) (timeout : Bool) (h : Host) : FhPc → Option (Host × FhPc)
  | .wait1 s => if rendezvousWait c.hostnum s.phase1 s.phase2 s.onStatefile h then some (h, .met1 s) else none
  | .met1 s => some (h.setSmPhase s.phase2, .wait2 s)
  | .wait2 s =>
    if rendezvousWait c.hostnum s.phase2 s.phase3 s.onStatefile h then
      if s = .started then some ({ h with smvar := { h.smvar with joinBlock := false } }, .body s)
      else some (h, .body s)
    else none
  | .body s => fhBody c timeout h s
  | .freezing consistent myHbdomain mySfdomain =>
    let v := freezeView c h.sm consistent myHbdomain mySfdomain h.hb h.sf
    some ({ h with smvar := { h.smvar with stableHb := v.1, stableSf := v.2 } }, .done .fh2)
  | .fencing =>
    if h.smvar.fencing = .armed then
      let h := { h with sm := { h.sm with currentLiveset := h.sm.currentLiveset &&& h.sm.proposedLiveset } : Host }.smWriterUnlock
      some ({ h with hb := { h.hb with ctl := { h.hb.ctl with fenceRequest := false } } }, .done .fh4)
    else some (h, .done .fh4)
  | .done s =>
    let h := if s = .started then { h with smvar := { h.smvar with joinBlock := true } } else h
    some (h.setSmPhase s.next.phase1, .wait1 s.next)
  | .fenced => none

/-! ## Updates of the domains -/

/-- What `update_hbdomain` works on. -/
structure HbUpdate where
  changed : Bool
  hbdomain : HostMap
  sequence : Nat → Nat

/-- One turn of `update_hbdomain`. -/
def updateHbHost (c : HaConfig) (now : MtcClock) (h : Host) (s : HbUpdate) (index : Nat) : HbUpdate :=
  if index = c.myIndex then { s with hbdomain := s.hbdomain.set index }
  else if 0 ≤ h.hb.timeLastHb index ∧ now - h.hb.timeLastHb index < timeoutMs c.heartbeatTimeout then
    if s.hbdomain.isOn index then
      if SmPhase.fhready.code ≤ (h.hb.smPhase index).code ∧ SmPhase.fhready.code ≤ h.sm.phase.code ∧
          (h.hb.raw index).hbdomain.isOn c.myIndex = false then
        { s with hbdomain := s.hbdomain.reset index, changed := true }
      else s
    else if h.smvar.joinBlock = false then { s with hbdomain := s.hbdomain.set index, changed := true }
    else s
  else
    let s := { s with sequence := Function.update s.sequence index 0 }
    if s.hbdomain.isOn index then { s with hbdomain := s.hbdomain.reset index, changed := true } else s

/-- `update_hbdomain`. -/
def updateHbdomain (c : HaConfig) (now : MtcClock) (h : Host) (sequence : Nat → Nat) : HbUpdate :=
  forRange c.hostnum ⟨false, h.hb.hbdomain, sequence⟩ (updateHbHost c now h)

/-- The two fields that `update_sfdomain` may write, and its result. -/
structure SfUpdate where
  changed : Bool
  sfdomain : HostMap
  sfAccess : Bool

/-- `update_sfdomain` on the object of a host. -/
def updateSfdomain (c : HaConfig) (now : MtcClock) (h : Host) : SfUpdate :=
  let (psf, changed) := h.sf.updateSfdomain c now h.smvar.joinBlock
  ⟨changed, psf.sfdomain, psf.sfAccess⟩

/-! ## Heartbeats -/

/-- `HB_PACKET`; its sequence number is unwrapped. -/
structure HbPacket where
  hostIndex : Nat
  sequence : Nat
  raw : RawData
  joining : Bool
  smPhase : SmPhase
  sr2 : Bool
  sfAccess : Bool
  sfCorrupted : Bool
  fenceRequest : Bool
  deriving DecidableEq

/-- The packet of `send_hb`. -/
def hbPacket (me sequence : Nat) (h : Host) : HbPacket where
  hostIndex := me
  sequence := sequence
  raw := ⟨h.sm.currentLiveset, h.sm.proposedLiveset, h.hb.hbdomain, h.sf.sfdomain⟩
  joining := h.hb.ctl.join
  smPhase := h.sm.phase
  sr2 := h.sm.sr2
  sfAccess := h.sf.sfAccess
  sfCorrupted := h.sf.sfCorrupted
  fenceRequest := h.hb.ctl.fenceRequest

/-- The part of `receive_hb` under the writer locks. -/
def Host.updateHbData (now : MtcClock) (pkt : HbPacket) (h : Host) : Host :=
  { h with
    hb := { h.hb with
      timeLastHb := Function.update h.hb.timeLastHb pkt.hostIndex now
      raw := Function.update h.hb.raw pkt.hostIndex pkt.raw
      notjoining := h.hb.notjoining.setBoolean pkt.hostIndex (!pkt.joining)
      smPhase := Function.update h.hb.smPhase pkt.hostIndex pkt.smPhase }
    sm := { h.sm with
      sr2 := h.sm.sr2 || pkt.sr2
      sfAccess := h.sm.sfAccess.setBoolean pkt.hostIndex pkt.sfAccess
      sfCorrupted := h.sm.sfCorrupted.setBoolean pkt.hostIndex pkt.sfCorrupted } : Host }.smWriterUnlock

@[simp] theorem Host.updateHbData_hb (now : MtcClock) (pkt : HbPacket) (h : Host) : (h.updateHbData now pkt).hb = { h.hb with
    timeLastHb := Function.update h.hb.timeLastHb pkt.hostIndex now
    raw := Function.update h.hb.raw pkt.hostIndex pkt.raw
    notjoining := h.hb.notjoining.setBoolean pkt.hostIndex (!pkt.joining)
    smPhase := Function.update h.hb.smPhase pkt.hostIndex pkt.smPhase } := by
  rw [updateHbData, smWriterUnlock_hb]

@[simp] theorem Host.updateHbData_sf (now : MtcClock) (pkt : HbPacket) (h : Host) : (h.updateHbData now pkt).sf = h.sf := by
  rw [updateHbData, smWriterUnlock_sf]

/-! ## The host -/

/-- Where the heartbeat thread or the worker thread stands: `start_fh` is its next call, or not. -/
inductive CallPc
  | idle
  | startFh (force : Bool)
  deriving DecidableEq, Repr

/-- The argument of the call. -/
def CallPc.forced : CallPc → Bool
  | .idle => false
  | .startFh force => force

/-- A host with its sm thread, its receiving thread, its worker and the sequence numbers of `hbvar`. -/
structure FhWorld where
  host : Host
  pc : FhPc
  hbReceive : CallPc
  smWorker : CallPc
  hbSequence : Nat → Nat

/-- The steps of the sm thread, the receiving thread, the worker and the sending thread; of the
State-File thread on one host's row; and of everybody on the fields the fault handler leaves to others. -/
inductive FhAction
  | fh (timeout : Bool)
  | updateHbdomain (now : MtcClock)
  | hbStartFh
  | updateSfdomain (now : MtcClock)
  | sfStartFh
  | receiveHb (now : MtcClock) (pkt : HbPacket)
  | sendHb
  | readRow (index : Nat) (r : SfHost) (stat : HostStat)
  | writeRow
  | objects (sm : ComDataSm) (hb : ComDataHb) (sf : ComDataSf)

/-- The sender is booting and still counts as live. -/
def HbPacket.fromStarting (pkt : HbPacket) (h : Host) : Bool :=
  !pkt.raw.currentLiveset.isOn pkt.hostIndex && h.sm.currentLiveset.isOn pkt.hostIndex

/-- `receive_hb` on a valid packet from another host: an old packet and one from a starting host are
dropped; a host asked to fence itself is gone. -/
def receiveHb (me : Nat) (now : MtcClock) (pkt : HbPacket) (w : FhWorld) : Option FhWorld :=
  if w.hbSequence pkt.hostIndex < pkt.sequence then
    let w := { w with hbSequence := Function.update w.hbSequence pkt.hostIndex pkt.sequence }
    if pkt.fromStarting w.host then some w
    else if pkt.fenceRequest = true ∧ pkt.raw.currentLiveset.isOn pkt.hostIndex = true ∧
        pkt.raw.proposedLiveset.isOn me = false ∧ w.host.smvar.fencing = .armed then none
    else
      some { w with
        host := w.host.updateHbData now pkt
        hbReceive := if pkt.smPhase = .fhready then .startFh true else .idle }
  else some w

def fhAct (c : HaConfig) (w : FhWorld) : FhAction → Option FhWorld
  | .fh timeout => (fhNext c timeout w.host w.pc).map fun r => { w with host := r.1, pc := r.2 }
  | .updateHbdomain now =>
    if w.hbReceive = .idle then
      let s := updateHbdomain c now w.host w.hbSequence
      some { w with
        host := { w.host with hb := { w.host.hb with hbdomain := s.hbdomain } }
        hbSequence := s.sequence
        hbReceive := if s.changed then .startFh false else .idle }
    else none
  | .hbStartFh =>
    match w.hbReceive with
    | .startFh force => some { w with host := startFh c.hostnum force w.host, hbReceive := .idle }
    | .idle => none
  | .updateSfdomain now =>
    if w.smWorker = .idle then
      let s := updateSfdomain c now w.host
      some { w with
        host := { w.host with sf := { w.host.sf with sfdomain := s.sfdomain, sfAccess := s.sfAccess } }
        smWorker := if s.changed then .startFh false else .idle }
    else none
  | .sfStartFh =>
    match w.smWorker with
    | .startFh force => some { w with host := startFh c.hostnum force w.host, smWorker := .idle }
    | .idle => none
  | .receiveHb now pkt =>
    if w.hbReceive = .idle ∧ pkt.hostIndex ≠ c.myIndex then receiveHb c.myIndex now pkt w else none
  | .sendHb =>
    some { w with
      host := { w.host with hb := { w.host.hb with
        smPhase := Function.update w.host.hb.smPhase c.myIndex w.host.sm.phase } }
      hbSequence := Function.update w.hbSequence c.myIndex (w.hbSequence c.myIndex + 1) }
  | .readRow index r stat =>
    let sf := updateHost c.myIndex ⟨⟨0, []⟩, fun _ => r⟩ (fun _ => stat) w.host.sm w.host.sf index
    some { w with host := { w.host with sf := sf } }
  | .writeRow =>
    some { w with host := { w.host with sf := { w.host.sf with
      smPhase := Function.update w.host.sf.smPhase c.myIndex w.host.sm.phase
      weight := Function.update w.host.sf.weight c.myIndex w.host.sm.commitedWeight } } }
  | .objects sm hb sf =>
    some { w with host := { w.host with
      sm := { w.host.sm with weight := sm.weight, sfAccess := sm.sfAccess, sfCorrupted := sm.sfCorrupted }
      hb := { hb with hbdomain := w.host.hb.hbdomain, smPhase := w.host.hb.smPhase }
      sf := { sf with sfdomain := w.host.sf.sfdomain, smPhase := w.host.sf.smPhase, weight := w.host.sf.weight } } }

/-! ## What each step does -/

/-- The steps of the sm thread. -/
inductive FhMove (c : HaConfig) (timeout : Bool) (h : Host) : FhPc → Host → FhPc → Prop
  | met1 (s : FhStage) : rendezvousWait c.hostnum s.phase1 s.phase2 s.onStatefile h = true →
      FhMove c timeout h (.wait1 s) h (.met1 s)
  | set2 (s : FhStage) : FhMove c timeout h (.met1 s) (h.setSmPhase s.phase2) (.wait2 s)
  | met2 (s : FhStage) : s ≠ .started → rendezvousWait c.hostnum s.phase2 s.phase3 s.onStatefile h = true →
      FhMove c timeout h (.wait2 s) h (.body s)
  | allowJoins :
      rendezvousWait c.hostnum FhStage.started.phase2 FhStage.started.phase3 FhStage.started.onStatefile h = true →
      FhMove c timeout h (.wait2 .started) { h with smvar := { h.smvar with joinBlock := false } } (.body .started)
  | commit : FhMove c timeout h (.body .fh1) h.commitWeight (.done .fh1)
  | again : (checkConsistentView c h.sm h.hb h.sf).consistent = false →
      FhMove c timeout h (.body .fh2)
        { h with hb := (checkConsistentView c h.sm h.hb h.sf).hb, sf := (checkConsistentView c h.sm h.hb h.sf).sf }
        (.body .fh2)
  | leave : ((checkConsistentView c h.sm h.hb h.sf).consistent || timeout) = true →
      FhMove c timeout h (.body .fh2)
        { h with hb := (checkConsistentView c h.sm h.hb h.sf).hb, sf := (checkConsistentView c h.sm h.hb h.sf).sf }
        (.freezing (checkConsistentView c h.sm h.hb h.sf).consistent (checkConsistentView c h.sm h.hb h.sf).myHbdomain
          (checkConsistentView c h.sm h.hb h.sf).mySfdomain)
  | freeze (consistent : Bool) (myHbdomain mySfdomain : HostMap) :
      FhMove c timeout h (.freezing consistent myHbdomain mySfdomain)
        { h with smvar := { h.smvar with
          stableHb := (freezeView c h.sm consistent myHbdomain mySfdomain h.hb h.sf).1
          stableSf := (freezeView c h.sm consistent myHbdomain mySfdomain h.hb h.sf).2 } } (.done .fh2)
  | won : (testSurvivalRule c h).1 = true → FhMove c timeout h (.body .fh3) (testSurvivalRule c h).2 (.done .fh3)
  | lost : (testSurvivalRule c h).1 = false → (testSurvivalRule c h).2.smvar.fencing = .armed →
      FhMove c timeout h (.body .fh3) (testSurvivalRule c h).2 .fenced
  | notFenced : (testSurvivalRule c h).1 = false → (testSurvivalRule c h).2.smvar.fencing ≠ .armed →
      FhMove c timeout h (.body .fh3) (testSurvivalRule c h).2 (.done .fh3)
  | degrading : h.sm.currentLiveset.subsetEqual h.sm.proposedLiveset = false →
      FhMove c timeout h (.body .fh4)
        { h with hb := { h.hb with ctl := { h.hb.ctl with
          fenceRequest := h.hb.ctl.fenceRequest || decide (h.smvar.fencing = .armed) } } } .fencing
  | undegraded : h.sm.currentLiveset.subsetEqual h.sm.proposedLiveset = true →
      FhMove c timeout h (.body .fh4) h (.done .fh4)
  | update : h.smvar.fencing = .armed →
      FhMove c timeout h .fencing
        (let h := { h with sm := { h.sm with currentLiveset := h.sm.currentLiveset &&& h.sm.proposedLiveset } : Host }.smWriterUnlock
        { h with hb := { h.hb with ctl := { h.hb.ctl with fenceRequest := false } } }) (.done .fh4)
  | noUpdate : h.smvar.fencing ≠ .armed → FhMove c timeout h .fencing h (.done .fh4)
  | event : h.smvar.needFh = true →
      FhMove c timeout h (.body .started) { h with smvar := { h.smvar with needFh := false, phase := .fhready } }
        (.done .started)
  | blockJoins : FhMove c timeout h (.done .started)
      (Host.setSmPhase { h with smvar := { h.smvar with joinBlock := true } } FhStage.started.next.phase1)
      (.wait1 FhStage.started.next)
  | set1 (s : FhStage) : s ≠ .started → FhMove c timeout h (.done s) (h.setSmPhase s.next.phase1) (.wait1 s.next)

theorem fhNext_move {c : HaConfig} {timeout : Bool} {h h' : Host} {pc pc' : FhPc}
    (hn : fhNext c timeout h pc = some (h', pc')) : FhMove c timeout h pc h' pc' := by
  cases pc with
  | wait1 s =>
    simp only [fhNext] at hn
    split at hn <;> rename_i hw <;> cases hn
    exact .met1 s hw
  | met1 s =>
    cases hn
    exact .set2 s
  | wait2 s =>
    simp only [fhNext] at hn
    split at hn
    · rename_i hw
      split at hn <;> rename_i hs <;> cases hn
      · subst hs
        exact .allowJoins hw
      · exact .met2 s hs hw
    · cases hn
  | body s =>
    cases s with
    | fh1 =>
      cases hn
      exact .commit
    | fh2 =>
      simp only [fhNext, fhBody] at hn
      split at hn <;> rename_i hc <;> cases hn
      · exact .leave hc
      · rw [Bool.or_eq_true, not_or, Bool.not_eq_true] at hc
        exact .again hc.1
    | fh3 =>
      simp only [fhNext, fhBody] at hn
      split at hn <;> rename_i hw <;> cases hn
      · rw [Bool.or_eq_true, decide_eq_true_eq] at hw
        by_cases hwon : (testSurvivalRule c h).1 = true
        · exact .won hwon
        · exact .notFenced (Bool.not_eq_true _ ▸ hwon) (hw.resolve_left hwon)
      · rw [Bool.or_eq_true, decide_eq_true_eq, not_or, not_not] at hw
        exact .lost (Bool.not_eq_true _ ▸ hw.1) hw.2
    | fh4 =>
      simp only [fhNext, fhBody] at hn
      split at hn <;> rename_i hsub <;> cases hn
      · exact .degrading (Bool.not_eq_true' _ ▸ hsub)
      · rw [Bool.not_eq_true', Bool.not_eq_false] at hsub
        exact .undegraded hsub
    | started =>
      simp only [fhNext, fhBody] at hn
      split at hn <;> rename_i hneed <;> cases hn
      exact .event hneed
  | freezing consistent myHbdomain mySfdomain =>
    cases hn
    exact .freeze ..
  | fencing =>
    simp only [fhNext] at hn
    split at hn <;> rename_i harmed <;> cases hn
    · exact .update harmed
    · exact .noUpdate harmed
  | done s =>
    simp only [fhNext] at hn
    split at hn <;> rename_i hs <;> cases hn
    · subst hs
      exact .blockJoins
    · exact .set1 s hs
  | fenced => cases hn

/-- A packet changes what its receiver has seen. -/
def HbPacket.taken (pkt : HbPacket) (w : FhWorld) : Bool :=
  decide (w.hbSequence pkt.hostIndex < pkt.sequence) && !pkt.fromStarting w.host

/-- The steps of a host. -/
inductive FhStep (c : HaConfig) (w : FhWorld) : FhAction → FhWorld → Prop
  | fh {timeout : Bool} {h' : Host} {pc' : FhPc} : FhMove c timeout w.host w.pc h' pc' →
      FhStep c w (.fh timeout) { w with host := h', pc := pc' }
  | updateHbdomain (now : MtcClock) : w.hbReceive = .idle →
      FhStep c w (.updateHbdomain now) { w with
        host := { w.host with hb := { w.host.hb with hbdomain := (updateHbdomain c now w.host w.hbSequence).hbdomain } }
        hbSequence := (updateHbdomain c now w.host w.hbSequence).sequence
        hbReceive := if (updateHbdomain c now w.host w.hbSequence).changed then .startFh false else .idle }
  | hbStartFh {force : Bool} : w.hbReceive = .startFh force →
      FhStep c w .hbStartFh { w with host := startFh c.hostnum force w.host, hbReceive := .idle }
  | updateSfdomain (now : MtcClock) : w.smWorker = .idle →
      FhStep c w (.updateSfdomain now) { w with
        host := { w.host with sf := { w.host.sf with
          sfdomain := (updateSfdomain c now w.host).sfdomain, sfAccess := (updateSfdomain c now w.host).sfAccess } }
        smWorker := if (updateSfdomain c now w.host).changed then .startFh false else .idle }
  | sfStartFh {force : Bool} : w.smWorker = .startFh force →
      FhStep c w .sfStartFh { w with host := startFh c.hostnum force w.host, smWorker := .idle }
  | receiveOld (now : MtcClock) {pkt : HbPacket} : w.hbReceive = .idle → pkt.hostIndex ≠ c.myIndex → pkt.taken w = false →
      FhStep c w (.receiveHb now pkt) w
  | receiveStarting (now : MtcClock) {pkt : HbPacket} : w.hbReceive = .idle → pkt.hostIndex ≠ c.myIndex →
      w.hbSequence pkt.hostIndex < pkt.sequence → pkt.taken w = false →
      FhStep c w (.receiveHb now pkt) { w with hbSequence := Function.update w.hbSequence pkt.hostIndex pkt.sequence }
  | receive (now : MtcClock) {pkt : HbPacket} : w.hbReceive = .idle → pkt.hostIndex ≠ c.myIndex →
      w.hbSequence pkt.hostIndex < pkt.sequence → pkt.taken w = true →
      FhStep c w (.receiveHb now pkt) { w with
        hbSequence := Function.update w.hbSequence pkt.hostIndex pkt.sequence
        host := w.host.updateHbData now pkt
        hbReceive := if pkt.smPhase = .fhready then .startFh true else .idle }
  | sendHb : FhStep c w .sendHb { w with
      host := { w.host with hb := { w.host.hb with
        smPhase := Function.update w.host.hb.smPhase c.myIndex w.host.sm.phase } }
      hbSequence := Function.update w.hbSequence c.myIndex (w.hbSequence c.myIndex + 1) }
  | readRow (index : Nat) (r : SfHost) (stat : HostStat) : FhStep c w (.readRow index r stat) { w with
      host := { w.host with
        sf := updateHost c.myIndex ⟨⟨0, []⟩, fun _ => r⟩ (fun _ => stat) w.host.sm w.host.sf index } }
  | writeRow : FhStep c w .writeRow { w with host := { w.host with sf := { w.host.sf with
      smPhase := Function.update w.host.sf.smPhase c.myIndex w.host.sm.phase
      weight := Function.update w.host.sf.weight c.myIndex w.host.sm.commitedWeight } } }
  | objects (sm : ComDataSm) (hb : ComDataHb) (sf : ComDataSf) : FhStep c w (.objects sm hb sf) { w with
      host := { w.host with
        sm := { w.host.sm with weight := sm.weight, sfAccess := sm.sfAccess, sfCorrupted := sm.sfCorrupted }
        hb := { hb with hbdomain := w.host.hb.hbdomain, smPhase := w.host.hb.smPhase }
        sf := { sf with sfdomain := w.host.sf.sfdomain, smPhase := w.host.sf.smPhase, weight := w.host.sf.weight } } }

theorem fhAct_step {c : HaConfig} {w w' : FhWorld} {a : FhAction} (hn : fhAct c w a = some w') : FhStep c w a w' := by
  cases a with
  | fh timeout =>
    simp only [fhAct, Option.map_eq_some_iff] at hn
    obtain ⟨⟨h', pc'⟩, hmove, rfl⟩ := hn
    exact .fh (fhNext_move hmove)
  | updateHbdomain now =>
    simp only [fhAct] at hn
    split at hn <;> rename_i hidle <;> cases hn
    exact .updateHbdomain now hidle
  | hbStartFh =>
    simp only [fhAct] at hn
    split at hn <;> rename_i hcall <;> cases hn
    exact .hbStartFh hcall
  | updateSfdomain now =>
    simp only [fhAct] at hn
    split at hn <;> rename_i hidle <;> cases hn
    exact .updateSfdomain now hidle
  | sfStartFh =>
    simp only [fhAct] at hn
    split at hn <;> rename_i hcall <;> cases hn
    exact .sfStartFh hcall
  | receiveHb now pkt =>
    simp only [fhAct, receiveHb] at hn
    split at hn
    · rename_i hidle
      split at hn
      · rename_i hnewer
        split at hn
        · rename_i hstart
          cases hn
          have hstart : pkt.fromStarting w.host = true := hstart
          exact .receiveStarting now hidle.1 hidle.2 hnewer (by simp [HbPacket.taken, hstart])
        · rename_i hstart
          split at hn <;> cases hn
          have hstart : pkt.fromStarting w.host = false := Bool.not_eq_true _ ▸ hstart
          exact .receive now hidle.1 hidle.2 hnewer (by simp [HbPacket.taken, hnewer, hstart])
      · rename_i hold
        cases hn
        exact .receiveOld now hidle.1 hidle.2 (by simp [HbPacket.taken, hold])
    · cases hn
  | sendHb => cases hn; exact .sendHb
  | readRow index r stat => cases hn; exact .readRow index r stat
  | writeRow => cases hn; exact .writeRow
  | objects sm hb sf => cases hn; exact .objects sm hb sf

/-! ## What the sm thread leaves alone -/

/-- What a host has seen of the others' phases and weights. -/
structure Host.SameViews (h h' : Host) : Prop where
  hbSmPhase : h'.hb.smPhase = h.hb.smPhase
  sfSmPhase : h'.sf.smPhase = h.sf.smPhase
  sfWeight : h'.sf.weight = h.sf.weight

/-- What a host shows the others of itself. -/
structure Host.SameSelf (h h' : Host) : Prop where
  phase : h'.sm.phase = h.sm.phase
  commitedWeight : h'.sm.commitedWeight = h.sm.commitedWeight

theorem Host.smWriterUnlock_sm (h : Host) :
    h.smWriterUnlock.sm = h.sm ∨ h.smWriterUnlock.sm = { h.sm with fencing := .disarmed } := by
  unfold smWriterUnlock
  split
  · exact .inr rfl
  · exact .inl rfl

theorem Host.smWriterUnlock_self (h : Host) : h.SameSelf h.smWriterUnlock := by
  rcases h.smWriterUnlock_sm with hs | hs <;> exact ⟨by rw [hs], by rw [hs]⟩

theorem Host.disarm_self (h : Host) : h.SameSelf h.disarm := by
  obtain ⟨hphase, hweight⟩ := Host.smWriterUnlock_self { h with sm := { h.sm with fencing := requestDisarm h.sm.fencing } }
  exact ⟨hphase, hweight⟩

/-- What can be read of a host without its `smvar`, its SR2 flag, its fencing mode, its proposed liveset
and its domains is not touched by the test. -/
theorem testSurvivalRule_unseen {α : Type} (c : HaConfig) (h : Host) (f : Host → α)
    (hself : ∀ (t : Host) (sr2 : Bool) (v : SmVar), f { t with sm := { t.sm with sr2 := sr2 }, smvar := v } = f t)
    (hrem : ∀ t i, f (t.removeFromDomains i) = f t) (hun : ∀ t, f t.smWriterUnlock = f t) :
    f (testSurvivalRule c h).2 = f h := by
  have hlost : ∀ n hbd sfd sr2 (t : Host), f (t.removeLost n hbd sfd sr2) = f t := by
    intro n hbd sfd sr2 t
    refine forRange_inv (fun _ u => f u = f t) rfl fun k u _ hu => ?_
    split
    · rw [hrem, hu]
    · exact hu
  have hsm : ∀ (b : Bool) (v : SmVar),
      f { h with sm := if b then { h.sm with sr2 := true } else h.sm, smvar := v } = f h := by
    intro b v
    cases b
    · exact hself h h.sm.sr2 v
    · exact hself h true v
  unfold testSurvivalRule
  dsimp only
  rw [hun]
  split
  · rw [hlost]; exact hsm _ _
  · exact hsm _ _

theorem Host.removeFromDomains_frame (h : Host) (index : Nat) :
    (h.removeFromDomains index).hb = { h.hb with hbdomain := (h.removeFromDomains index).hb.hbdomain } ∧
    (h.removeFromDomains index).sf = { h.sf with sfdomain := (h.removeFromDomains index).sf.sfdomain } ∧
    (h.removeFromDomains index).sm = { h.sm with proposedLiveset := h.sm.proposedLiveset.reset index } := by
  unfold removeFromDomains
  dsimp only
  split <;> split <;> exact ⟨rfl, rfl, rfl⟩

theorem testSurvivalRule_views (c : HaConfig) (h : Host) : h.SameViews (testSurvivalRule c h).2 := by
  refine ⟨testSurvivalRule_unseen c h (fun t => t.hb.smPhase) (fun _ _ _ => rfl) (fun t i => ?_) fun t => ?_,
    testSurvivalRule_unseen c h (fun t => t.sf.smPhase) (fun _ _ _ => rfl) (fun t i => ?_) fun t => ?_,
    testSurvivalRule_unseen c h (fun t => t.sf.weight) (fun _ _ _ => rfl) (fun t i => ?_) fun t => ?_⟩
  all_goals first | rw [(t.removeFromDomains_frame i).1] | rw [(t.removeFromDomains_frame i).2.1] | simp

theorem testSurvivalRule_self (c : HaConfig) (h : Host) : h.SameSelf (testSurvivalRule c h).2 := by
  refine ⟨testSurvivalRule_unseen c h (fun t => t.sm.phase) (fun _ _ _ => rfl) (fun t i => ?_) fun t => ?_,
    testSurvivalRule_unseen c h (fun t => t.sm.commitedWeight) (fun _ _ _ => rfl) (fun t i => ?_) fun t => ?_⟩
  · rw [(t.removeFromDomains_frame i).2.2]
  · exact t.smWriterUnlock_self.phase
  · rw [(t.removeFromDomains_frame i).2.2]
  · exact t.smWriterUnlock_self.commitedWeight

theorem checkConsistentView_views (c : HaConfig) (sm : ComDataSm) (hb : ComDataHb) (sf : ComDataSf) :
    (checkConsistentView c sm hb sf).hb.smPhase = hb.smPhase ∧ (checkConsistentView c sm hb sf).sf.smPhase = sf.smPhase ∧
      (checkConsistentView c sm hb sf).sf.weight = sf.weight := by
  unfold checkConsistentView
  dsimp only
  obtain ⟨h1, h2⟩ := checkPeers_frame c sm.currentLiveset (hb.hbdomain.maskUnconfig c.hostnum &&& sm.currentLiveset)
    (sf.sfdomain.maskUnconfig c.hostnum &&& sm.currentLiveset) (List.range c.hostnum)
    { hb with hbdomain := hb.hbdomain.maskUnconfig c.hostnum } { sf with sfdomain := sf.sfdomain.maskUnconfig c.hostnum }
  exact ⟨by rw [h1], by rw [h2], by rw [h2]⟩

/-! ## The control of the sm thread -/

/-- The phase a host shows at each point. -/
def FhPc.phase : FhPc → SmPhase
  | .wait1 s | .met1 s => s.phase1
  | .wait2 s | .body s | .done s => s.phase2
  | .freezing _ _ _ => .fh2
  | .fencing => .fh4
  | .fenced => .fh3

/-- The steps inside what follows a rendezvous, the commit of the weight apart. -/
inductive FhPc.BodyStep : FhPc → FhPc → Prop
  | again : BodyStep (.body .fh2) (.body .fh2)
  | leave (consistent : Bool) (myHbdomain mySfdomain : HostMap) :
    BodyStep (.body .fh2) (.freezing consistent myHbdomain mySfdomain)
  | freeze (consistent : Bool) (myHbdomain mySfdomain : HostMap) :
    BodyStep (.freezing consistent myHbdomain mySfdomain) (.done .fh2)
  | tested : BodyStep (.body .fh3) (.done .fh3)
  | lost : BodyStep (.body .fh3) .fenced
  | degrading : BodyStep (.body .fh4) .fencing
  | keep : BodyStep (.body .fh4) (.done .fh4)
  | update : BodyStep .fencing (.done .fh4)
  | event : BodyStep (.body .started) (.done .started)

/-- The seven kinds of steps of the sm thread, with the phase and the committed weight they leave. -/
inductive FhControl (n : Nat) (h h' : Host) : FhPc → FhPc → Prop
  | met1 (s : FhStage) : rendezvousWait n s.phase1 s.phase2 s.onStatefile h = true → h.SameSelf h' →
      FhControl n h h' (.wait1 s) (.met1 s)
  | set2 (s : FhStage) : h'.sm.phase = s.phase2 → h'.sm.commitedWeight = h.sm.commitedWeight →
      FhControl n h h' (.met1 s) (.wait2 s)
  | met2 (s : FhStage) : rendezvousWait n s.phase2 s.phase3 s.onStatefile h = true → h.SameSelf h' →
      FhControl n h h' (.wait2 s) (.body s)
  | commit : h'.sm.phase = h.sm.phase → h'.sm.commitedWeight = h.sm.weight → FhControl n h h' (.body .fh1) (.done .fh1)
  | within (pc pc' : FhPc) : pc.BodyStep pc' → h.SameSelf h' → FhControl n h h' pc pc'
  | set1 (s : FhStage) : h'.sm.phase = s.next.phase1 → h'.sm.commitedWeight = h.sm.commitedWeight →
      FhControl n h h' (.done s) (.wait1 s.next)

theorem Host.setSmPhase_self (h : Host) (phase : SmPhase) :
    (h.setSmPhase phase).sm.phase = phase ∧ (h.setSmPhase phase).sm.commitedWeight = h.sm.commitedWeight :=
  ⟨(Host.smWriterUnlock_self _).phase, (Host.smWriterUnlock_self _).commitedWeight⟩

theorem Host.setSmPhase_views (h : Host) (phase : SmPhase) : h.SameViews (h.setSmPhase phase) :=
  ⟨by simp [setSmPhase], by simp [setSmPhase], by simp [setSmPhase]⟩

theorem fhNext_control {c : HaConfig} {timeout : Bool} {h h' : Host} {pc pc' : FhPc}
    (hn : fhNext c timeout h pc = some (h', pc')) : FhControl c.hostnum h h' pc pc' ∧ h.SameViews h' := by
  obtain ⟨h1, h2, h3⟩ := checkConsistentView_views c h.sm h.hb h.sf
  cases fhNext_move hn with
  | met1 s hw => exact ⟨.met1 s hw ⟨rfl, rfl⟩, ⟨rfl, rfl, rfl⟩⟩
  | set2 s =>
    obtain ⟨hp, hw⟩ := h.setSmPhase_self s.phase2
    exact ⟨.set2 s hp hw, h.setSmPhase_views _⟩
  | met2 s _ hw => exact ⟨.met2 s hw ⟨rfl, rfl⟩, ⟨rfl, rfl, rfl⟩⟩
  | allowJoins hw => exact ⟨.met2 .started hw ⟨rfl, rfl⟩, ⟨rfl, rfl, rfl⟩⟩
  | commit =>
    obtain ⟨hp, hw⟩ := Host.smWriterUnlock_self { h with sm := { h.sm with commitedWeight := h.sm.weight } }
    exact ⟨.commit hp hw, ⟨by simp [Host.commitWeight], by simp [Host.commitWeight], by simp [Host.commitWeight]⟩⟩
  | again => exact ⟨.within _ _ .again ⟨rfl, rfl⟩, ⟨h1, h2, h3⟩⟩
  | leave => exact ⟨.within _ _ (.leave ..) ⟨rfl, rfl⟩, ⟨h1, h2, h3⟩⟩
  | freeze => exact ⟨.within _ _ (.freeze ..) ⟨rfl, rfl⟩, ⟨rfl, rfl, rfl⟩⟩
  | won | notFenced => exact ⟨.within _ _ .tested (testSurvivalRule_self c h), testSurvivalRule_views c h⟩
  | lost => exact ⟨.within _ _ .lost (testSurvivalRule_self c h), testSurvivalRule_views c h⟩
  | degrading => exact ⟨.within _ _ .degrading ⟨rfl, rfl⟩, ⟨rfl, rfl, rfl⟩⟩
  | undegraded => exact ⟨.within _ _ .keep ⟨rfl, rfl⟩, ⟨rfl, rfl, rfl⟩⟩
  | update =>
    obtain ⟨hp, hw⟩ := Host.smWriterUnlock_self
      { h with sm := { h.sm with currentLiveset := h.sm.currentLiveset &&& h.sm.proposedLiveset } }
    exact ⟨.within _ _ .update ⟨hp, hw⟩, ⟨by simp, by simp, by simp⟩⟩
  | noUpdate => exact ⟨.within _ _ .update ⟨rfl, rfl⟩, ⟨rfl, rfl, rfl⟩⟩
  | event => exact ⟨.within _ _ .event ⟨rfl, rfl⟩, ⟨rfl, rfl, rfl⟩⟩
  | blockJoins =>
    obtain ⟨hp, hw⟩ :=
      Host.setSmPhase_self { h with smvar := { h.smvar with joinBlock := true } } FhStage.started.next.phase1
    obtain ⟨h1, h2, h3⟩ :=
      Host.setSmPhase_views { h with smvar := { h.smvar with joinBlock := true } } FhStage.started.next.phase1
    exact ⟨.set1 .started hp hw, ⟨h1, h2, h3⟩⟩
  | set1 s =>
    obtain ⟨hp, hw⟩ := h.setSmPhase_self s.next.phase1
    exact ⟨.set1 s hp hw, h.setSmPhase_views _⟩

/-! ## The steps of the other threads -/

/-- The steps that send nothing, read no record and no packet. -/
def FhAction.isInner : FhAction → Bool
  | .updateHbdomain _ | .hbStartFh | .updateSfdomain _ | .sfStartFh | .objects _ _ _ => true
  | _ => false

theorem updateHbdomain_sequence (c : HaConfig) (now : MtcClock) (h : Host) (sequence : Nat → Nat) (j : Nat) :
    (updateHbdomain c now h sequence).sequence j = sequence j ∨
      (updateHbdomain c now h sequence).hbdomain.isOn j = false := by
  have hinv := forRange_inv (n := c.hostnum) (s := (⟨false, h.hb.hbdomain, sequence⟩ : HbUpdate))
    (f := updateHbHost c now h)
    (fun k s => s.sequence j = sequence j ∨ (s.hbdomain.isOn j = false ∧ j < k)) (.inl rfl) fun k s _ hs => ?_
  · exact hinv.imp_right And.left
  · by_cases hkj : k = j
    · subst hkj
      have hseq : s.sequence k = sequence k := hs.resolve_right fun hc => absurd hc.2 (lt_irrefl k)
      unfold updateHbHost
      dsimp only
      split_ifs
      · exact .inl hseq
      · exact .inl hseq
      · exact .inl hseq
      · exact .inl hseq
      · exact .inl hseq
      · exact .inr ⟨by simp, Nat.lt_succ_self k⟩
      · rename_i hoff
        exact .inr ⟨by simpa using hoff, Nat.lt_succ_self k⟩
    · have hs' : s.sequence j = sequence j ∨ (s.hbdomain.isOn j = false ∧ j < k + 1) :=
        hs.imp_right fun hc => ⟨hc.1, Nat.lt_succ_of_lt hc.2⟩
      unfold updateHbHost
      dsimp only
      split_ifs <;> simpa [hkj, Function.update_of_ne (Ne.symm hkj)] using hs'

theorem fhAct_inner {c : HaConfig} {w w' : FhWorld} {a : FhAction} (ha : a.isInner = true) (hn : fhAct c w a = some w') :
    w'.pc = w.pc ∧ w.host.SameSelf w'.host ∧ w.host.SameViews w'.host ∧
      ∀ j, w'.hbSequence j = w.hbSequence j ∨ w'.host.hb.hbdomain.isOn j = false := by
  cases fhAct_step hn with
  | updateHbdomain now => exact ⟨rfl, ⟨rfl, rfl⟩, ⟨rfl, rfl, rfl⟩, updateHbdomain_sequence c now w.host w.hbSequence⟩
  | hbStartFh => exact ⟨rfl, ⟨rfl, rfl⟩, ⟨rfl, rfl, rfl⟩, fun j => .inl rfl⟩
  | updateSfdomain => exact ⟨rfl, ⟨rfl, rfl⟩, ⟨rfl, rfl, rfl⟩, fun j => .inl rfl⟩
  | sfStartFh => exact ⟨rfl, ⟨rfl, rfl⟩, ⟨rfl, rfl, rfl⟩, fun j => .inl rfl⟩
  | objects => exact ⟨rfl, ⟨rfl, rfl⟩, ⟨rfl, rfl, rfl⟩, fun j => .inl rfl⟩
  | _ => cases ha

end Xha
