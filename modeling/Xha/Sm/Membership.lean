/-
Who is in the two domains and why: `update_sfdomain` (sm.c) and `update_hbdomain` (heartbeat.c) keep a host
on the evidence of `readsf`, a change of the sequence number of its record, and of `receive_hb`, a heartbeat
accepted from it, and both are recorded at other times by other threads. The histories of reads and of accepted
packets explain the times that are recorded (`DomainWorld.evident`), and the times each decision
(`membership_is_justified`).
-/
import Xha.Sm.FaultHandler
import Xha.StateFile.Machine

namespace Xha

open Loop Transition

/-! ## One host and its history -/

/-- The daemon with `smvar` and the sequence numbers of `hbvar`. The history lists, for each host, the
heartbeats accepted from it and the sequence numbers read of its record, with their times, the last one first. -/
structure DomainWorld where
  daemon : SfWorld
  smvar : SmVar
  hbSequence : Nat → Nat
  heard : Nat → List (MtcClock × HbPacket)
  reads : Nat → List (MtcClock × MtcU32)

def DomainWorld.host (w : DomainWorld) : Host := ⟨w.daemon.sm, w.daemon.hb, w.daemon.sf, w.smvar⟩

def DomainWorld.setHost (w : DomainWorld) (h : Host) : DomainWorld :=
  { w with daemon := { w.daemon with sm := h.sm, hb := h.hb, sf := h.sf }, smvar := h.smvar }

/-- The check of the sequence numbers in `receive_hb`. -/
def newerSequence (last packet : MtcU32) : Bool := last < packet || 0x80000000#32 < last - packet

/-- `receive_hb` on a valid packet. -/
def DomainWorld.receiveHb (me : Nat) (pkt : HbPacket) (w : DomainWorld) : Option DomainWorld :=
  let j := pkt.hostIndex
  if w.daemon.hb.ctl.enableHbReceive = false then some w
  else if newerSequence (BitVec.ofNat 32 (w.hbSequence j)) (BitVec.ofNat 32 pkt.sequence) then
    let w := { w with hbSequence := Function.update w.hbSequence j (pkt.sequence % 2 ^ 32) }
    if pkt.fromStarting w.host then some w
    else if pkt.fenceRequest = true ∧ pkt.raw.currentLiveset.isOn j = true ∧ pkt.raw.proposedLiveset.isOn me = false ∧
        w.smvar.fencing = .armed then none
    else
      let w := w.setHost (w.host.updateHbData w.daemon.clock pkt)
      some { w with heard := Function.update w.heard j ((w.daemon.clock, pkt) :: w.heard j) }
  else some w

/-- The host whose record the access reads, if it reads one. -/
def readsRecord (n : Nat) (d : SfWorld) : SfAction → Option Nat
  | .read .success => match d.pc with
    | .reading _ (i + 1) io => if i < n ∧ io.hostSection i ≠ .success then some i else none
    | _ => none
  | _ => none

/-- The other threads are steps of their own. -/
def SfAction.isObjects : SfAction → Bool
  | .objects _ _ _ _ _ _ => true
  | _ => false

/-- The host after the other threads: whatever they do to the objects, only `receive_hb` records the
heartbeats of another host, which the check of the views masks in place, and only `readsf` sets `time_last_SF`. -/
def otherThreads (c : HaConfig) (mask : Nat → Bool) (h h' : Host) : Host :=
  { h' with
    hb := { h'.hb with
      timeLastHb := fun j => if j = c.myIndex then h'.hb.timeLastHb j else h.hb.timeLastHb j
      raw := fun j => if j = c.myIndex then h'.hb.raw j
        else if mask j then (h.hb.raw j).maskUnconfig c.hostnum else h.hb.raw j
      smPhase := fun j => if j = c.myIndex then h'.hb.smPhase j else h.hb.smPhase j }
    sf := { h'.sf with timeLastSf := h.sf.timeLastSf } }

inductive DomainAction
  | sfThread (a : SfAction)
  | stateFile (disk : SfImage)
  | updateSfdomain
  | updateHbdomain
  | receiveHb (pkt : HbPacket)
  | others (mask : Nat → Bool) (h : Host)

def domainNext (c : HaConfig) (w : DomainWorld) : DomainAction → Option DomainWorld
  | .sfThread a =>
    if a.isObjects then none
    else (sfNext c w.daemon a).map fun d => { w with
      daemon := d
      reads := match readsRecord c.hostnum w.daemon a with
        | some i => Function.update w.reads i ((w.daemon.clock, (w.daemon.disk.host i).sequence) :: w.reads i)
        | none => w.reads }
  | .stateFile disk => some { w with daemon := { w.daemon with disk := disk } }
  | .updateSfdomain =>
    let s := updateSfdomain c w.daemon.clock w.host
    some { w with daemon := { w.daemon with sf := { w.daemon.sf with sfdomain := s.sfdomain, sfAccess := s.sfAccess } } }
  | .updateHbdomain =>
    let s := updateHbdomain c w.daemon.clock w.host w.hbSequence
    some { w with
      daemon := { w.daemon with hb := { w.daemon.hb with hbdomain := s.hbdomain } }
      hbSequence := s.sequence }
  | .receiveHb pkt => if pkt.hostIndex < c.hostnum then w.receiveHb c.myIndex pkt else none
  | .others mask h => some (w.setHost (otherThreads c mask w.host h))

/-- The daemon starts on any State-File, at any time. -/
def domainMachine (c : HaConfig) : Machine DomainWorld DomainAction where
  init w := (∃ clock disk buffer sequence, 0 ≤ clock ∧ w.daemon = SfWorld.initial c.myIndex clock disk buffer sequence) ∧
    ∀ j, w.heard j = [] ∧ w.reads j = []
  next := domainNext c

/-! ## The fault handler among the other threads -/

theorem otherThreads_eq {c : HaConfig} {h h' : Host} (htime : h'.hb.timeLastHb = h.hb.timeLastHb)
    (hphase : h'.hb.smPhase = h.hb.smPhase) (hsf : h'.sf.timeLastSf = h.sf.timeLastSf)
    (hraw : ∀ j, h'.hb.raw j = h.hb.raw j ∨ h'.hb.raw j = (h.hb.raw j).maskUnconfig c.hostnum) :
    ∃ mask, otherThreads c mask h h' = h' := by
  refine ⟨fun j => h'.hb.raw j = (h.hb.raw j).maskUnconfig c.hostnum, ?_⟩
  have hr : (fun j => if j = c.myIndex then h'.hb.raw j
      else if decide (h'.hb.raw j = (h.hb.raw j).maskUnconfig c.hostnum) then (h.hb.raw j).maskUnconfig c.hostnum
      else h.hb.raw j) = h'.hb.raw := by
    funext j
    by_cases hm : h'.hb.raw j = (h.hb.raw j).maskUnconfig c.hostnum
    · rw [decide_eq_true hm, if_pos rfl, ← hm, ite_self]
    · rw [decide_eq_false hm, if_neg Bool.false_ne_true, ← (hraw j).resolve_right hm, ite_self]
  unfold otherThreads
  rw [hr, ← htime, ← hphase, ← hsf]
  simp only [ite_self]

/-- The steps of the fault handler are among those of the other threads. -/
theorem fhNext_otherThreads {c : HaConfig} {timeout : Bool} {h h' : Host} {pc pc' : FhPc}
    (hn : fhNext c timeout h pc = some (h', pc')) : ∃ mask, otherThreads c mask h h' = h' := by
  have hview : (checkConsistentView c h.sm h.hb h.sf).hb.timeLastHb = h.hb.timeLastHb ∧
      (checkConsistentView c h.sm h.hb h.sf).sf.timeLastSf = h.sf.timeLastSf ∧
      ∀ j, (checkConsistentView c h.sm h.hb h.sf).hb.raw j = h.hb.raw j ∨
        (checkConsistentView c h.sm h.hb h.sf).hb.raw j = (h.hb.raw j).maskUnconfig c.hostnum := by
    obtain ⟨h1, h2⟩ := checkPeers_frame c h.sm.currentLiveset (h.hb.hbdomain.maskUnconfig c.hostnum &&& h.sm.currentLiveset)
      (h.sf.sfdomain.maskUnconfig c.hostnum &&& h.sm.currentLiveset) (List.range c.hostnum)
      { h.hb with hbdomain := h.hb.hbdomain.maskUnconfig c.hostnum }
      { h.sf with sfdomain := h.sf.sfdomain.maskUnconfig c.hostnum }
    refine ⟨by simp only [checkConsistentView]; rw [h1], by simp only [checkConsistentView]; rw [h2], fun j => ?_⟩
    exact (checkPeers_raw c h.sm.currentLiveset (h.hb.hbdomain.maskUnconfig c.hostnum &&& h.sm.currentLiveset)
      (h.sf.sfdomain.maskUnconfig c.hostnum &&& h.sm.currentLiveset) (List.range c.hostnum)
      { h.hb with hbdomain := h.hb.hbdomain.maskUnconfig c.hostnum }
      { h.sf with sfdomain := h.sf.sfdomain.maskUnconfig c.hostnum } j).1
  have htest : (testSurvivalRule c h).2.hb.timeLastHb = h.hb.timeLastHb ∧
      (testSurvivalRule c h).2.sf.timeLastSf = h.sf.timeLastSf ∧ (testSurvivalRule c h).2.hb.raw = h.hb.raw := by
    refine ⟨testSurvivalRule_unseen c h (fun t => t.hb.timeLastHb) (fun _ _ _ => rfl) (fun t i => ?_) fun t => ?_,
      testSurvivalRule_unseen c h (fun t => t.sf.timeLastSf) (fun _ _ _ => rfl) (fun t i => ?_) fun t => ?_,
      testSurvivalRule_unseen c h (fun t => t.hb.raw) (fun _ _ _ => rfl) (fun t i => ?_) fun t => ?_⟩
    all_goals first | rw [(t.removeFromDomains_frame i).1] | rw [(t.removeFromDomains_frame i).2.1] | simp
  have hheard : h'.hb.timeLastHb = h.hb.timeLastHb ∧ h'.sf.timeLastSf = h.sf.timeLastSf ∧
      ∀ j, h'.hb.raw j = h.hb.raw j ∨ h'.hb.raw j = (h.hb.raw j).maskUnconfig c.hostnum := by
    cases fhNext_move hn with
    | again | leave => exact hview
    | won | lost | notFenced => exact ⟨htest.1, htest.2.1, fun j => .inl (by rw [htest.2.2])⟩
    | set2 | commit | update | blockJoins | set1 => simp [Host.setSmPhase, Host.commitWeight]
    | _ => exact ⟨rfl, rfl, fun _ => .inl rfl⟩
  obtain ⟨htime, hsf, hraw⟩ := hheard
  exact otherThreads_eq htime (fhNext_control hn).2.hbSmPhase hsf hraw

/-! ## What the updates leave in the domains -/

/-- The record of the host counts as fresh. -/
def SfFresh (c : HaConfig) (now : MtcClock) (h : Host) (j : Nat) : Prop :=
  0 ≤ h.sf.timeLastSf j ∧ now - h.sf.timeLastSf j < timeoutMs c.statefileTimeout

/-- The heartbeat of the host counts as fresh. -/
def HbFresh (c : HaConfig) (now : MtcClock) (h : Host) (j : Nat) : Prop :=
  0 ≤ h.hb.timeLastHb j ∧ now - h.hb.timeLastHb j < timeoutMs c.heartbeatTimeout

/-- Both hosts are handling a fault, and the other one no longer has the local host in its domain. -/
def DroppedByPeer (c : HaConfig) (h : Host) (j : Nat) : Prop :=
  SmPhase.fhready.code ≤ (h.hb.smPhase j).code ∧ SmPhase.fhready.code ≤ h.sm.phase.code ∧
    (h.hb.raw j).hbdomain.isOn c.myIndex = false

theorem timeoutMs_le (seconds : Nat) : timeoutMs seconds ≤ seconds * 1000 := by
  unfold timeoutMs oneSec
  exact_mod_cast Nat.mod_le _ _

theorem timeoutMs_eq {seconds : Nat} (h : seconds * 1000 < 2 ^ 32) : timeoutMs seconds = seconds * 1000 := by
  unfold timeoutMs oneSec
  rw [Nat.mod_eq_of_lt h]
  exact_mod_cast rfl

/-- The record of a host in the domain is fresh, and the local host may write its own. -/
theorem updateSfdomain_fresh {c : HaConfig} {now : MtcClock} {h : Host} {j : Nat} (hj : j < c.hostnum)
    (hon : (updateSfdomain c now h).sfdomain.isOn j = true) :
    SfFresh c now h j ∧ (j = c.myIndex → h.sf.ctl.enableSfWrite = true) := by
  obtain ⟨hseen, hwrite⟩ := ComDataSf.updateSfdomain_seen hj hon
  exact ⟨ComDataSf.seenOnSf_iff.1 hseen, hwrite⟩

/-- Whoever is in the domain is the local host or has a fresh heartbeat. -/
theorem updateHbdomain_fresh {c : HaConfig} {now : MtcClock} {h : Host} {sequence : Nat → Nat} {j : Nat}
    (hj : j < c.hostnum) (hon : (updateHbdomain c now h sequence).hbdomain.isOn j = true) :
    j = c.myIndex ∨ HbFresh c now h j := by
  have hinv := forRange_inv (n := c.hostnum) (s := (⟨false, h.hb.hbdomain, sequence⟩ : HbUpdate))
    (f := updateHbHost c now h) (fun k s => ∀ j < k, s.hbdomain.isOn j = true → j = c.myIndex ∨ HbFresh c now h j)
    (fun j hj => absurd hj (Nat.not_lt_zero j)) fun k s _ hs => ?_
  · exact hinv j hj hon
  · have hrest : ∀ t : HbUpdate, (∀ i, i ≠ k → t.hbdomain.isOn i = s.hbdomain.isOn i) →
        (t.hbdomain.isOn k = true → k = c.myIndex ∨ HbFresh c now h k) →
        ∀ i < k + 1, t.hbdomain.isOn i = true → i = c.myIndex ∨ HbFresh c now h i := by
      intro t hother hself i hi hti
      by_cases hik : i = k
      · subst hik
        exact hself hti
      · exact hs i (by omega) (by rw [← hother i hik]; exact hti)
    unfold updateHbHost
    dsimp only
    split_ifs with hlocal hfresh
    · exact hrest _ (fun i hi => by simp [Ne.symm hi]) fun _ => .inl hlocal
    all_goals first
      | exact hrest _ (fun _ _ => rfl) fun _ => .inr hfresh
      | exact hrest _ (fun i hi => by simp [Ne.symm hi]) fun _ => .inr hfresh
      | exact hrest _ (fun _ _ => rfl) fun hk' => absurd hk' (by assumption)
      | exact hrest _ (fun i hi => by simp [Ne.symm hi]) fun hk' => by simp at hk'

theorem updateHbdomain_self (c : HaConfig) (now : MtcClock) (h : Host) (sequence : Nat → Nat) :
    (updateHbdomain c now h sequence).hbdomain.isOn c.myIndex = true := by
  have hme : c.myIndex < maxHostNum := lt_of_lt_of_le c.myIndex_lt c.hostnum_le
  have hinv := forRange_inv (n := c.hostnum) (s := (⟨false, h.hb.hbdomain, sequence⟩ : HbUpdate))
    (f := updateHbHost c now h) (fun k s => c.myIndex < k → s.hbdomain.isOn c.myIndex = true)
    (fun hlt => absurd hlt (Nat.not_lt_zero _)) fun k s _ hs hlt => ?_
  · exact hinv c.myIndex_lt
  · by_cases hk : k = c.myIndex
    · unfold updateHbHost
      rw [if_pos hk]
      simp [hk, hme]
    · have hold := hs (by omega)
      unfold updateHbHost
      dsimp only
      rw [if_neg hk]
      split_ifs <;> simp [hold, hk]

/-- A host leaves the domain for want of a fresh heartbeat, or because it has dropped the local host. -/
theorem updateHbdomain_removed {c : HaConfig} {now : MtcClock} {h : Host} {sequence : Nat → Nat} {j : Nat}
    (hon : h.hb.hbdomain.isOn j = true) (hoff : (updateHbdomain c now h sequence).hbdomain.isOn j = false) :
    ¬ HbFresh c now h j ∨ DroppedByPeer c h j := by
  have hinv := forRange_inv (n := c.hostnum) (s := (⟨false, h.hb.hbdomain, sequence⟩ : HbUpdate))
    (f := updateHbHost c now h) (fun _ s => s.hbdomain.isOn j = true ∨ ¬ HbFresh c now h j ∨ DroppedByPeer c h j)
    (.inl hon) fun k s _ hs => ?_
  · exact hinv.resolve_left (by rw [Bool.not_eq_true]; exact hoff)
  · rcases hs with hs | hs
    · unfold updateHbHost
      dsimp only
      by_cases hkj : k = j
      · subst hkj
        split_ifs with hlocal hfresh hphase
        · exact .inl (by simp [hs])
        · exact .inr (.inr hphase)
        · exact .inl hs
        · exact .inr (.inl hfresh)
      · left
        split_ifs <;> simp [hs, hkj]
    · exact .inr hs

/-! ## The evidence -/

/-- A read at time `t`, not the first, that found another sequence number than the one before. -/
def ChangeSeen (reads : List (MtcClock × MtcU32)) (t : MtcClock) : Prop :=
  ∃ later sequence t' sequence' earlier, reads = later ++ (t, sequence) :: (t', sequence') :: earlier ∧ sequence ≠ sequence'

theorem ChangeSeen.cons {reads : List (MtcClock × MtcU32)} {t : MtcClock} (h : ChangeSeen reads t) (r : MtcClock × MtcU32) :
    ChangeSeen (r :: reads) t := by
  obtain ⟨later, sequence, t', sequence', earlier, hreads, hne⟩ := h
  exact ⟨r :: later, sequence, t', sequence', earlier, by rw [hreads]; rfl, hne⟩

/-- `sfvar.hoststat[i]` against the history of the reads. -/
structure RecordSeen (reads : List (MtcClock × MtcU32)) (s : HostStat) : Prop where
  first : s.readonce = false → reads = []
  last : s.readonce = true → ∃ t earlier, reads = (t, s.sequence) :: earlier
  changed : 0 ≤ s.updateclock → ChangeSeen reads s.updateclock

theorem RecordSeen.read {reads : List (MtcClock × MtcU32)} {s : HostStat} (h : RecordSeen reads s) (now : MtcClock)
    (sequence : MtcU32) : RecordSeen ((now, sequence) :: reads) (s.read now sequence) := by
  unfold HostStat.read
  dsimp only
  split
  · -- the first read
    exact ⟨nofun, fun _ => ⟨now, reads, rfl⟩, fun ht => (h.changed ht).cons _⟩
  · rename_i honce
    rw [Bool.not_eq_false] at honce
    obtain ⟨t, earlier, hreads⟩ := h.last honce
    split
    · rename_i hne
      refine ⟨fun hf => absurd (honce.symm.trans hf) (by decide), fun _ => ⟨now, reads, rfl⟩, fun _ => ?_⟩
      exact ⟨[], sequence, t, s.sequence, earlier, by rw [hreads]; rfl, Ne.symm hne⟩
    · rename_i hsame
      rw [not_not] at hsame
      exact ⟨fun hf => absurd (honce.symm.trans hf) (by decide), fun _ => ⟨now, reads, by rw [hsame]⟩,
        fun ht => (h.changed ht).cons _⟩

/-- What is kept of the heartbeats of host `j` against the history of the heartbeats accepted. -/
structure HeartbeatSeen (me j : Nat) (clock : MtcClock) (heard : List (MtcClock × HbPacket)) (hb : ComDataHb) : Prop where
  never : heard = [] → hb.timeLastHb j < 0
  last : ∀ t pkt earlier, heard = (t, pkt) :: earlier → hb.timeLastHb j = t ∧ 0 ≤ t ∧ t ≤ clock ∧
    hb.smPhase j = pkt.smPhase ∧ (hb.raw j).hbdomain.isOn me = pkt.raw.hbdomain.isOn me
  past : ∀ p ∈ heard, p.1 ≤ hb.timeLastHb j

theorem HeartbeatSeen.late {me j : Nat} {clock : MtcClock} {heard : List (MtcClock × HbPacket)} {hb : ComDataHb}
    (h : HeartbeatSeen me j clock heard hb) : ∀ p ∈ heard, p.1 ≤ clock := by
  intro p hp
  cases heard with
  | nil => cases hp
  | cons q earlier =>
    obtain ⟨htime, -, hle, -⟩ := h.last q.1 q.2 earlier rfl
    exact ((h.past p hp).trans_eq htime).trans hle

theorem HeartbeatSeen.same {me j : Nat} {clock clock' : MtcClock} {heard : List (MtcClock × HbPacket)} {hb hb' : ComDataHb}
    (h : HeartbeatSeen me j clock heard hb) (hclock : clock ≤ clock') (htime : hb'.timeLastHb j = hb.timeLastHb j)
    (hphase : hb'.smPhase j = hb.smPhase j) (hraw : (hb'.raw j).hbdomain.isOn me = (hb.raw j).hbdomain.isOn me) :
    HeartbeatSeen me j clock' heard hb' := by
  refine ⟨fun hn => by rw [htime]; exact h.never hn, fun t pkt earlier hl => ?_,
    fun p hp => by rw [htime]; exact h.past p hp⟩
  obtain ⟨h1, h2, h3, h4, h5⟩ := h.last t pkt earlier hl
  exact ⟨htime.trans h1, h2, h3.trans hclock, hphase.trans h4, hraw.trans h5⟩

/-! ## What a step of the State-File thread does to the evidence -/

section

variable {c : HaConfig} {d d' : SfWorld}

/-- The times published come from `hoststat`, which only a read of the record moves on. -/
structure RecordStep (n : Nat) (d d' : SfWorld) (a : SfAction) : Prop where
  sm : d'.sm = d.sm
  hb : d'.hb = d.hb
  clock : d.clock ≤ d'.clock
  published : ∀ j, d'.sf.timeLastSf j = d.sf.timeLastSf j ∨ d'.sf.timeLastSf j = (d.sfvar.hoststat j).updateclock
  hoststat : ∀ j, d'.sfvar.hoststat j = if readsRecord n d a = some j
    then (d.sfvar.hoststat j).read d.clock (d.disk.host j).sequence else d.sfvar.hoststat j

theorem updateHosts_published (c : HaConfig) (d : SfWorld) (j : Nat) :
    let psf := forRange c.hostnum d.sf (updateHost c.myIndex d.stateFile d.sfvar.hoststat d.sm)
    psf.timeLastSf j = d.sf.timeLastSf j ∨ psf.timeLastSf j = (d.sfvar.hoststat j).updateclock := by
  refine forRange_inv (fun _ (psf : ComDataSf) => psf.timeLastSf j = d.sf.timeLastSf j ∨
    psf.timeLastSf j = (d.sfvar.hoststat j).updateclock) (.inl rfl) fun k psf _ hpsf => ?_
  simp only [updateHost]
  split
  · by_cases hkj : j = k
    · subst hkj
      exact .inr (Function.update_self ..)
    · rw [Function.update_of_ne hkj]
      exact hpsf
  · exact hpsf

theorem updatedObjects_published (c : HaConfig) (d : SfWorld) (j : Nat) :
    (updatedObjects c d).2.2.timeLastSf j = d.sf.timeLastSf j ∨
      (updatedObjects c d).2.2.timeLastSf j = (d.sfvar.hoststat j).updateclock := by
  have hpub := updateHosts_published c d j
  dsimp only at hpub
  unfold updatedObjects
  rw [(updateGlobal_frame d.stateFile _).2.2.2]
  exact hpub

theorem sfNext_records {a : SfAction} (hn : sfNext c d a = some d') (ha : a.isObjects = false) :
    RecordStep c.hostnum d d' a := by
  have hquiet : readsRecord c.hostnum d a = none → d'.sm = d.sm → d'.hb = d.hb → d.clock ≤ d'.clock →
      d'.sf.timeLastSf = d.sf.timeLastSf → d'.sfvar.hoststat = d.sfvar.hoststat → RecordStep c.hostnum d d' a :=
    fun hnone h1 h2 h3 h4 h5 => ⟨h1, h2, h3, fun j => .inl (by rw [h4]), fun j => by rw [hnone, h5]; rfl⟩
  cases sfNext_move hn with
  | beginWrite | beginRead | beginNothing | copied | written | unwritten | readFailed | globalWritten | globalUnwritten
  | peerHost | peerGlobal => exact hquiet rfl rfl rfl le_rfl rfl rfl
  | globalRead _ _ hpc => exact hquiet (by simp [readsRecord, hpc]) rfl rfl le_rfl rfl rfl
  | globalSkipped _ _ status hpc | globalUnread _ _ status hpc =>
    refine hquiet ?_ rfl rfl le_rfl rfl rfl
    cases status <;> simp [readsRecord, hpc]
  | hostSkipped _ _ _ status hpc _ hdone =>
    refine hquiet ?_ rfl rfl le_rfl rfl rfl
    cases status <;> simp [readsRecord, hpc, hdone]
  | hostRead attempt i io hpc hi hopen =>
    have hread : readsRecord c.hostnum d (.read .success) = some i := by simp [readsRecord, hpc, hi, hopen]
    refine ⟨rfl, rfl, le_rfl, fun j => .inl rfl, fun j => ?_⟩
    rw [hread]
    by_cases hji : j = i
    · subst hji
      simp [readHostspecific]
    · rw [if_neg fun he => hji (Option.some.inj he).symm]
      simp [readHostspecific, Function.update_of_ne hji]
  | hostUnread _ _ _ status _ _ _ hs =>
    refine hquiet ?_ rfl rfl le_rfl rfl rfl
    cases status <;> first | rfl | exact absurd rfl hs
  | lastAttempt _ _ _ status hpc hi | nextAttempt _ _ _ status hpc hi =>
    refine hquiet ?_ rfl rfl le_rfl rfl rfl
    cases status <;> simp [readsRecord, hpc, hi]
  | updated | updatedPending => exact ⟨rfl, rfl, le_rfl, updatedObjects_published c d, fun j => rfl⟩
  | tick ms => exact hquiet rfl rfl rfl (Int.le_add_of_nonneg_right (Int.natCast_nonneg ms)) rfl rfl
  | objects => cases ha

end

/-! ## The whole host -/

/-- What the host knows of the others is what it has observed. -/
structure DomainWorld.Evident (c : HaConfig) (w : DomainWorld) : Prop where
  clock : 0 ≤ w.daemon.clock
  record : ∀ j, RecordSeen (w.reads j) (w.daemon.sfvar.hoststat j)
  published : ∀ j, 0 ≤ w.daemon.sf.timeLastSf j → ChangeSeen (w.reads j) (w.daemon.sf.timeLastSf j)
  heartbeat : ∀ j, j ≠ c.myIndex → HeartbeatSeen c.myIndex j w.daemon.clock (w.heard j) w.daemon.hb

section

variable {c : HaConfig} {w w' : DomainWorld}

theorem DomainWorld.Evident.sfThread {a : SfAction} (h : w.Evident c) (hn : domainNext c w (.sfThread a) = some w') :
    w'.Evident c := by
  simp only [domainNext] at hn
  split at hn
  · cases hn
  · rename_i hobjects
    obtain ⟨d, hd, rfl⟩ := Option.map_eq_some_iff.1 hn
    obtain ⟨-, hhb, hclock, hpub, hstat⟩ := sfNext_records hd (by simpa using hobjects)
    have hreads : ∀ j, (match readsRecord c.hostnum w.daemon a with
        | some i => Function.update w.reads i ((w.daemon.clock, (w.daemon.disk.host i).sequence) :: w.reads i)
        | none => w.reads) j = if readsRecord c.hostnum w.daemon a = some j
          then (w.daemon.clock, (w.daemon.disk.host j).sequence) :: w.reads j else w.reads j := by
      intro j
      cases readsRecord c.hostnum w.daemon a with
      | none => rfl
      | some i =>
        by_cases hij : i = j
        · subst hij
          simp
        · simp [hij, Function.update_of_ne (Ne.symm hij)]
    refine ⟨h.clock.trans hclock, fun j => ?_, fun j ht => ?_, fun j hj => ?_⟩
    · dsimp only
      rw [hreads j, hstat j]
      split
      · exact (h.record j).read _ _
      · exact h.record j
    · dsimp only at ht ⊢
      have hold : ChangeSeen (w.reads j) (d.sf.timeLastSf j) := by
        rcases hpub j with hp | hp <;> rw [hp] at ht ⊢
        · exact h.published j ht
        · exact (h.record j).changed ht
      rw [hreads j]
      split
      · exact hold.cons _
      · exact hold
    · exact (h.heartbeat j hj).same hclock (by rw [hhb]) (by rw [hhb]) (by rw [hhb])

theorem DomainWorld.Evident.receiveHb {pkt : HbPacket} (h : w.Evident c) (hn : w.receiveHb c.myIndex pkt = some w') :
    w'.Evident c := by
  unfold DomainWorld.receiveHb at hn
  dsimp only at hn
  split at hn
  · cases hn; exact h
  · split at hn
    · split at hn
      · cases hn
        exact ⟨h.clock, h.record, h.published, h.heartbeat⟩
      · split at hn
        · cases hn
        · -- the packet is accepted
          cases hn
          refine ⟨h.clock, h.record, ?_, fun j hj => ?_⟩
          · dsimp only [DomainWorld.setHost]
            rw [Host.updateHbData_sf]
            exact h.published
          · dsimp only [DomainWorld.setHost]
            rw [Host.updateHbData_hb]
            by_cases hjp : j = pkt.hostIndex
            · subst hjp
              refine ⟨fun hnil => ?_, fun t pkt' earlier hl => ?_, fun p hp => ?_⟩
              · rw [Function.update_self] at hnil
                cases hnil
              · rw [Function.update_self] at hl
                cases hl
                dsimp only [DomainWorld.host]
                rw [Function.update_self, Function.update_self, Function.update_self]
                exact ⟨rfl, h.clock, le_rfl, rfl, rfl⟩
              · dsimp only [DomainWorld.host]
                rw [Function.update_self] at hp ⊢
                rcases List.mem_cons.1 hp with rfl | hp
                · exact le_rfl
                · exact (h.heartbeat _ hj).late p hp
            · rw [Function.update_of_ne hjp]
              refine (h.heartbeat j hj).same le_rfl ?_ ?_ ?_
              · exact Function.update_of_ne hjp ..
              · exact Function.update_of_ne hjp ..
              · dsimp only [DomainWorld.host]
                rw [Function.update_of_ne hjp]
    · cases hn; exact h

theorem DomainWorld.Evident.next {a : DomainAction} (h : w.Evident c) (hn : domainNext c w a = some w') : w'.Evident c := by
  cases a with
  | sfThread a => exact h.sfThread hn
  | stateFile disk => cases hn; exact ⟨h.clock, h.record, h.published, h.heartbeat⟩
  | updateSfdomain => cases hn; exact ⟨h.clock, h.record, h.published, h.heartbeat⟩
  | updateHbdomain =>
    cases hn
    exact ⟨h.clock, h.record, h.published, fun j hj => (h.heartbeat j hj).same le_rfl rfl rfl rfl⟩
  | receiveHb pkt =>
    simp only [domainNext] at hn
    split at hn
    · exact h.receiveHb hn
    · cases hn
  | others mask t =>
    cases hn
    refine ⟨h.clock, h.record, h.published, fun j hj => (h.heartbeat j hj).same le_rfl ?_ ?_ ?_⟩
    · exact if_neg hj
    · exact if_neg hj
    · dsimp only [DomainWorld.setHost, otherThreads]
      rw [if_neg hj]
      split
      · -- the local host is configured, so the mask keeps it
        simp [RawData.maskUnconfig, c.myIndex_lt, DomainWorld.host]
      · rfl

theorem DomainWorld.evident (h : (domainMachine c).Reachable w) : w.Evident c := by
  refine h.inv (I := DomainWorld.Evident c) ?_ fun s t a hs _ hn => hs.next hn
  rintro s ⟨⟨clock, disk, buffer, sequence, hclock, hd⟩, hnil⟩
  refine ⟨by rw [hd]; exact hclock, fun j => ?_, fun j ht => ?_,
    fun j _ => ⟨fun _ => by rw [hd]; exact neg_one_lt_zero, ?_, ?_⟩⟩
  · rw [hd]
    exact ⟨fun _ => (hnil j).2, nofun, fun ht => absurd ht (not_le.2 neg_one_lt_zero)⟩
  · rw [hd] at ht
    exact absurd ht (not_le.2 neg_one_lt_zero)
  · intro t pkt earlier hl
    rw [(hnil j).1] at hl
    cases hl
  · intro p hp
    rw [(hnil j).1] at hp
    cases hp

end

/-- Domain membership is justified: a host in `sfdomain` has had its record seen to change within T2, and a
local host there may write; a host in `hbdomain` is the local one, which is always there, or has had a heartbeat
accepted within T1; and a host leaves `hbdomain` for want of one, or in the fault handler once its last heartbeat
no longer lists the local host. -/
theorem membership_is_justified {c : HaConfig} {w w' : DomainWorld} (h : (domainMachine c).Reachable w) :
    (domainNext c w .updateSfdomain = some w' → ∀ j < c.hostnum, w'.daemon.sf.sfdomain.isOn j = true →
      (∃ t, ChangeSeen (w.reads j) t ∧ w.daemon.clock - c.statefileTimeout * 1000 < t) ∧
      (j = c.myIndex → w'.daemon.sf.ctl.enableSfWrite = true)) ∧
    (domainNext c w .updateHbdomain = some w' → w'.daemon.hb.hbdomain.isOn c.myIndex = true ∧
      ∀ j < c.hostnum, j ≠ c.myIndex → w'.daemon.hb.hbdomain.isOn j = true →
        ∃ t pkt, (t, pkt) ∈ w.heard j ∧ w.daemon.clock - c.heartbeatTimeout * 1000 < t) ∧
    (domainNext c w .updateHbdomain = some w' → c.heartbeatTimeout * 1000 < 2 ^ 32 →
      ∀ j, w.daemon.hb.hbdomain.isOn j = true → w'.daemon.hb.hbdomain.isOn j = false →
        (∀ t pkt, (t, pkt) ∈ w.heard j → t ≤ w.daemon.clock - c.heartbeatTimeout * 1000) ∨
        ∃ t pkt earlier, w.heard j = (t, pkt) :: earlier ∧ SmPhase.fhready.code ≤ pkt.smPhase.code ∧
          SmPhase.fhready.code ≤ w.daemon.sm.phase.code ∧ pkt.raw.hbdomain.isOn c.myIndex = false) := by
  have hev := DomainWorld.evident h
  refine ⟨fun hn j hj hon => ?_, fun hn => ⟨?_, fun j hj hme hon => ?_⟩, fun hn hT j hon hoff => ?_⟩
  · cases hn
    obtain ⟨⟨hpos, hlt⟩, hwrite⟩ := updateSfdomain_fresh (c := c) (h := w.host) hj hon
    exact ⟨⟨_, hev.published j hpos, sub_lt_comm.1 (hlt.trans_le (timeoutMs_le _))⟩, hwrite⟩
  · cases hn
    exact updateHbdomain_self c _ _ _
  · cases hn
    obtain ⟨hpos, hlt⟩ := (updateHbdomain_fresh (c := c) (h := w.host) hj hon).resolve_left hme
    dsimp only [DomainWorld.host] at hpos hlt
    cases hheard : w.heard j with
    | nil => exact absurd hpos (not_le.2 ((hev.heartbeat j hme).never hheard))
    | cons p earlier =>
      obtain ⟨t, pkt⟩ := p
      have htime := ((hev.heartbeat j hme).last t pkt earlier hheard).1
      rw [htime] at hlt
      exact ⟨t, pkt, List.mem_cons_self, sub_lt_comm.1 (hlt.trans_le (timeoutMs_le _))⟩
  · cases hn
    have hme : j ≠ c.myIndex := by
      rintro rfl
      rw [updateHbdomain_self] at hoff
      cases hoff
    cases hheard : w.heard j with
    | nil => exact .inl fun t pkt hmem => by cases hmem
    | cons p earlier =>
      obtain ⟨t, pkt⟩ := p
      obtain ⟨htime, hpos, -, hphase, hraw⟩ := (hev.heartbeat j hme).last t pkt earlier hheard
      rcases updateHbdomain_removed (c := c) (h := w.host) hon hoff with hstale | ⟨h1, h2, h3⟩
      · -- no later heartbeat than the last one
        refine .inl fun t' pkt' hmem => ?_
        have hpast := (hev.heartbeat j hme).past (t', pkt') (by rw [hheard]; exact hmem)
        unfold HbFresh at hstale
        rw [timeoutMs_eq hT] at hstale
        refine hpast.trans (le_sub_comm.1 (not_lt.1 fun hlt => hstale ⟨?_, hlt⟩))
        exact hpos.trans_eq htime.symm
      · exact .inr ⟨t, pkt, earlier, rfl, by rw [← hphase]; exact h1, h2, by rw [← hraw]; exact h3⟩

/-! ## A pair of hosts -/

def watchedPair : HaConfig := .pair

def watchedWorld : DomainWorld where
  daemon := SfWorld.initial 0 0 activeDisk activeDisk 0
  smvar := .initial 0
  hbSequence _ := 0
  heard _ := []
  reads _ := []

theorem watchedWorld_init : (domainMachine watchedPair).init watchedWorld :=
  ⟨⟨0, activeDisk, activeDisk, 0, le_rfl, rfl⟩, fun _ => ⟨rfl, rfl⟩⟩

/-- The host once it may receive heartbeats and read the State-File. -/
def watchingHost : Host :=
  { Host.initial 0 with
    hb := { ComDataHb.initial with ctl := ⟨true, true, false, false⟩ }
    sf := { ComDataSf.initial 0 with ctl := ⟨false, true, false⟩ } }

/-- The other host's first heartbeat. -/
def watchedHeartbeat : HbPacket where
  hostIndex := 1
  sequence := 1
  raw := .initial
  joining := false
  smPhase := .starting
  sr2 := false
  sfAccess := true
  sfCorrupted := false
  fenceRequest := false

/-- A cycle of the State-File thread that reads everything. -/
def watchReads : List DomainAction :=
  [.sfThread .begin, .sfThread (.read .success), .sfThread (.read .success), .sfThread (.read .success),
    .sfThread (.read .success), .sfThread .update]

/-- Two cycles, between which the other host writes its record, and its heartbeat. -/
def watchSteps : List DomainAction :=
  [.others (fun _ => false) watchingHost] ++ watchReads ++
    [.stateFile (activeDisk.setHost 1 { activeDisk.host 1 with sequence := 1 })] ++ watchReads ++
    [.receiveHb watchedHeartbeat, .updateHbdomain]

/-- The other host comes in on its record and its heartbeat, and goes out when no other heartbeat has come. -/
theorem membership_is_justified_pair :
    (∃ w : DomainWorld, (∃ t, ChangeSeen (w.reads 1) t ∧ w.daemon.clock - 60000 < t) ∧
      ∃ t pkt, (t, pkt) ∈ w.heard 1 ∧ w.daemon.clock - 60000 < t) ∧
    ∃ w : DomainWorld, ∀ t pkt, (t, pkt) ∈ w.heard 1 → t ≤ w.daemon.clock - 60000 := by
  constructor
  · have hrun : ∃ w, (domainMachine watchedPair).Reachable w ∧
        (((domainNext watchedPair w .updateSfdomain).any fun v => v.daemon.sf.sfdomain.isOn 1) &&
          (domainNext watchedPair w .updateHbdomain).any fun v => v.daemon.hb.hbdomain.isOn 1) = true :=
      Machine.reach_of_check watchedWorld_init watchSteps _ (by decide +kernel)
    obtain ⟨w, hw, hp⟩ := hrun
    rw [Bool.and_eq_true] at hp
    obtain ⟨v, hv, hon⟩ := (Option.any_eq_true _ _).1 hp.1
    obtain ⟨v', hv', hon'⟩ := (Option.any_eq_true _ _).1 hp.2
    obtain ⟨hchange, -⟩ := (membership_is_justified hw).1 hv 1 (by decide) hon
    obtain ⟨-, hheard⟩ := (membership_is_justified hw).2.1 hv'
    exact ⟨w, hchange, hheard 1 (by decide) (by decide) hon'⟩
  · have hrun : ∃ w, (domainMachine watchedPair).Reachable w ∧ (w.daemon.hb.hbdomain.isOn 1 &&
        (decide (w.daemon.sm.phase = .starting) &&
          (domainNext watchedPair w .updateHbdomain).any fun v => v.daemon.hb.hbdomain.isOn 1 = false)) = true :=
      Machine.reach_of_check watchedWorld_init (watchSteps ++ [.sfThread (.tick 60000)]) _ (by decide +kernel)
    obtain ⟨w, hw, hp⟩ := hrun
    simp only [Bool.and_eq_true, decide_eq_true_eq] at hp
    obtain ⟨hon, hphase, hoff⟩ := hp
    obtain ⟨v, hv, hoff⟩ := (Option.any_eq_true _ _).1 hoff
    refine ⟨w, ((membership_is_justified hw).2.2 hv (by decide) 1 hon (by simpa using hoff)).resolve_right ?_⟩
    rintro ⟨-, -, -, -, -, hme, -⟩
    rw [hphase] at hme
    exact absurd hme (by decide)

end Xha
