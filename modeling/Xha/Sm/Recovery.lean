/-
Survival Rule-2 (sm.c, heartbeat.c): the survival test grants it, heartbeats and joins hand it on, and
`surviving_by_SR2` ends it. A heartbeat that is late can bring it back, and without a new grant nothing else does
(`sr2_stays_off_iff`): while it is off, a step leaves it off exactly if it accepts no such heartbeat, and every
heartbeat with it is one from before (`sr2Next_off`).
-/
import Xha.Sm.Degradation
import Xha.Sm.Join
import Xha.Sm.Rendezvous

namespace Xha

open Loop Transition

/-! ## The end of Survival Rule-2 -/

/-- The test of `surviving_by_SR2`: the host and whoever it hears has the State-File, and who it does not
hear is excluded. -/
def recovered (c : HaConfig) (phb : ComDataHb) (psf : ComDataSf) : Bool :=
  (List.range c.hostnum).all fun index =>
    if index = c.myIndex then psf.sfAccess
    else if phb.hbdomain.isOn index then (phb.raw index).sfdomain.isOn index
    else psf.excluded.isOn index

/-- The last section of `surviving_by_SR2`. -/
def Host.leaveSr2 (h : Host) : Host :=
  { h with sm := { h.sm with sr2 := false }, smvar := { h.smvar with sr2 := false } : Host }.smWriterUnlock

/-! ## The pool -/

/-- The hosts, what the recovery test of each worker has found, and every heartbeat sent: it may arrive
late, more than once, or never. -/
structure Sr2Pool where
  host : Nat → FhWorld
  leaving : Nat → Bool
  packets : List HbPacket

/-- The steps of a host's threads; `receive` is apart, since a heartbeat comes from another host. -/
inductive Sr2Action
  | inner (i : Nat) (a : FhAction)
  | send (i : Nat)
  | receive (i : Nat) (now : MtcClock) (pkt : HbPacket)
  | disarm (i : Nat)
  | requestJoin (i : Nat)
  | concludeJoin (i : Nat) (joined : Bool)
  | processJoinRequest (i : Nat)
  | testRecovery (i : Nat)
  | leave (i : Nat)

/-- The host that takes the step. -/
def Sr2Action.actor : Sr2Action → Nat
  | .inner i _ | .send i | .receive i _ _ | .disarm i | .requestJoin i | .concludeJoin i _ | .processJoinRequest i
  | .testRecovery i | .leave i => i

/-- The step is taken on a heartbeat. -/
def FhAction.isReceive : FhAction → Bool
  | .receiveHb _ _ => true
  | _ => false

/-- Host `i` after a step. -/
def Sr2Pool.set (w : Sr2Pool) (i : Nat) (s : FhWorld) : Sr2Pool := { w with host := Function.update w.host i s }

/-- Host `i` after a step on its objects. -/
def Sr2Pool.setHost (w : Sr2Pool) (i : Nat) (h : Host) : Sr2Pool := w.set i { w.host i with host := h }

/-- The steps of host `i`; `c` is its configuration. -/
def sr2Act (c : HaConfig) (w : Sr2Pool) : Sr2Action → Option Sr2Pool
  | .inner i a => if a.isReceive then none else (fhAct c (w.host i) a).map (w.set i)
  | .send i =>
    (fhAct c (w.host i) .sendHb).map fun s =>
      { w.set i s with packets := hbPacket i (s.hbSequence i) (w.host i).host :: w.packets }
  | .receive i now pkt =>
    if pkt ∈ w.packets then (fhAct c (w.host i) (.receiveHb now pkt)).map (w.set i) else none
  | .disarm i => some (w.setHost i (w.host i).host.disarm)
  | .requestJoin i => some (w.setHost i ((w.host i).host.requestJoin i))
  | .concludeJoin i joined => some (w.setHost i ((w.host i).host.concludeJoin i joined))
  | .processJoinRequest i => some (w.setHost i (processJoinRequest c (w.host i).host))
  | .testRecovery i =>
    some { w with leaving := Function.update w.leaving i (recovered c (w.host i).host.hb (w.host i).host.sf) }
  | .leave i =>
    if w.leaving i then
      some { w.setHost i (w.host i).host.leaveSr2 with leaving := Function.update w.leaving i false }
    else none

/-- The configured hosts take steps. -/
def sr2Next (c : HaConfig) (w : Sr2Pool) (a : Sr2Action) : Option Sr2Pool :=
  if h : a.actor < c.hostnum then sr2Act (c.at a.actor h) w a else none

/-! ## The flag -/

/-- Neither the object nor `smvar` says Survival Rule-2. -/
def Host.Sr2Off (h : Host) : Prop := h.sm.sr2 = false ∧ h.smvar.sr2 = false

instance (h : Host) : Decidable h.Sr2Off := inferInstanceAs (Decidable (_ ∧ _))

/-- SR2 is FALSE at every host. -/
def Sr2Pool.Off (c : HaConfig) (w : Sr2Pool) : Prop := ∀ i < c.hostnum, (w.host i).host.Sr2Off

instance (c : HaConfig) (w : Sr2Pool) : Decidable (w.Off c) := by
  unfold Sr2Pool.Off
  infer_instance

/-- The pool starts without Survival Rule-2, and no heartbeat is on its way. -/
def sr2Machine (c : HaConfig) : Machine Sr2Pool Sr2Action where
  init w := w.Off c ∧ w.packets = []
  next := sr2Next c

/-- The survival test of the host is the next step of its sm thread, and grants survival by the second rule. -/
def GrantsSr2 (c : HaConfig) (w : FhWorld) : FhAction → Prop
  | .fh _ => w.pc = .body .fh3 ∧ wonByRule1 c w.host = false ∧ wonByRule2 c w.host = true
  | _ => False

instance (c : HaConfig) (w : FhWorld) (a : FhAction) : Decidable (GrantsSr2 c w a) :=
  match a with
  | .fh _ => inferInstanceAs (Decidable (_ ∧ _))
  | .updateHbdomain _ | .hbStartFh | .updateSfdomain _ | .sfStartFh | .receiveHb .. | .sendHb | .readRow .. | .writeRow
  | .objects .. => inferInstanceAs (Decidable False)

/-- The step is a survival test that grants survival by the second rule. -/
def Grants (c : HaConfig) (w : Sr2Pool) (a : Sr2Action) : Prop :=
  match a with
  | .inner i b => ∃ h : i < c.hostnum, GrantsSr2 (c.at i h) (w.host i) b
  | _ => False

/-- The step is the acceptance of a heartbeat with SR2 that was sent by the time of `s`. -/
def AcceptsSr2Of (s w : Sr2Pool) (a : Sr2Action) : Prop :=
  match a with
  | .receive i _ pkt => pkt ∈ s.packets ∧ pkt.sr2 = true ∧ pkt.taken (w.host i) = true
  | _ => False

/-! ## What a step does to the flag of a host -/

/-- Releasing the lock of the SM object copies its flag. -/
theorem Host.sr2Off_smWriterUnlock {h : Host} (hs : h.sm.sr2 = false) : h.smWriterUnlock.Sr2Off := by
  refine ⟨?_, h.smWriterUnlock_sr2.trans hs⟩
  rcases h.smWriterUnlock_sm with he | he <;> rw [he] <;> exact hs

theorem testSurvivalRule_sr2Off {c : HaConfig} {h : Host} (hs : h.Sr2Off)
    (hg : ¬ (wonByRule1 c h = false ∧ wonByRule2 c h = true)) : (testSurvivalRule c h).2.Sr2Off := by
  have hflag : (testSurvivalRule c h).2.smvar.sr2 = false := by
    rw [testSurvivalRule_sr2, hs.1]
    cases h1 : wonByRule1 c h <;> cases h2 : wonByRule2 c h <;> simp_all
  -- the test ends with the release of the lock
  obtain ⟨t, ht⟩ : ∃ t : Host, (testSurvivalRule c h).2 = t.smWriterUnlock := ⟨_, rfl⟩
  rw [ht] at hflag ⊢
  rw [Host.smWriterUnlock_sr2] at hflag
  exact Host.sr2Off_smWriterUnlock hflag

/-- The sm thread raises the flag only by a grant. -/
theorem FhMove.sr2Off {c : HaConfig} {timeout : Bool} {h h' : Host} {pc pc' : FhPc} (hm : FhMove c timeout h pc h' pc')
    (hs : h.Sr2Off) (hg : ¬ (pc = .body .fh3 ∧ wonByRule1 c h = false ∧ wonByRule2 c h = true)) : h'.Sr2Off := by
  cases hm with
  | set2 | commit | update | blockJoins | set1 => exact Host.sr2Off_smWriterUnlock hs.1
  | won | lost | notFenced => exact testSurvivalRule_sr2Off hs fun hc => hg ⟨rfl, hc⟩
  | _ => exact hs

theorem fhAct_sr2Off {c : HaConfig} {w w' : FhWorld} {a : FhAction} (hs : w.host.Sr2Off) (hrecv : a.isReceive = false)
    (hg : ¬ GrantsSr2 c w a) (hn : fhAct c w a = some w') : w'.host.Sr2Off := by
  cases fhAct_step hn with
  | fh hm => exact hm.sr2Off hs hg
  | receiveOld | receiveStarting | receive => cases hrecv
  | _ => exact hs

/-- A heartbeat raises the flag exactly when it is accepted and carries it. -/
theorem receiveHb_sr2Off_iff {c : HaConfig} {w w' : FhWorld} {now : MtcClock} {pkt : HbPacket} (hs : w.host.Sr2Off)
    (hn : fhAct c w (.receiveHb now pkt) = some w') :
    w'.host.Sr2Off ↔ ¬ (pkt.sr2 = true ∧ pkt.taken w = true) := by
  cases fhAct_step hn with
  | receiveOld _ _ _ htaken | receiveStarting _ _ _ _ htaken =>
    rw [htaken]
    exact iff_of_true hs fun hc => by cases hc.2
  | receive _ _ _ _ htaken =>
    rw [htaken]
    refine ⟨fun hoff hc => ?_, fun hc => Host.sr2Off_smWriterUnlock ?_⟩
    · have hflag := hoff.2
      rw [Host.updateHbData, Host.smWriterUnlock_sr2] at hflag
      simp [hc.1] at hflag
    · cases hsr2 : pkt.sr2
      · simp [hs.1]
      · exact absurd ⟨hsr2, rfl⟩ hc

/-! ## What a step does to the flags of the pool -/

/-- Every heartbeat of `w` with SR2 was sent by the time of `s`. -/
def SentBy (s w : Sr2Pool) : Prop := ∀ p ∈ w.packets, p.sr2 = true → p ∈ s.packets

section

variable {c : HaConfig} {s w w' : Sr2Pool}

/-- A step of host `i` leaves the flags of the others. -/
theorem Sr2Pool.Off.set_iff (h : w.Off c) {i : Nat} (hi : i < c.hostnum) (t : FhWorld) :
    (w.set i t).Off c ↔ t.host.Sr2Off := by
  constructor
  · intro hoff
    simpa [Sr2Pool.set] using hoff i hi
  · intro ht j hj
    by_cases hji : j = i
    · subst hji
      simpa [Sr2Pool.set] using ht
    · simpa [Sr2Pool.set, Function.update_of_ne hji] using h j hj

/-- A step that keeps the flag of its host off. -/
theorem Sr2Pool.Off.set (h : w.Off c) {i : Nat} (hi : i < c.hostnum) {t : FhWorld} (ht : t.host.Sr2Off) :
    (w.set i t).Off c := (h.set_iff hi t).2 ht

/-- While the flag is FALSE everywhere, heartbeats are sent without it; and without a grant it is raised exactly
by the acceptance of an old heartbeat that has it. -/
theorem sr2Next_off {a : Sr2Action} (hoff : w.Off c) (hsent : SentBy s w) (hg : ¬ Grants c w a)
    (hn : sr2Next c w a = some w') : SentBy s w' ∧ (w'.Off c ↔ ¬ AcceptsSr2Of s w a) := by
  unfold sr2Next at hn
  split at hn
  rotate_left
  · cases hn
  rename_i hi
  cases a with
  | inner i a =>
    simp only [sr2Act] at hn
    split at hn
    · cases hn
    · rename_i hrecv
      obtain ⟨t, hact, rfl⟩ := Option.map_eq_some_iff.1 hn
      have ht := fhAct_sr2Off (hoff i hi) (by simpa using hrecv) (fun hc => hg ⟨hi, hc⟩) hact
      exact ⟨hsent, iff_of_true (hoff.set hi ht) id⟩
  | send i =>
    simp only [sr2Act] at hn
    obtain ⟨t, hact, rfl⟩ := Option.map_eq_some_iff.1 hn
    have ht : t.host.Sr2Off := fhAct_sr2Off (hoff i hi) rfl id hact
    refine ⟨fun p hp hsr2 => ?_, iff_of_true (hoff.set hi ht) id⟩
    rcases List.mem_cons.1 hp with rfl | hp
    · rw [show (hbPacket i (t.hbSequence i) (w.host i).host).sr2 = (w.host i).host.sm.sr2 from rfl,
        (hoff i hi).1] at hsr2
      cases hsr2
    · exact hsent p hp hsr2
  | receive i now pkt =>
    simp only [sr2Act] at hn
    split at hn
    · rename_i hmem
      obtain ⟨t, hact, rfl⟩ := Option.map_eq_some_iff.1 hn
      refine ⟨hsent, (hoff.set_iff hi t).trans ((receiveHb_sr2Off_iff (hoff i hi) hact).trans (not_congr ?_))⟩
      exact ⟨fun hc => ⟨hsent pkt hmem hc.1, hc⟩, fun hc => hc.2⟩
    · cases hn
  | disarm i =>
    cases hn
    exact ⟨hsent, iff_of_true (hoff.set hi (Host.sr2Off_smWriterUnlock (hoff i hi).1)) id⟩
  | requestJoin i =>
    cases hn
    exact ⟨hsent, iff_of_true (hoff.set hi (Host.sr2Off_smWriterUnlock (hoff i hi).1)) id⟩
  | concludeJoin i joined =>
    cases hn
    refine ⟨hsent, iff_of_true (hoff.set hi ?_) id⟩
    unfold Host.concludeJoin
    dsimp only
    split <;> exact Host.sr2Off_smWriterUnlock (hoff i hi).1
  | processJoinRequest i =>
    cases hn
    exact ⟨hsent, iff_of_true (hoff.set hi (Host.sr2Off_smWriterUnlock (hoff i hi).1)) id⟩
  | testRecovery i =>
    cases hn
    exact ⟨hsent, iff_of_true hoff id⟩
  | leave i =>
    simp only [sr2Act] at hn
    split at hn
    · cases hn
      have ht : (w.host i).host.leaveSr2.Sr2Off := Host.sr2Off_smWriterUnlock rfl
      exact ⟨hsent, iff_of_true (hoff.set hi ht) id⟩
    · cases hn

end

/-! ## Survival Rule-2 over runs -/

/-- When Survival Rule-2 comes back: in a run without a grant, from a state with SR2 FALSE at every host, SR2 stays
FALSE everywhere if and only if the run accepts none of the heartbeats with SR2 that were sent before. -/
theorem sr2_stays_off_iff {c : HaConfig} {s t : Sr2Pool} {steps : List (Sr2Pool × Sr2Action)} (hoff : s.Off c)
    (hrun : (sr2Machine c).Trace s steps t) (hgrant : ∀ step ∈ steps, ¬ Grants c step.1 step.2) :
    (∀ step ∈ steps, step.1.Off c) ∧ t.Off c ↔ ∀ step ∈ steps, ¬ AcceptsSr2Of s step.1 step.2 := by
  constructor
  · intro hstays
    -- along the run every heartbeat with SR2 is an old one
    have hkept := hrun.inv (fun w a => w.Off c ∧ ¬ Grants c w a) (fun w => SentBy s w)
      (fun w w' a hsent hok hn => (sr2Next_off hok.1 hsent hok.2 hn).1)
      (fun step hstep => ⟨hstays.1 step hstep, hgrant step hstep⟩) fun p hp _ => hp
    intro step hstep
    obtain ⟨u, hn, hu⟩ := hrun.next hstays step hstep
    exact (sr2Next_off (hstays.1 step hstep) (hkept.1 step hstep) (hgrant step hstep) hn).2.1 hu
  · intro hnone
    have hkept := hrun.inv (fun w a => ¬ Grants c w a ∧ ¬ AcceptsSr2Of s w a)
      (fun w => SentBy s w ∧ w.Off c)
      (fun w w' a hw hok hn => by
        obtain ⟨hsent, hiff⟩ := sr2Next_off hw.2 hw.1 hok.1 hn
        exact ⟨hsent, hiff.2 hok.2⟩)
      (fun step hstep => ⟨hgrant step hstep, hnone step hstep⟩) ⟨fun p hp _ => hp, hoff⟩
    exact ⟨fun step hstep => (hkept.1 step hstep).2, hkept.2.2⟩

/-! ## A late heartbeat -/

/-- Host 0 alone is in the liveset, host 1 is excluded. -/
def soleHost : FhWorld :=
  { quietHost with host := { quietHost.host with
      sm := { quietHost.host.sm with currentLiveset := 1, proposedLiveset := 1 }
      hb := { quietHost.host.hb with hbdomain := 1 }
      sf := { quietHost.host.sf with sfdomain := 1, excluded := 2, timeLastSf := fun _ => 0 }
      smvar := { quietHost.host.smvar with lastHbdomain := 1, lastSfdomain := 1 } } }

/-- The daemon of host 1 has just started. -/
def solePool : Sr2Pool where
  host i := if i = 0 then soleHost else ⟨.initial i, .body .started, .idle, .idle, fun _ => 0⟩
  leaving _ := false
  packets := []

theorem solePool_init : (sr2Machine quietConfig).init solePool := ⟨by decide +kernel, rfl⟩

/-- Host 0 loses the State-File and starts its fault handler. -/
def losesStateFile : List Sr2Action := [.inner 0 (.updateSfdomain lateClock), .inner 0 .sfStartFh]

/-- A step of the sm thread of host 0, which shows its phase to itself. -/
def soleStep : List Sr2Action := [.send 0, .inner 0 .writeRow, .inner 0 (.fh false)]

/-- Host 0 has the State-File again, and leaves Survival Rule-2. -/
def recovers : List (Sr2Pool → Sr2Action) :=
  [fun w => .inner 0 (.objects (w.host 0).host.sm (w.host 0).host.hb { (w.host 0).host.sf with sfAccess := true }),
    fun _ => .testRecovery 0, fun _ => .leave 0]

/-- Host 0 survives by Survival Rule-2, sends a heartbeat that does not arrive yet, and leaves it. -/
def survivesAndRecovers : List (Sr2Pool → Sr2Action) :=
  (losesStateFile ++ (List.replicate 17 soleStep).flatten ++ [Sr2Action.send 0]).map (fun a _ => a) ++ recovers

/-- Host 1 receives the last heartbeat. -/
def lastHeartbeat (w : Sr2Pool) : Sr2Action :=
  .receive 1 0 (w.packets.headD (hbPacket 0 0 (Host.initial 0)))

/-- Host 0 has survived by Survival Rule-2 and left it; its last heartbeat makes host 1 survive by it. -/
theorem sr2_comes_back :
    ∃ s t : Sr2Pool, ∃ a, (sr2Machine quietConfig).Reachable s ∧ s.Off quietConfig ∧
      (sr2Machine quietConfig).Trace s [(s, a)] t ∧ ¬ Grants quietConfig s a ∧ ¬ t.Off quietConfig := by
  have hrun : ∃ s, (sr2Machine quietConfig).Reachable s ∧
      (decide (s.Off quietConfig) && (sr2Next quietConfig s (lastHeartbeat s)).any fun t => !decide (t.Off quietConfig)) = true :=
    Machine.reach_of_played solePool_init survivesAndRecovers _ (by decide +kernel)
  obtain ⟨s, hs, hp⟩ := hrun
  simp only [Bool.and_eq_true, decide_eq_true_eq] at hp
  obtain ⟨hoff, hany⟩ := hp
  obtain ⟨t, ht, hton⟩ := (Option.any_eq_true _ _).1 hany
  refine ⟨s, t, lastHeartbeat s, hs, hoff, .cons ht .nil, id, ?_⟩
  simpa using hton

/-! ## A heartbeat that is late for good -/

instance (c : HaConfig) (w : Sr2Pool) (a : Sr2Action) : Decidable (Grants c w a) :=
  match a with
  | .inner i b => inferInstanceAs (Decidable (∃ h : i < c.hostnum, GrantsSr2 (c.at i h) (w.host i) b))
  | .send _ | .receive .. | .disarm _ | .requestJoin _ | .concludeJoin .. | .processJoinRequest _ | .testRecovery _
  | .leave _ => inferInstanceAs (Decidable False)

instance (s w : Sr2Pool) (a : Sr2Action) : Decidable (AcceptsSr2Of s w a) :=
  match a with
  | .receive i _ pkt => inferInstanceAs (Decidable (pkt ∈ s.packets ∧ pkt.sr2 = true ∧ pkt.taken (w.host i) = true))
  | .inner .. | .send _ | .disarm _ | .requestJoin _ | .concludeJoin .. | .processJoinRequest _ | .testRecovery _
  | .leave _ => inferInstanceAs (Decidable False)

/-- Host 1 receives the oldest heartbeat with SR2. -/
def firstSr2Heartbeat (w : Sr2Pool) : Sr2Action :=
  .receive 1 0 ((w.packets.reverse.find? fun p => p.sr2).getD (hbPacket 0 0 (Host.initial 0)))

/-- Host 0 sees its State-File record of time `time`, and has the State-File. -/
def seesStateFile (time : MtcClock) : List (Sr2Pool → Sr2Action) :=
  [fun w => .inner 0 (.objects (w.host 0).host.sm (w.host 0).host.hb
      { (w.host 0).host.sf with sfAccess := true, timeLastSf := fun i => if i = 0 then time else 0 }),
    fun _ => .inner 0 (.updateSfdomain time), fun _ => .inner 0 .sfStartFh]

/-- Host 0 sends a heartbeat without SR2, which overtakes those with SR2; it finishes its round, loses the State-File
and has it back before the test of the next round, which it wins by the first rule. -/
def recoveredRound : List (Sr2Pool → Sr2Action) :=
  [fun _ => .send 0, lastHeartbeat, firstSr2Heartbeat] ++ (List.replicate 9 soleStep).flatten.map (fun a _ => a) ++
    seesStateFile lateClock ++
    [fun _ => .inner 0 (.updateSfdomain (2 * lateClock)), fun _ => .inner 0 .sfStartFh] ++ seesStateFile (2 * lateClock) ++
    (List.replicate 17 soleStep).flatten.map (fun a _ => a) ++ [fun _ => .send 0, lastHeartbeat]

/-- Host 0 survives by Survival Rule-2 and leaves it. Host 1 hears it afterwards, and then receives a heartbeat with
SR2 that was late: SR2 stays FALSE, also over the next round of host 0. -/
theorem sr2_stays_off_iff_solePool :
    ∃ s t : Sr2Pool, ∃ steps, (sr2Machine quietConfig).Reachable s ∧ (∃ p ∈ s.packets, p.sr2 = true) ∧
      (sr2Machine quietConfig).Trace s steps t ∧ (t.host 0).pc = .done .fh3 ∧
      (s.host 1).hbSequence 0 < (t.host 1).hbSequence 0 ∧ (∀ step ∈ steps, step.1.Off quietConfig) ∧
      t.Off quietConfig := by
  have hrun : ∃ s, (sr2Machine quietConfig).Reachable s ∧
      (decide (s.Off quietConfig) && s.packets.any (fun p => p.sr2) &&
        ((sr2Machine quietConfig).play (fun w a => ¬ Grants quietConfig w a ∧ ¬ AcceptsSr2Of s w a) s recoveredRound).any
          fun t => decide ((t.host 0).pc = .done .fh3) &&
            decide ((s.host 1).hbSequence 0 < (t.host 1).hbSequence 0)) = true :=
    Machine.reach_of_played solePool_init survivesAndRecovers _ (by decide +kernel)
  obtain ⟨s, hs, hp⟩ := hrun
  simp only [Bool.and_eq_true, decide_eq_true_eq] at hp
  obtain ⟨⟨hoff, hsr2⟩, hany⟩ := hp
  obtain ⟨t, ht, hend⟩ := (Option.any_eq_true _ _).1 hany
  rw [Bool.and_eq_true, decide_eq_true_eq, decide_eq_true_eq] at hend
  obtain ⟨steps, hsteps, hok⟩ := Machine.trace_play _ ht
  have hstays := (sr2_stays_off_iff hoff hsteps fun p hp => (hok p hp).1).2 fun p hp => (hok p hp).2
  exact ⟨s, t, steps, hs, List.any_eq_true.1 hsr2, hsteps, hend.1, hend.2, hstays.1, hstays.2⟩

end Xha
