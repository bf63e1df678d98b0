/-
Hosts that join an existing liveset at the same time, in a pool without faults: the joiners copy the liveset
from the State-File, ask, and count the acknowledgements of the hosts they know of; everybody takes in who
has all the acknowledgements, or who says that it is in. A joiner knows that the hosts it counted propose it;
of a joiner that it has not taken in yet it knows nothing. `join_agreement` reads this off an invariant that follows
the acknowledgements from the livesets to the packets and the counts.
-/
import Xha.Lib.Transition
import Xha.Sm.Join
import Xha.Sm.Start

namespace Xha

open Loop Transition

/-! ## The pool -/

/-- How far the sm thread of a host has come: `liveset` is what it copied from the State-File, `counted` the liveset
whose acknowledgements it has seen. -/
inductive JoinStage
  | member
  | starting
  | copied (liveset : HostMap)
  | requested (liveset : HostMap)
  | allowed (liveset counted : HostMap)
  | joined (liveset counted : HostMap)
  | failed
  deriving DecidableEq

/-- What the host copied from the State-File. -/
def JoinStage.liveset : JoinStage → Option HostMap
  | .copied liveset | .requested liveset | .allowed liveset _ | .joined liveset _ => some liveset
  | _ => none

/-- The livesets of a host that has seen its acknowledgements. -/
def JoinStage.counted : JoinStage → Option (HostMap × HostMap)
  | .allowed liveset counted | .joined liveset counted => some (liveset, counted)
  | _ => none

/-- The hosts, the starting flags in their records on the State-File, every heartbeat sent, and the joiners that
have completed `join`, in this order. -/
structure JoinPool where
  host : Nat → FhWorld
  stage : Nat → JoinStage
  record : Nat → Bool
  packets : List HbPacket
  completed : List Nat

/-- The sections of the sm thread on its way into the liveset, the worker's `process_join_request`, heartbeats,
and the State-File. -/
inductive JoinAction
  | copy (i : Nat) (excluded : Bool)
  | request (i : Nat)
  | check (i : Nat)
  | conclude (i : Nat)
  | giveUp (i : Nat)
  | clearStarting (i : Nat)
  | processJoinRequest (i : Nat)
  | send (i : Nat)
  | receive (i : Nat) (now : MtcClock) (pkt : HbPacket)
  | writeRecord (i : Nat)
  | readRecord (i k : Nat)

/-- The host that takes the step. -/
def JoinAction.actor : JoinAction → Nat
  | .copy i _ | .request i | .check i | .conclude i | .giveUp i | .clearStarting i | .processJoinRequest i
  | .send i | .receive i _ _ | .writeRecord i | .readRecord i _ => i

/-- `test_Start_Criteria` has found a liveset to join. -/
def Host.copyLiveset (liveset : HostMap) (h : Host) : Host :=
  { h with sm := { h.sm with proposedLiveset := liveset, currentLiveset := liveset } : Host }.smWriterUnlock

/-- The sm thread is through its start and no longer starting. -/
def Host.clearStarting (h : Host) : Host :=
  { h with sf := { h.sf with ctl := { h.sf.ctl with starting := false } } }

/-- The record of host `k` has been read, with its starting flag. -/
def Host.readStarting (k : Nat) (starting : Bool) (h : Host) : Host :=
  { h with sf := { h.sf with starting := h.sf.starting.setBoolean k starting } }

namespace JoinPool

/-- Host `i` after a step on its objects. -/
def setHost (w : JoinPool) (i : Nat) (h : Host) : JoinPool :=
  { w with host := Function.update w.host i { w.host i with host := h } }

def setStage (w : JoinPool) (i : Nat) (s : JoinStage) : JoinPool := { w with stage := Function.update w.stage i s }

end JoinPool

/-- The steps of host `i`; `c` is its configuration. -/
def joinAct (c : HaConfig) (w : JoinPool) : JoinAction → Option JoinPool
  | .copy i excluded =>
    let h := (w.host i).host
    match w.stage i, startTurn c sfStateActive excluded ⟨h, h.hb, [], h.sf⟩ with
    | .starting, some (.joined liveset) => some ((w.setHost i (h.copyLiveset liveset)).setStage i (.copied liveset))
    | _, _ => none
  | .request i =>
    match w.stage i with
    | .copied liveset =>
      if (w.host i).host.hb.ctl.join then
        some ((w.setHost i ((w.host i).host.requestJoin i)).setStage i (.requested liveset))
      else none
    | _ => none
  | .check i =>
    match w.stage i with
    | .requested liveset =>
      if joinAllowed c (w.host i).host.sm (w.host i).host.hb then
        some (w.setStage i (.allowed liveset (w.host i).host.sm.currentLiveset))
      else none
    | _ => none
  | .conclude i =>
    match w.stage i with
    | .allowed liveset counted =>
      some { (w.setHost i ((w.host i).host.concludeJoin i true)).setStage i (.joined liveset counted) with
        completed := w.completed ++ [i] }
    | _ => none
  | .giveUp i =>
    match w.stage i with
    | .requested _ => some ((w.setHost i ((w.host i).host.concludeJoin i false)).setStage i .failed)
    | _ => none
  | .clearStarting i =>
    match w.stage i with
    | .joined _ _ => some (w.setHost i (w.host i).host.clearStarting)
    | _ => none
  | .processJoinRequest i => some (w.setHost i (processJoinRequest c (w.host i).host))
  | .send i =>
    (fhAct c (w.host i) .sendHb).map fun s =>
      { w with
        host := Function.update w.host i s
        packets := hbPacket i (s.hbSequence i) (w.host i).host :: w.packets }
  | .receive i now pkt =>
    if pkt ∈ w.packets then
      (fhAct c (w.host i) (.receiveHb now pkt)).map fun s => { w with host := Function.update w.host i s }
    else none
  | .writeRecord i => some { w with record := Function.update w.record i (w.host i).host.sf.ctl.starting }
  | .readRecord i k =>
    if k < c.hostnum then some (w.setHost i ((w.host i).host.readStarting k (w.record k))) else none

/-- The configured hosts take steps, until they give up. -/
def joinNext (c : HaConfig) (w : JoinPool) (a : JoinAction) : Option JoinPool :=
  if h : a.actor < c.hostnum then
    if w.stage a.actor = .failed then none else joinAct (c.at a.actor h) w a
  else none

/-- The members form a liveset, the other hosts are starting and see the members on the State-File; joins are
not blocked, and everybody is in both domains of everybody. -/
structure JoinPool.Started (c : HaConfig) (members : HostMap) (w : JoinPool) : Prop where
  domains : ∀ i < c.hostnum, ∀ j < c.hostnum,
    (w.host i).host.hb.hbdomain.isOn j = true ∧ (w.host i).host.sf.sfdomain.isOn j = true
  joinBlock : ∀ i < c.hostnum, (w.host i).host.smvar.joinBlock = false
  member : ∀ i < c.hostnum, members.isOn i = true → w.stage i = .member ∧
    (w.host i).host.sm.currentLiveset = members ∧ (w.host i).host.sm.proposedLiveset = members
  joiner : ∀ i < c.hostnum, members.isOn i = false → w.stage i = .starting ∧ (w.host i).host.hb.ctl.join = true ∧
    (w.host i).host.sm.currentLiveset = .empty ∧ (w.host i).host.sm.proposedLiveset = .empty
  starting : ∀ i < c.hostnum, (w.host i).host.sf.ctl.starting = !members.isOn i
  record : ∀ i < c.hostnum, w.record i = !members.isOn i
  seen : ∀ i < c.hostnum, ∀ k < c.hostnum, (w.host i).host.sf.starting.isOn k = !members.isOn k
  raw : ∀ i < c.hostnum, ∀ k < c.hostnum, i ≠ k →
    ((w.host i).host.hb.raw k).currentLiveset = (w.host k).host.sm.currentLiveset ∧
    ((w.host i).host.hb.raw k).proposedLiveset = (w.host k).host.sm.proposedLiveset
  packets : w.packets = []
  completed : w.completed = []

def joinMachine (c : HaConfig) (members : HostMap) : Machine JoinPool JoinAction where
  init w := w.Started c members
  next := joinNext c

/-! ## What a step leaves of a host -/

/-- A step of host `i` takes nobody else off its livesets, and changes only those reports and starting flags of the
others that it gets from `packets` and from `record`; whom it takes in it proposes. -/
structure JoinKeeps (packets : List HbPacket) (record : Nat → Bool) (i : Nat) (h h' : Host) : Prop where
  proposed : ∀ j ≠ i, h.sm.proposedLiveset.isOn j = true → h'.sm.proposedLiveset.isOn j = true
  current : ∀ j, h.sm.currentLiveset.isOn j = true → h'.sm.currentLiveset.isOn j = true
  taken : ∀ j ≠ i, h'.sm.currentLiveset.isOn j = true →
    h.sm.currentLiveset.isOn j = true ∨ h'.sm.proposedLiveset.isOn j = true
  raw : ∀ k, h'.hb.raw k = h.hb.raw k ∨ ∃ p ∈ packets, p.hostIndex = k ∧ h'.hb.raw k = p.raw
  flag : h'.sf.ctl.starting = true → h.sf.ctl.starting = true
  starting : ∀ k, h'.sf.starting.isOn k = true → h.sf.starting.isOn k = true ∨ record k = true
  sfdomain : h'.sf.sfdomain = h.sf.sfdomain
  joinBlock : h'.smvar.joinBlock = h.smvar.joinBlock

section

variable {packets : List HbPacket} {record : Nat → Bool} {i : Nat} {h h' : Host}

/-- A step that leaves the livesets and what is known of the others. -/
theorem JoinKeeps.of_same (hcur : h'.sm.currentLiveset = h.sm.currentLiveset)
    (hprop : h'.sm.proposedLiveset = h.sm.proposedLiveset)
    (hraw : ∀ k, h'.hb.raw k = h.hb.raw k ∨ ∃ p ∈ packets, p.hostIndex = k ∧ h'.hb.raw k = p.raw)
    (hsf : h'.sf = h.sf) (hjb : h'.smvar.joinBlock = h.smvar.joinBlock) : JoinKeeps packets record i h h' := by
  refine ⟨fun j _ hj => ?_, fun j hj => ?_, fun j _ hj => .inl ?_, hraw, fun hf => ?_, fun k hk => .inl ?_, ?_, hjb⟩
  · rw [hprop]
    exact hj
  · rw [hcur]
    exact hj
  · rw [hcur] at hj
    exact hj
  · rwa [hsf] at hf
  · rwa [hsf] at hk
  · rw [hsf]

/-- A step on the livesets under `writer_lock(sm_object)`. -/
theorem JoinKeeps.of_unlock (hhb : ∀ k, h'.hb.raw k = h.hb.raw k) (hsf : h'.sf = h.sf)
    (hjb : h'.smvar.joinBlock = h.smvar.joinBlock)
    (hproposed : ∀ j ≠ i, h.sm.proposedLiveset.isOn j = true → h'.sm.proposedLiveset.isOn j = true)
    (hcurrent : ∀ j, h.sm.currentLiveset.isOn j = true → h'.sm.currentLiveset.isOn j = true)
    (htaken : ∀ j ≠ i, h'.sm.currentLiveset.isOn j = true →
      h.sm.currentLiveset.isOn j = true ∨ h'.sm.proposedLiveset.isOn j = true) :
    JoinKeeps packets record i h h'.smWriterUnlock := by
  obtain ⟨hcur, hprop⟩ := h'.smWriterUnlock_livesets
  refine ⟨?_, ?_, ?_, fun k => .inl ?_, ?_, fun k => ?_, ?_, ?_⟩
  · rw [hprop]
    exact hproposed
  · rw [hcur]
    exact hcurrent
  · rw [hcur, hprop]
    exact htaken
  · rw [Host.smWriterUnlock_hb, hhb]
  · rw [Host.smWriterUnlock_sf, hsf]
    exact id
  · rw [Host.smWriterUnlock_sf, hsf]
    exact .inl
  · rw [Host.smWriterUnlock_sf, hsf]
  · rw [Host.smWriterUnlock_joinBlock, hjb]

theorem requestJoin_keeps : JoinKeeps packets record i h (h.requestJoin i) := by
  refine .of_unlock (fun _ => rfl) rfl rfl (fun j _ hj => ?_) (fun _ hj => hj) fun _ _ hj => .inl hj
  dsimp only
  rw [HostMap.isOn_set, hj]
  rfl

theorem concludeJoin_keeps (joined : Bool) : JoinKeeps packets record i h (h.concludeJoin i joined) := by
  cases joined with
  | true =>
    refine .of_unlock (fun _ => rfl) rfl rfl (fun _ _ hj => hj) (fun j hj => ?_) fun j hne hj => .inl ?_
    · dsimp only
      rw [HostMap.isOn_set, hj]
      rfl
    · dsimp only at hj
      rw [HostMap.isOn_set] at hj
      simpa [Ne.symm hne] using hj
  | false =>
    refine .of_unlock (fun _ => rfl) rfl rfl (fun j hne hj => ?_) (fun _ hj => hj) fun _ _ hj => .inl hj
    dsimp only
    rw [HostMap.isOn_reset, hj]
    simpa using Ne.symm hne

theorem processJoinRequest_keeps {c : HaConfig} (hblock : h.smvar.joinBlock = false)
    (hsf : ∀ j < c.hostnum, h.sf.sfdomain.isOn j = true) :
    JoinKeeps packets record i h (processJoinRequest c h) := by
  refine .of_unlock (fun _ => rfl) rfl rfl (fun j _ hj => (joinUpdate_spec j).1 hj) (fun j hj => ?_) fun j _ hj => ?_
  · dsimp only
    rw [HostMap.isOn_or, hj]
    rfl
  · dsimp only at hj
    rw [HostMap.isOn_or, Bool.or_eq_true] at hj
    exact hj.imp_right fun hjoin => joinUpdate_taken hblock (hsf j (joinUpdate_lt hjoin)) hjoin

/-- A joiner takes over a liveset that is on the State-File; it had none before. -/
theorem copyLiveset_keeps (liveset : HostMap)
    (hnone : h.sm.currentLiveset = .empty ∧ h.sm.proposedLiveset = .empty) :
    JoinKeeps packets record i h (h.copyLiveset liveset) := by
  refine .of_unlock (fun _ => rfl) rfl rfl (fun j _ hj => ?_) (fun j hj => ?_) fun _ _ hj => .inr hj
  · rw [hnone.2, HostMap.isOn_empty] at hj
    cases hj
  · rw [hnone.1, HostMap.isOn_empty] at hj
    cases hj

/-- A heartbeat changes what the host knows of its sender. -/
theorem updateHbData_keeps {now : MtcClock} {pkt : HbPacket} (hpkt : pkt ∈ packets) :
    JoinKeeps packets record i h (h.updateHbData now pkt) := by
  obtain ⟨-, -, hcur, hprop⟩ := h.updateHbData_domains now pkt
  refine .of_same hcur hprop (fun k => ?_) (h.updateHbData_sf now pkt) (Host.smWriterUnlock_joinBlock _)
  rw [Host.updateHbData_hb]
  by_cases hk : k = pkt.hostIndex
  · exact .inr ⟨pkt, hpkt, hk.symm, by rw [hk]; exact Function.update_self ..⟩
  · exact .inl (Function.update_of_ne hk ..)

theorem clearStarting_keeps : JoinKeeps packets record i h h.clearStarting :=
  ⟨fun _ _ hj => hj, fun _ hj => hj, fun _ _ hj => .inl hj, fun _ => .inl rfl, fun hf => (nomatch hf),
    fun _ hk => .inl hk, rfl, rfl⟩

theorem readStarting_keeps {k : Nat} (hk : k < maxHostNum) :
    JoinKeeps packets record i h (h.readStarting k (record k)) := by
  refine ⟨fun _ _ hj => hj, fun _ hj => hj, fun _ _ hj => .inl hj, fun _ => .inl rfl, fun hf => hf, fun m hm => ?_,
    rfl, rfl⟩
  unfold Host.readStarting at hm
  dsimp only at hm
  rw [HostMap.isOn_setBoolean _ _ _ _ hk] at hm
  by_cases hkm : k = m
  · subst hkm
    rw [if_pos rfl] at hm
    exact .inr hm
  · rw [if_neg hkm] at hm
    exact .inl hm

/-- Nobody is taken in by a host that has no liveset yet. -/
theorem processJoinRequest_fresh {c : HaConfig} (hcur : h.sm.currentLiveset = .empty) :
    (processJoinRequest c h).sm.currentLiveset = .empty ∧
      (processJoinRequest c h).sm.proposedLiveset = h.sm.proposedLiveset := by
  obtain ⟨hc, hp⟩ := processJoinRequest_livesets c h
  have hempty : isEmptyLiveset c.hostnum h.sm.currentLiveset = true := by
    rw [hcur]
    exact isEmptyLiveset_iff.2 fun j _ => HostMap.isOn_empty j
  have hnone : HostMap.empty ||| HostMap.empty = HostMap.empty := HostMap.ext fun j => by simp
  rw [hc, hp, joinUpdate, if_pos hempty, hcur]
  exact ⟨hnone, rfl⟩

end

/-- The check of `join`, for a host that it counts. -/
theorem joinAllowed_acknowledged {c : HaConfig} {psm : ComDataSm} {phb : ComDataHb} {k : Nat}
    (hall : joinAllowed c psm phb = true) (hk : k < c.hostnum) (hne : k ≠ c.myIndex)
    (hon : psm.currentLiveset.isOn k = true) : (phb.raw k).proposedLiveset.isOn c.myIndex = true := by
  have hack := List.all_eq_true.1 hall k (List.mem_range.2 hk)
  have hme : (k != c.myIndex) = true := bne_iff_ne.2 hne
  rwa [hme, hon, Bool.true_and, Bool.true_and, Bool.not_not] at hack

/-! ## Acknowledgements -/

/-- What holds of the hosts, their stages, the heartbeats and the records: whom a host takes in it proposes; what is
on its way or known of a host's acknowledgements still holds of it; the members are never starting, so every joiner
has copied them; and a joiner that has counted its acknowledgements has them. -/
structure JoinInv (c : HaConfig) (members : HostMap) (host : Nat → FhWorld) (stage : Nat → JoinStage)
    (packets : List HbPacket) (record : Nat → Bool) : Prop where
  unblocked : ∀ i < c.hostnum, (host i).host.smvar.joinBlock = false ∧
    ∀ j < c.hostnum, (host i).host.sf.sfdomain.isOn j = true
  fresh : ∀ i < c.hostnum, stage i = .starting →
    (host i).host.sm.currentLiveset = .empty ∧ (host i).host.sm.proposedLiveset = .empty
  proposed : ∀ i < c.hostnum, ∀ j ≠ i, (host i).host.sm.currentLiveset.isOn j = true →
    (host i).host.sm.proposedLiveset.isOn j = true
  packets : ∀ p ∈ packets, ∀ j ≠ p.hostIndex, p.raw.proposedLiveset.isOn j = true →
    (host p.hostIndex).host.sm.proposedLiveset.isOn j = true
  raw : ∀ i < c.hostnum, ∀ k < c.hostnum, k ≠ i → ∀ j ≠ k, ((host i).host.hb.raw k).proposedLiveset.isOn j = true →
    (host k).host.sm.proposedLiveset.isOn j = true
  record : ∀ k < c.hostnum, members.isOn k = true → (host k).host.sf.ctl.starting ≠ true ∧ record k ≠ true
  starting : ∀ i < c.hostnum, ∀ k < c.hostnum, members.isOn k = true → (host i).host.sf.starting.isOn k ≠ true
  copied : ∀ i < c.hostnum, ∀ liveset, (stage i).liveset = some liveset →
    (∀ k < c.hostnum, members.isOn k = true → liveset.isOn k = true) ∧
    ∀ k, liveset.isOn k = true → (host i).host.sm.currentLiveset.isOn k = true
  counted : ∀ j < c.hostnum, ∀ liveset counted, (stage j).counted = some (liveset, counted) →
    (∀ k, liveset.isOn k = true → counted.isOn k = true) ∧
    ∀ k < c.hostnum, k ≠ j → counted.isOn k = true → (host k).host.sm.proposedLiveset.isOn j = true

section

variable {c : HaConfig} {members : HostMap} {host : Nat → FhWorld} {stage : Nat → JoinStage} {packets : List HbPacket}
  {record : Nat → Bool} {i : Nat} {t : FhWorld} {s : JoinStage}

/-- Host `i` takes a step of its threads, and its sm thread gets to stage `s`. -/
theorem JoinInv.step (h : JoinInv c members host stage packets record) (hi : i < c.hostnum)
    (hk : JoinKeeps packets record i (host i).host t.host)
    (hfresh : s = .starting → t.host.sm.currentLiveset = .empty ∧ t.host.sm.proposedLiveset = .empty)
    (hcopied : ∀ liveset, s.liveset = some liveset →
      (∀ k < c.hostnum, members.isOn k = true → liveset.isOn k = true) ∧
      ∀ k, liveset.isOn k = true → t.host.sm.currentLiveset.isOn k = true)
    (hcounted : ∀ liveset counted, s.counted = some (liveset, counted) →
      (∀ k, liveset.isOn k = true → counted.isOn k = true) ∧
      ∀ k < c.hostnum, k ≠ i → counted.isOn k = true → (host k).host.sm.proposedLiveset.isOn i = true) :
    JoinInv c members (Function.update host i t) (Function.update stage i s) packets record := by
  -- nobody else's acknowledgement is taken back
  have hprop : ∀ k j, j ≠ k → (host k).host.sm.proposedLiveset.isOn j = true →
      (Function.update host i t k).host.sm.proposedLiveset.isOn j = true := by
    intro k j hjk hj
    by_cases hki : k = i
    · subst hki
      rw [Function.update_self]
      exact hk.proposed j hjk hj
    · rw [Function.update_of_ne hki]
      exact hj
  constructor
  case unblocked =>
    intro k hkn
    by_cases hki : k = i
    · subst hki
      rw [Function.update_self, hk.joinBlock, hk.sfdomain]
      exact h.unblocked k hkn
    · rw [Function.update_of_ne hki]
      exact h.unblocked k hkn
  case fresh =>
    intro k hkn hst
    by_cases hki : k = i
    · subst hki
      rw [Function.update_self] at hst ⊢
      exact hfresh hst
    · rw [Function.update_of_ne hki] at hst ⊢
      exact h.fresh k hkn hst
  case proposed =>
    intro k hkn j hjk hj
    by_cases hki : k = i
    · subst hki
      rw [Function.update_self] at hj ⊢
      rcases hk.taken j hjk hj with hold | hnew
      · exact hk.proposed j hjk (h.proposed k hkn j hjk hold)
      · exact hnew
    · rw [Function.update_of_ne hki] at hj ⊢
      exact h.proposed k hkn j hjk hj
  case packets =>
    intro p hp j hj hon
    exact hprop _ _ hj (h.packets p hp j hj hon)
  case raw =>
    intro k hkn m hmn hmk j hjm hon
    by_cases hki : k = i
    · subst hki
      rw [Function.update_self] at hon
      -- the row of a host is the old one, or that of a packet it has sent
      rcases hk.raw m with hold | ⟨p, hp, rfl, hnew⟩
      · rw [hold] at hon
        exact hprop _ _ hjm (h.raw k hkn m hmn hmk j hjm hon)
      · rw [hnew] at hon
        exact hprop _ _ hjm (h.packets p hp j hjm hon)
    · rw [Function.update_of_ne hki] at hon
      exact hprop _ _ hjm (h.raw k hkn m hmn hmk j hjm hon)
  case record =>
    intro k hkn hm
    obtain ⟨hflag, hrecord⟩ := h.record k hkn hm
    by_cases hki : k = i
    · subst hki
      rw [Function.update_self]
      exact ⟨fun hf => hflag (hk.flag hf), hrecord⟩
    · rw [Function.update_of_ne hki]
      exact ⟨hflag, hrecord⟩
  case starting =>
    intro m hmn k hkn hm
    by_cases hmi : m = i
    · subst hmi
      rw [Function.update_self]
      intro hon
      rcases hk.starting k hon with hold | hread
      · exact h.starting m hmn k hkn hm hold
      · exact (h.record k hkn hm).2 hread
    · rw [Function.update_of_ne hmi]
      exact h.starting m hmn k hkn hm
  case copied =>
    intro k hkn liveset hst
    by_cases hki : k = i
    · subst hki
      rw [Function.update_self] at hst ⊢
      exact hcopied liveset hst
    · rw [Function.update_of_ne hki] at hst ⊢
      exact h.copied k hkn liveset hst
  case counted =>
    intro j hjn liveset counted hst
    -- acknowledgements counted before the step, and still given after it
    have hacks : (∀ k, liveset.isOn k = true → counted.isOn k = true) ∧
        ∀ k < c.hostnum, k ≠ j → counted.isOn k = true → (host k).host.sm.proposedLiveset.isOn j = true := by
      by_cases hji : j = i
      · subst hji
        rw [Function.update_self] at hst
        exact hcounted liveset counted hst
      · rw [Function.update_of_ne hji] at hst
        exact h.counted j hjn liveset counted hst
    exact ⟨hacks.1, fun k hkn hkj hon => hprop k j (Ne.symm hkj) (hacks.2 k hkn hkj hon)⟩

/-- The sm thread of a joiner that has copied a liveset goes on to stage `s`. -/
theorem JoinInv.advance (h : JoinInv c members host stage packets record) (hi : i < c.hostnum)
    (hk : JoinKeeps packets record i (host i).host t.host) {liveset : HostMap}
    (hold : (stage i).liveset = some liveset) (hnew : s.liveset = some liveset)
    (hcounted : ∀ liveset counted, s.counted = some (liveset, counted) →
      (∀ k, liveset.isOn k = true → counted.isOn k = true) ∧
      ∀ k < c.hostnum, k ≠ i → counted.isOn k = true → (host k).host.sm.proposedLiveset.isOn i = true) :
    JoinInv c members (Function.update host i t) (Function.update stage i s) packets record := by
  refine h.step hi hk (fun hs => ?_) (fun l hl => ?_) hcounted
  · subst hs
    cases hnew
  · rw [hnew] at hl
    cases hl
    obtain ⟨hmem, hcur⟩ := h.copied i hi liveset hold
    exact ⟨hmem, fun k hon => hk.current k (hcur k hon)⟩

/-- A step of the other threads of host `i`. -/
theorem JoinInv.keep (h : JoinInv c members host stage packets record) (hi : i < c.hostnum)
    (hk : JoinKeeps packets record i (host i).host t.host)
    (hfresh : stage i = .starting → t.host.sm.currentLiveset = .empty ∧ t.host.sm.proposedLiveset = .empty) :
    JoinInv c members (Function.update host i t) stage packets record := by
  have hstep := h.step hi (s := stage i) hk hfresh (fun liveset hst => ?_) (h.counted i hi)
  · rwa [Function.update_eq_self] at hstep
  · obtain ⟨hmem, hcur⟩ := h.copied i hi liveset hst
    exact ⟨hmem, fun k hon => hk.current k (hcur k hon)⟩

/-- Host `i` sends what it shows of itself. -/
theorem JoinInv.send (h : JoinInv c members host stage packets record) {p : HbPacket}
    (hp : p.raw.proposedLiveset = (host p.hostIndex).host.sm.proposedLiveset) :
    JoinInv c members host stage (p :: packets) record := by
  refine { h with packets := fun q hq j hj hon => ?_ }
  rcases List.mem_cons.1 hq with rfl | hq
  · rw [hp] at hon
    exact hon
  · exact h.packets q hq j hj hon

/-- Host `i` writes its starting flag. -/
theorem JoinInv.write (h : JoinInv c members host stage packets record) :
    JoinInv c members host stage packets (Function.update record i (host i).host.sf.ctl.starting) := by
  refine { h with record := fun k hk hm => ?_ }
  obtain ⟨hflag, hrecord⟩ := h.record k hk hm
  by_cases hki : k = i
  · subst hki
    rw [Function.update_self]
    exact ⟨hflag, hflag⟩
  · rw [Function.update_of_ne hki]
    exact ⟨hflag, hrecord⟩

end

theorem JoinPool.Started.joinInv {c : HaConfig} {members : HostMap} {w : JoinPool} (h : w.Started c members) :
    JoinInv c members w.host w.stage w.packets w.record := by
  have hstage : ∀ i < c.hostnum, w.stage i = .member ∨ w.stage i = .starting := fun i hi => by
    cases hm : members.isOn i
    · exact .inr (h.joiner i hi hm).1
    · exact .inl (h.member i hi hm).1
  constructor
  case unblocked => exact fun i hi => ⟨h.joinBlock i hi, fun j hj => (h.domains i hi j hj).2⟩
  case fresh =>
    intro i hi hst
    cases hm : members.isOn i
    · exact (h.joiner i hi hm).2.2
    · rw [(h.member i hi hm).1] at hst
      cases hst
  case proposed =>
    intro i hi j _ hj
    cases hm : members.isOn i
    · rw [(h.joiner i hi hm).2.2.1, HostMap.isOn_empty] at hj
      cases hj
    · rw [(h.member i hi hm).2.1] at hj
      rw [(h.member i hi hm).2.2]
      exact hj
  case packets =>
    intro p hp
    rw [h.packets] at hp
    cases hp
  case raw =>
    intro i hi k hk hki j _ hon
    rw [(h.raw i hi k hk (Ne.symm hki)).2] at hon
    exact hon
  case record =>
    intro k hk hm
    rw [h.starting k hk, h.record k hk, hm]
    exact ⟨Bool.noConfusion, Bool.noConfusion⟩
  case starting =>
    intro i hi k hk hm
    rw [h.seen i hi k hk, hm]
    exact Bool.noConfusion
  case copied =>
    intro i hi liveset hst
    rcases hstage i hi with hs | hs <;> rw [hs] at hst <;> cases hst
  case counted =>
    intro j hj liveset counted hst
    rcases hstage j hj with hs | hs <;> rw [hs] at hst <;> cases hst

/-- The liveset a joiner copies: the hosts of the State-File domain that are not starting. -/
theorem startTurn_joined {c : HaConfig} {excluded : Bool} {r : StartRead} {liveset : HostMap}
    (hr : startTurn c sfStateActive excluded r = some (.joined liveset)) (k : Nat) :
    liveset.isOn k = true ↔ k < c.hostnum ∧ r.host.sf.sfdomain.isOn k = true ∧ r.host.sf.starting.isOn k ≠ true := by
  have hl : liveset = ((r.host.sf.sfdomain.maskUnconfig c.hostnum).diff r.host.sf.starting).maskUnconfig c.hostnum := by
    unfold startTurn at hr
    dsimp only at hr
    split at hr
    · cases hr
    · split at hr
      · cases hr
      · split at hr
        · split at hr <;> cases hr
        · cases hr
      · split at hr
        · cases hr
        · split at hr <;> cases hr
          rfl
  rw [hl, HostMap.isOn_maskUnconfig, HostMap.isOn_diff, HostMap.isOn_maskUnconfig]
  simp only [Bool.and_eq_true, Bool.not_eq_true', decide_eq_true_eq, ne_eq, Bool.not_eq_true]
  exact ⟨fun h => ⟨h.2, h.1.1.1, h.1.2⟩, fun h => ⟨⟨⟨h.2.1, h.1⟩, h.2.2⟩, h.1⟩⟩

/-- The step of a host of the pool. -/
theorem joinNext_acts {c : HaConfig} {w w' : JoinPool} {a : JoinAction} {i : Nat} (ha : a.actor = i)
    (hn : joinNext c w a = some w') : ∃ hi : i < c.hostnum, joinAct (c.at i hi) w a = some w' := by
  subst ha
  unfold joinNext at hn
  split_ifs at hn with hi _
  exact ⟨hi, hn⟩

/-- Every step keeps the invariant. -/
theorem joinNext_inv {c : HaConfig} {members : HostMap} {w w' : JoinPool} {a : JoinAction}
    (h : JoinInv c members w.host w.stage w.packets w.record) (hn : joinNext c w a = some w') :
    JoinInv c members w'.host w'.stage w'.packets w'.record := by
  cases a with
  | copy i excluded =>
    obtain ⟨hi, hn⟩ := joinNext_acts (i := i) rfl hn
    simp only [joinAct] at hn
    split at hn
    · rename_i liveset hst hjoined
      cases hn
      refine h.step hi (copyLiveset_keeps liveset (h.fresh i hi hst)) (fun hc => by cases hc) (fun l hl => ?_)
        fun _ _ hc => by cases hc
      cases hl
      refine ⟨fun k hk hm => (startTurn_joined hjoined k).2 ⟨hk, (h.unblocked i hi).2 k hk, h.starting i hi k hk hm⟩,
        fun k hon => ?_⟩
      show ((w.host i).host.copyLiveset liveset).sm.currentLiveset.isOn k = true
      rw [Host.copyLiveset, Host.smWriterUnlock_liveset]
      exact hon
    · cases hn
  | request i =>
    obtain ⟨hi, hn⟩ := joinNext_acts (i := i) rfl hn
    simp only [joinAct] at hn
    split at hn
    · rename_i liveset hst
      split_ifs at hn
      cases hn
      exact h.advance hi requestJoin_keeps (by rw [hst]; rfl) rfl fun _ _ hc => by cases hc
    · cases hn
  | check i =>
    obtain ⟨hi, hn⟩ := joinNext_acts (i := i) rfl hn
    simp only [joinAct] at hn
    split at hn
    · rename_i liveset hst
      split_ifs at hn with hall
      cases hn
      have hlive : (w.stage i).liveset = some liveset := by
        rw [hst]
        rfl
      have hstep := h.advance hi (t := w.host i) (s := .allowed liveset (w.host i).host.sm.currentLiveset)
        (.of_same rfl rfl (fun _ => .inl rfl) rfl rfl) hlive rfl fun l counted hc => ?_
      · rwa [Function.update_eq_self] at hstep
      cases hc
      refine ⟨(h.copied i hi liveset hlive).2, fun k hk hki hon => ?_⟩
      -- an acknowledgement that is known is one that holds
      exact h.raw i hi k hk hki i (Ne.symm hki) (joinAllowed_acknowledged hall hk hki hon)
    · cases hn
  | conclude i =>
    obtain ⟨hi, hn⟩ := joinNext_acts (i := i) rfl hn
    simp only [joinAct] at hn
    split at hn
    · rename_i liveset counted hst
      cases hn
      refine h.advance hi (concludeJoin_keeps true) (by rw [hst]; rfl) rfl fun l counted' hc => ?_
      cases hc
      exact h.counted i hi liveset counted (by rw [hst]; rfl)
    · cases hn
  | giveUp i =>
    obtain ⟨hi, hn⟩ := joinNext_acts (i := i) rfl hn
    simp only [joinAct] at hn
    split at hn
    · cases hn
      exact h.step hi (concludeJoin_keeps false) (fun hc => by cases hc) (fun _ hc => by cases hc)
        fun _ _ hc => by cases hc
    · cases hn
  | clearStarting i =>
    obtain ⟨hi, hn⟩ := joinNext_acts (i := i) rfl hn
    simp only [joinAct] at hn
    split at hn
    · rename_i hst
      cases hn
      exact h.keep hi clearStarting_keeps fun hc => by rw [hst] at hc; cases hc
    · cases hn
  | processJoinRequest i =>
    obtain ⟨hi, hn⟩ := joinNext_acts (i := i) rfl hn
    cases hn
    obtain ⟨hblock, hsf⟩ := h.unblocked i hi
    refine h.keep hi (processJoinRequest_keeps hblock hsf) fun hst => ?_
    obtain ⟨hcur, hprop⟩ := h.fresh i hi hst
    obtain ⟨hcur', hprop'⟩ := processJoinRequest_fresh (c := c.at i hi) hcur
    exact ⟨hcur', hprop'.trans hprop⟩
  | send i =>
    obtain ⟨hi, hn⟩ := joinNext_acts (i := i) rfl hn
    simp only [joinAct] at hn
    obtain ⟨s, hs, rfl⟩ := Option.map_eq_some_iff.1 hn
    cases hs
    refine JoinInv.send (h.keep hi ?_ fun hst => ?_) ?_
    · exact .of_same rfl rfl (fun _ => .inl rfl) rfl rfl
    · exact h.fresh i hi hst
    · show (w.host i).host.sm.proposedLiveset = (Function.update w.host i _ i).host.sm.proposedLiveset
      rw [Function.update_self]
  | receive i now pkt =>
    obtain ⟨hi, hn⟩ := joinNext_acts (i := i) rfl hn
    simp only [joinAct] at hn
    split_ifs at hn with hpkt
    obtain ⟨s, hs, rfl⟩ := Option.map_eq_some_iff.1 hn
    cases fhAct_step hs with
    | receiveOld | receiveStarting => exact h.keep hi (.of_same rfl rfl (fun _ => .inl rfl) rfl rfl) (h.fresh i hi)
    | receive =>
      refine h.keep hi (updateHbData_keeps hpkt) fun hst => ?_
      obtain ⟨-, -, hcur, hprop⟩ := (w.host i).host.updateHbData_domains now pkt
      dsimp only
      rw [hcur, hprop]
      exact h.fresh i hi hst
  | writeRecord i =>
    obtain ⟨hi, hn⟩ := joinNext_acts (i := i) rfl hn
    cases hn
    exact h.write
  | readRecord i k =>
    obtain ⟨hi, hn⟩ := joinNext_acts (i := i) rfl hn
    simp only [joinAct] at hn
    split_ifs at hn with hk
    cases hn
    exact h.keep hi (readStarting_keeps (Nat.lt_of_lt_of_le hk c.hostnum_le)) (h.fresh i hi)

theorem joinMachine_inv {c : HaConfig} {members : HostMap} {w : JoinPool} (h : (joinMachine c members).Reachable w) :
    JoinInv c members w.host w.stage w.packets w.record :=
  h.inv (I := fun w => JoinInv c members w.host w.stage w.packets w.record) (fun _ => JoinPool.Started.joinInv)
    fun _ _ _ hw _ => joinNext_inv hw

/-! ## What a completed join knows -/

/-- A host that has joined copied the members, and counted every host that it copied; whom it counted has it in its
proposed liveset, and so has everybody who takes it in. -/
theorem join_agreement {c : HaConfig} {members : HostMap} {w : JoinPool} (h : (joinMachine c members).Reachable w)
    {j : Nat} (hj : j < c.hostnum) {liveset counted : HostMap} (hst : w.stage j = .joined liveset counted) :
    (∀ k < c.hostnum, members.isOn k = true → liveset.isOn k = true) ∧
    (∀ k, liveset.isOn k = true → counted.isOn k = true) ∧
    (∀ k < c.hostnum, k ≠ j → counted.isOn k = true → (w.host k).host.sm.proposedLiveset.isOn j = true) ∧
    ∀ k < c.hostnum, k ≠ j → (w.host k).host.sm.currentLiveset.isOn j = true →
      (w.host k).host.sm.proposedLiveset.isOn j = true := by
  have hinv := joinMachine_inv h
  obtain ⟨hmem, -⟩ := hinv.copied j hj liveset (by rw [hst]; rfl)
  obtain ⟨hcounted, hacks⟩ := hinv.counted j hj liveset counted (by rw [hst]; rfl)
  exact ⟨hmem, hcounted, hacks, fun k hk hkj hon => hinv.proposed k hk j (Ne.symm hkj) hon⟩

/-- Host 0 is the liveset, hosts 1 and 2 start. -/
def threeHosts : HaConfig := .triple

def joinReport (k : Nat) : RawData := if k = 0 then ⟨1, 1, 7, 7⟩ else ⟨0, 0, 7, 7⟩

def joinHost (i : Nat) : FhWorld where
  host :=
    { sm := { ComDataSm.initial with
        currentLiveset := (joinReport i).currentLiveset
        proposedLiveset := (joinReport i).proposedLiveset }
      hb := { ComDataHb.initial with ctl := ⟨true, true, i != 0, false⟩, hbdomain := 7, raw := joinReport }
      sf := { ComDataSf.initial i with ctl := ⟨true, true, i != 0⟩, sfdomain := 7, sfAccess := true, starting := 6 }
      smvar := SmVar.initial i }
  pc := .body .started
  hbReceive := .idle
  smWorker := .idle
  hbSequence _ := 0

def twoJoiners : JoinPool where
  host := joinHost
  stage i := if i = 0 then .member else .starting
  record i := i != 0
  packets := []
  completed := []

theorem twoJoiners_started : twoJoiners.Started threeHosts 1 := by
  constructor <;> decide

/-- Host `i` receives the last heartbeat of host `k`. -/
def hearLast (i k : Nat) (w : JoinPool) : JoinAction :=
  match w.packets.find? fun p => p.hostIndex = k with
  | some p => .receive i 0 p
  | none => .processJoinRequest i

/-- Hosts 1 and 2 copy the liveset of host 0 and get its acknowledgements in the same heartbeat. -/
def passingJoins : List (JoinPool → JoinAction) :=
  [fun _ => .copy 1 false, fun _ => .copy 2 false, fun _ => .request 1, fun _ => .request 2, fun _ => .send 1,
    fun _ => .send 2, hearLast 0 1, hearLast 0 2, fun _ => .processJoinRequest 0, fun _ => .send 0,
    hearLast 1 0, hearLast 2 0, fun _ => .check 1, fun _ => .conclude 1, fun _ => .check 2, fun _ => .conclude 2]

/-- Host 1 has joined, then host 2; host 1 has never heard of host 2. -/
theorem joins_pass : ∃ w, (joinMachine threeHosts 1).Reachable w ∧ w.completed = [1, 2] ∧
    (w.host 2).host.sm.currentLiveset.isOn 2 = true ∧ (w.host 1).host.sm.proposedLiveset.isOn 2 = false := by
  have hrun : ∃ w, (joinMachine threeHosts 1).Reachable w ∧
      decide (w.completed = [1, 2] ∧ (w.host 2).host.sm.currentLiveset.isOn 2 = true ∧
        (w.host 1).host.sm.proposedLiveset.isOn 2 = false) = true :=
    Machine.reach_of_played twoJoiners_started passingJoins _ (by decide +kernel)
  obtain ⟨w, hw, hp⟩ := hrun
  rw [decide_eq_true_eq] at hp
  exact ⟨w, hw, hp⟩

/-- Host 0 has acknowledged host 1. -/
theorem join_agreement_passingJoins : ∃ w : JoinPool, w.stage 1 = .joined 1 1 ∧
    (w.host 0).host.sm.proposedLiveset.isOn 1 = true := by
  have hrun : ∃ w, (joinMachine threeHosts 1).Reachable w ∧ decide (w.stage 1 = .joined 1 1) = true :=
    Machine.reach_of_played twoJoiners_started passingJoins _ (by decide +kernel)
  obtain ⟨w, hw, hp⟩ := hrun
  rw [decide_eq_true_eq] at hp
  obtain ⟨-, -, hacks, -⟩ := join_agreement hw (by decide) hp
  exact ⟨w, hp, hacks 0 (by decide) (by decide) (by decide)⟩

end Xha
