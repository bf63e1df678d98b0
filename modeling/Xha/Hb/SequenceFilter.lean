/-
The sequence numbers of one sender around the wrap (heartbeat.c): `send_hb` counts modulo 2^32, and `receive_hb`
takes a packet with a larger number, or with one so much smaller that it must lie behind the wrap. The plain
comparison also takes an old packet from before the wrap, and is right as long as none of these comes late
(`accepted_in_order_iff`). The packets are numbered a second time, without the wrap, and the two orders compared.
-/
import Xha.Hb.Snapshots

namespace Xha

open Transition

/-! ## The sender, the network and the receiver -/

/-- A packet with its true position among those the host has sent. -/
structure CountedPacket where
  pkt : HbPacket
  position : Nat

/-- A sender with its counter, and another host with what has come of it: the positions of all packets that arrived,
of those whose number `receive_hb` has noted, and of those it has accepted in the end, the last one first. -/
structure SerialWorld where
  sequence : MtcU32
  position : Nat
  sent : List CountedPacket
  domain : DomainWorld
  arrived : List Nat
  noted : List Nat
  accepted : List Nat

inductive SerialAction
  | send (h : Host)
  | deliver (i : Nat)
  | own (a : DomainAction)

/-- The packet passes the check of the numbers. -/
def DomainWorld.notes (d : DomainWorld) (pkt : HbPacket) : Bool :=
  d.daemon.hb.ctl.enableHbReceive &&
    newerSequence (BitVec.ofNat 32 (d.hbSequence pkt.hostIndex)) (BitVec.ofNat 32 pkt.sequence)

/-- The steps that are not about the sender: its packets are delivered, and its number is not reset. -/
def SerialWorld.allows (c : HaConfig) (sender : Nat) (w : SerialWorld) : DomainAction → Bool
  | .receiveHb pkt => pkt.hostIndex ≠ sender
  | .updateHbdomain => w.noted.isEmpty ||
    (updateHbdomain c w.domain.daemon.clock w.domain.host w.domain.hbSequence).sequence sender = w.domain.hbSequence sender
  | _ => true

/-- A packet can come late, twice or not at all, but not 2^31 or more positions behind one that has arrived. -/
def serialNext (c : HaConfig) (me : Nat) (w : SerialWorld) : SerialAction → Option SerialWorld
  | .send h => some { w with
      sequence := w.sequence + 1
      position := w.position + 1
      sent := ⟨hbPacket me (w.sequence + 1).toNat h, w.position + 1⟩ :: w.sent }
  | .deliver i => match w.sent[i]? with
    | some p =>
      if ∀ q ∈ w.arrived, q < p.position + 2 ^ 31 then
        (domainNext c w.domain (.receiveHb p.pkt)).map fun d => { w with
          domain := d
          arrived := p.position :: w.arrived
          noted := if w.domain.notes p.pkt then p.position :: w.noted else w.noted
          accepted := if (d.heard me).length ≠ (w.domain.heard me).length then p.position :: w.accepted else w.accepted }
      else none
    | none => none
  | .own a => if w.allows c me a then (domainNext c w.domain a).map fun d => { w with domain := d } else none

/-- Nothing has been sent, and the number counts the positions from wherever it stands. -/
def serialMachine (c : HaConfig) (me : Nat) : Machine SerialWorld SerialAction where
  init w := w.sequence.toNat = w.position % 2 ^ 32 ∧ w.sent = [] ∧ (domainMachine c).init w.domain ∧ w.arrived = [] ∧
    w.noted = [] ∧ w.accepted = []
  next := serialNext c me

/-- The positions grow; the last one comes first. -/
def Increasing (positions : List Nat) : Prop := positions.Pairwise (· > ·)

/-- A packet that the host may take has not been sent before a wrap that the last number noted is behind. -/
def SerialWorld.Unwrapped (w : SerialWorld) : SerialAction → Prop
  | .deliver i => ∀ p ∈ w.sent[i]?, w.domain.daemon.hb.ctl.enableHbReceive = true →
    ∀ last ∈ w.noted.head?, last / 2 ^ 32 ≤ p.position / 2 ^ 32
  | _ => True

instance (w : SerialWorld) (a : SerialAction) : Decidable (w.Unwrapped a) := by
  cases a <;> unfold SerialWorld.Unwrapped <;> infer_instance

/-! ## The check -/

/-- A packet that is not ahead passes exactly when there is a wrap in between. -/
theorem newerSequence_late {last position : Nat} (hle : position ≤ last) (hwindow : last < position + 2 ^ 31) :
    newerSequence (BitVec.ofNat 32 (last % 2 ^ 32)) (BitVec.ofNat 32 (position % 2 ^ 32)) = true ↔
      position / 2 ^ 32 < last / 2 ^ 32 := by
  unfold newerSequence
  rw [Bool.or_eq_true, decide_eq_true_eq, decide_eq_true_eq, BitVec.lt_def, BitVec.lt_def, BitVec.toNat_sub]
  simp only [BitVec.toNat_ofNat]
  omega

section

variable {c : HaConfig} {me : Nat} {d d' : DomainWorld} {w w' : SerialWorld}

/-- What passes the check has its number noted; the rest changes nothing. -/
theorem domainNext_notes {pkt : HbPacket} (hn : domainNext c d (.receiveHb pkt) = some d') :
    if d.notes pkt then d'.hbSequence = Function.update d.hbSequence pkt.hostIndex (pkt.sequence % 2 ^ 32)
    else d'.hbSequence = d.hbSequence ∧ d'.heard = d.heard := by
  unfold DomainWorld.notes
  simp only [domainNext] at hn
  split at hn
  · unfold DomainWorld.receiveHb at hn
    dsimp only at hn
    split at hn
    · rename_i henabled
      cases hn
      rw [henabled, if_neg (by simp)]
      exact ⟨rfl, rfl⟩
    · rename_i henabled
      rw [Bool.not_eq_false] at henabled
      rw [henabled, Bool.true_and]
      split at hn
      · rename_i hnew
        rw [if_pos hnew]
        split at hn
        · cases hn; rfl
        · split at hn <;> cases hn
          rfl
      · rename_i hnew
        cases hn
        rw [if_neg hnew]
        exact ⟨rfl, rfl⟩
  · cases hn

/-! ## The invariant -/

/-- The numbers are the positions, what is noted is in order, and the number stored is the last one noted. -/
structure SerialWorld.Ordered (me : Nat) (w : SerialWorld) : Prop where
  counter : w.sequence.toNat = w.position % 2 ^ 32
  sent : ∀ p ∈ w.sent, p.pkt.hostIndex = me ∧ p.pkt.sequence = p.position % 2 ^ 32
  increasing : Increasing w.noted
  accepted : w.accepted.Sublist w.noted
  arrived : ∀ q ∈ w.noted, q ∈ w.arrived
  last : ∀ q ∈ w.noted.head?, w.domain.hbSequence me = q % 2 ^ 32

theorem SerialWorld.Ordered.send (h : w.Ordered me) (t : Host) (hn : serialNext c me w (.send t) = some w') :
    w'.Ordered me := by
  cases hn
  have hcounter := h.counter
  have hnext : (w.sequence + 1).toNat = (w.position + 1) % 2 ^ 32 := by
    rw [BitVec.toNat_add, hcounter]
    simp
  refine ⟨hnext, fun p hp => ?_, h.increasing, h.accepted, h.arrived, h.last⟩
  rcases List.mem_cons.1 hp with rfl | hp
  · exact ⟨rfl, hnext⟩
  · exact h.sent p hp

theorem SerialWorld.Ordered.own (h : w.Ordered me) {a : DomainAction} (hn : serialNext c me w (.own a) = some w') :
    w'.Ordered me := by
  simp only [serialNext] at hn
  split at hn
  · rename_i hallow
    obtain ⟨d, hd, rfl⟩ := Option.map_eq_some_iff.1 hn
    refine ⟨h.counter, h.sent, h.increasing, h.accepted, h.arrived, fun q hq => ?_⟩
    rw [← h.last q hq]
    by_cases hupdate : a = .updateHbdomain
    · subst hupdate
      cases hd
      simp only [SerialWorld.allows, Bool.or_eq_true, List.isEmpty_iff, decide_eq_true_eq] at hallow
      apply hallow.resolve_left
      rintro hnil
      rw [hnil] at hq
      cases hq
    · refine (domainNext_keeps ?_ hupdate hd).2
      rintro pkt rfl
      exact of_decide_eq_true hallow
  · cases hn

/-- What is noted stays in order exactly when the packet is not one of those from before the wrap. -/
theorem SerialWorld.Ordered.noted_iff (h : w.Ordered me) {p : CountedPacket} (hp : p ∈ w.sent)
    (hwindow : ∀ q ∈ w.arrived, q < p.position + 2 ^ 31) :
    Increasing (if w.domain.notes p.pkt then p.position :: w.noted else w.noted) ↔
      (w.domain.daemon.hb.ctl.enableHbReceive = true → ∀ last ∈ w.noted.head?, last / 2 ^ 32 ≤ p.position / 2 ^ 32) := by
  obtain ⟨hhost, hseq⟩ := h.sent p hp
  cases hnoted : w.noted with
  | nil =>
    refine iff_of_true ?_ (by simp)
    split
    · exact List.pairwise_singleton ..
    · exact List.Pairwise.nil
  | cons last rest =>
    have hlast := h.last last (by rw [hnoted]; rfl)
    have hlimit := hwindow last (h.arrived last (by rw [hnoted]; exact List.mem_cons_self))
    have hincreasing := hnoted ▸ h.increasing
    -- the head is the largest of what is noted
    have hcons : Increasing (p.position :: last :: rest) ↔ last < p.position := by
      constructor
      · exact fun hall => (List.pairwise_cons.1 hall).1 last List.mem_cons_self
      · rintro hlt
        refine List.pairwise_cons.2 ⟨fun q hq => ?_, hincreasing⟩
        rcases List.mem_cons.1 hq with rfl | hq
        · exact hlt
        · exact lt_trans ((List.pairwise_cons.1 hincreasing).1 q hq) hlt
    have hnotes : w.domain.notes p.pkt = (w.domain.daemon.hb.ctl.enableHbReceive &&
        newerSequence (BitVec.ofNat 32 (last % 2 ^ 32)) (BitVec.ofNat 32 (p.position % 2 ^ 32))) := by
      rw [DomainWorld.notes, hhost, hlast, hseq]
    simp only [List.head?_cons, Option.mem_def, Option.some.injEq, forall_eq']
    rw [hnotes]
    cases henabled : w.domain.daemon.hb.ctl.enableHbReceive with
    | false =>
      refine iff_of_true ?_ (by simp)
      simpa using hincreasing
    | true =>
      simp only [Bool.true_and, eq_self, forall_true_left]
      rcases Nat.lt_or_ge last p.position with hlt | hle
      · -- a packet that is ahead does no harm, whether it passes or not
        refine iff_of_true ?_ (Nat.div_le_div_right hlt.le)
        split
        · exact hcons.2 hlt
        · exact hincreasing
      · have hnewer := newerSequence_late hle hlimit
        by_cases hwrap : p.position / 2 ^ 32 < last / 2 ^ 32
        · rw [if_pos (hnewer.2 hwrap), hcons]
          omega
        · rw [if_neg fun hpass => hwrap (hnewer.1 hpass)]
          exact iff_of_true hincreasing (Nat.le_of_not_lt hwrap)

theorem SerialWorld.Ordered.deliver (h : w.Ordered me) {i : Nat} (hok : w.Unwrapped (.deliver i))
    (hn : serialNext c me w (.deliver i) = some w') : w'.Ordered me := by
  simp only [serialNext] at hn
  split at hn
  · rename_i p hi
    split at hn
    · rename_i hwindow
      obtain ⟨d, hd, rfl⟩ := Option.map_eq_some_iff.1 hn
      have hp : p ∈ w.sent := List.mem_of_getElem? hi
      obtain ⟨hhost, hseq⟩ := h.sent p hp
      have hincreasing := (h.noted_iff hp hwindow).2 (hok p hi)
      have hstep := domainNext_notes hd
      cases hnotes : w.domain.notes p.pkt with
      | false =>
        rw [hnotes, if_neg Bool.false_ne_true] at hstep
        rw [hstep.2, if_neg Bool.false_ne_true, if_neg (by simp)]
        refine ⟨h.counter, h.sent, h.increasing, h.accepted, fun q hq => List.mem_cons_of_mem _ (h.arrived q hq), ?_⟩
        dsimp only
        rw [hstep.1]
        exact h.last
      | true =>
        rw [hnotes, if_pos rfl, hhost, hseq, Nat.mod_mod] at hstep
        rw [hnotes, if_pos rfl] at hincreasing
        rw [if_pos rfl]
        refine ⟨h.counter, h.sent, hincreasing, ?_, ?_, ?_⟩
        · dsimp only
          split
          · exact h.accepted.cons_cons _
          · exact h.accepted.cons _
        · rintro q hq
          rcases List.mem_cons.1 hq with rfl | hq
          · exact List.mem_cons_self
          · exact List.mem_cons_of_mem _ (h.arrived q hq)
        · rintro q hq
          cases hq
          dsimp only
          rw [hstep, Function.update_self]
    · cases hn
  · cases hn

theorem SerialWorld.ordered (h : (serialMachine c me).Reach SerialWorld.Unwrapped w) : w.Ordered me := by
  refine h.inv (I := SerialWorld.Ordered me) ?_ ?_
  · rintro s ⟨hcounter, hsent, -, harrived, hnoted, haccepted⟩
    refine ⟨hcounter, by simp [hsent], ?_, by simp [haccepted], by simp [hnoted], by simp [hnoted]⟩
    rw [hnoted]
    exact List.Pairwise.nil
  · intro s t a hs hok hn
    cases a with
    | send h => exact hs.send (c := c) h hn
    | deliver i => exact hs.deliver hok hn
    | own a => exact hs.own hn

/-- As long as no packet from before a wrap comes after one from behind it, the packets accepted, and all those whose
number is noted, have increasing positions, over any number of wraps; the first one that does breaks the order. -/
theorem accepted_in_order_iff (h : (serialMachine c me).Reach SerialWorld.Unwrapped w) :
    Increasing w.accepted ∧ Increasing w.noted ∧
      ∀ a w', serialNext c me w a = some w' → (Increasing w'.noted ↔ w.Unwrapped a) := by
  have hordered := SerialWorld.ordered h
  refine ⟨hordered.increasing.sublist hordered.accepted, hordered.increasing, ?_⟩
  rintro a w' hn
  cases a with
  | send t => exact iff_of_true (hordered.send t hn).increasing trivial
  | own a => exact iff_of_true (hordered.own hn).increasing trivial
  | deliver i =>
    simp only [serialNext] at hn
    split at hn
    · rename_i p hi
      split at hn
      · rename_i hwindow
        obtain ⟨d, -, rfl⟩ := Option.map_eq_some_iff.1 hn
        rw [hordered.noted_iff (List.mem_of_getElem? hi) hwindow]
        simp only [SerialWorld.Unwrapped, hi, Option.mem_def, Option.some.injEq, forall_eq']
      · cases hn
    · cases hn

end

/-! ## Around a wrap -/

/-- A host that has sent `n` packets, and another one that is about to listen. -/
def serialStart (c : HaConfig) (n : Nat) : SerialWorld :=
  ⟨BitVec.ofNat 32 n, n, [],
    ⟨SfWorld.initial c.myIndex 0 activeDisk activeDisk 0, .initial c.myIndex, fun _ => 0, fun _ => [], fun _ => []⟩,
    [], [], []⟩

theorem serialStart_init (c : HaConfig) (me n : Nat) : (serialMachine c me).init (serialStart c n) :=
  ⟨by simp [serialStart], rfl, ⟨⟨0, activeDisk, activeDisk, 0, le_rfl, rfl⟩, fun _ => ⟨rfl, rfl⟩⟩, rfl, rfl, rfl⟩

/-- Packets on both sides of a wrap, one of which comes late. -/
theorem accepted_in_order_iff_wrap : ∃ w, (serialMachine receivingPair 0).Reachable w ∧
    w.accepted = [2 ^ 32 + 1, 2 ^ 32 - 1] ∧ Increasing w.accepted := by
  have hrun : ∃ w, (serialMachine receivingPair 0).Reach SerialWorld.Unwrapped w ∧
      decide (w.accepted = [2 ^ 32 + 1, 2 ^ 32 - 1]) = true :=
    Machine.reach_of_check (serialStart_init receivingPair 0 (2 ^ 32 - 2))
      [.own (.others (fun _ => false) (listeningHost 1)), .send sendingHost, .send sendingHost, .send sendingHost,
        .deliver 2, .deliver 0, .deliver 1] _ (by decide +kernel)
  obtain ⟨w, hw, hp⟩ := hrun
  exact ⟨w, hw.mono fun _ _ _ => trivial, of_decide_eq_true hp, (accepted_in_order_iff hw).1⟩

/-- The packets of a host whose state does not change, the last one first. -/
def countedPackets (me : Nat) (h : Host) : Nat → List CountedPacket
  | 0 => []
  | n + 1 => ⟨hbPacket me ((n + 1) % 2 ^ 32) h, n + 1⟩ :: countedPackets me h n

theorem countedPackets_getElem? (me : Nat) (h : Host) : ∀ n i, i < n →
    (countedPackets me h n)[i]? = some ⟨hbPacket me ((n - i) % 2 ^ 32) h, n - i⟩
  | 0, _, hi => absurd hi (Nat.not_lt_zero _)
  | n + 1, 0, _ => rfl
  | n + 1, i + 1, hi => by
    rw [countedPackets, List.getElem?_cons_succ, countedPackets_getElem? me h n i (Nat.lt_of_succ_lt_succ hi),
      Nat.add_sub_add_right]

/-- A host sends any number of packets before the first one arrives. -/
theorem countedPackets_reachable {c : HaConfig} {me : Nat} (h : Host) {d : DomainWorld}
    (hd : (serialMachine c me).Reachable ⟨0, 0, [], d, [], [], []⟩) (n : Nat) :
    (serialMachine c me).Reachable ⟨BitVec.ofNat 32 n, n, countedPackets me h n, d, [], [], []⟩ := by
  induction n with
  | zero => exact hd
  | succ n ih =>
    refine ih.step (a := .send h) trivial ?_
    have hnext : (BitVec.ofNat 32 n + 1 : MtcU32) = BitVec.ofNat 32 (n + 1) := by bv_omega
    dsimp only [serialMachine, serialNext]
    rw [hnext, BitVec.toNat_ofNat, countedPackets]

/-- A listening host accepts a packet that passes the check. -/
theorem SerialWorld.accepts {c : HaConfig} {me i : Nat} {w : SerialWorld} {p : CountedPacket} (hlisten : w.domain.Listening)
    (hme : me < c.hostnum) (hi : w.sent[i]? = some p) (hhost : p.pkt.hostIndex = me)
    (hwindow : ∀ q ∈ w.arrived, q < p.position + 2 ^ 31)
    (hnew : newerSequence (BitVec.ofNat 32 (w.domain.hbSequence me)) (BitVec.ofNat 32 p.pkt.sequence) = true) :
    ∃ w', serialNext c me w (.deliver i) = some w' ∧ w'.domain.Listening ∧ w'.sent = w.sent ∧
      w'.arrived = p.position :: w.arrived ∧ w'.accepted = p.position :: w.accepted ∧
      w'.domain.hbSequence me = p.pkt.sequence % 2 ^ 32 := by
  obtain ⟨d, hd, hlisten', hheard, hseq⟩ := hlisten.accepts (c := c) (by rw [hhost]; exact hme) (by rw [hhost]; exact hnew)
  rw [hhost] at hheard hseq
  refine ⟨{ w with
    domain := d
    arrived := p.position :: w.arrived
    noted := if w.domain.notes p.pkt then p.position :: w.noted else w.noted
    accepted := if (d.heard me).length ≠ (w.domain.heard me).length then p.position :: w.accepted else w.accepted },
    ?_, hlisten', rfl, rfl, ?_, ?_⟩
  · simp only [serialNext, hi]
    rw [if_pos hwindow, hd]
    rfl
  · dsimp only
    rw [hheard, Function.update_self, if_pos (by simp)]
  · dsimp only
    rw [hseq, Function.update_self]

/-- A packet from before the wrap arrives after one from behind it, three positions later, and is accepted. -/
theorem packet_from_before_wrap_is_accepted : ∃ w, (serialMachine receivingPair 0).Reachable w ∧
    w.accepted = [2 ^ 32 - 1, 2 ^ 32 + 2] ∧ ¬Increasing w.accepted := by
  obtain ⟨d, hd, hlisten, hzero⟩ : ∃ d : DomainWorld,
      (serialMachine receivingPair 0).Reachable ⟨0, 0, [], d, [], [], []⟩ ∧ d.Listening ∧ ∀ j, d.hbSequence j = 0 :=
    ⟨_, .step (a := .own (.others (fun _ => false) (listeningHost 1))) (.init (serialStart_init receivingPair 0 0)) trivial
      rfl, ⟨rfl, rfl, rfl, rfl⟩, fun _ => rfl⟩
  have hpeer : 0 < receivingPair.hostnum := by decide
  have hsent := countedPackets_reachable sendingHost hd (2 ^ 32 + 2)
  have hfirst := countedPackets_getElem? 0 sendingHost (2 ^ 32 + 2) 0 (by omega)
  have hlate := countedPackets_getElem? 0 sendingHost (2 ^ 32 + 2) 3 (by omega)
  generalize countedPackets 0 sendingHost (2 ^ 32 + 2) = sent at hsent hfirst hlate
  obtain ⟨w, hw, hlisten, hkept, harrived, haccepted, hseq⟩ := SerialWorld.accepts (i := 0)
    (w := ⟨BitVec.ofNat 32 (2 ^ 32 + 2), 2 ^ 32 + 2, sent, d, [], [], []⟩) hlisten hpeer hfirst rfl nofun
    (by rw [hzero]; decide)
  obtain ⟨w', hw', -, -, -, haccepted', -⟩ := SerialWorld.accepts (i := 3) (w := w) hlisten hpeer
    ((congrArg (·[3]?) hkept).trans hlate) rfl (by rw [harrived]; simp) (by rw [hseq]; decide)
  have hr : (serialMachine receivingPair 0).Reachable w := hsent.step (a := .deliver 0) trivial hw
  have hall : w'.accepted = [2 ^ 32 - 1, 2 ^ 32 + 2] := haccepted'.trans (congrArg _ haccepted)
  refine ⟨w', hr.step (a := .deliver 3) trivial hw', hall, ?_⟩
  rw [hall]
  rintro hincreasing
  have hlt := (List.pairwise_cons.1 hincreasing).1 (2 ^ 32 + 2) (List.mem_singleton.2 rfl)
  omega

end Xha
