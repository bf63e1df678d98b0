/-
The order of the snapshots one host sends of itself (heartbeat.c): `send_hb` takes the sequence number under
the spinlock and the snapshot under the locks of the objects, in two sections that several threads of the
daemon enter. `receive_hb` goes by the sequence numbers, so it keeps the newest snapshot for every order of
the packets exactly when the snapshots are taken in the order of the numbers (`newest_stored_iff`). One way the
stored packets are kept in the order of their numbers by every step of the receiver; the other way two packets out
of order are delivered in the order of their numbers to a receiver that has heard nothing yet.
-/
import Xha.Sm.Membership

namespace Xha

open Loop Transition

/-! ## The sending host -/

/-- A packet with the time of its snapshot. -/
structure SentPacket where
  pkt : HbPacket
  time : Nat
  deriving DecidableEq

/-- Where a thread stands in `send_hb`: the flag checked, the number taken, the packet composed. -/
inductive SendPc
  | idle
  | enabled
  | numbered (sequence : MtcU32)
  | composed (packet : SentPacket)

/-- The host with its threads and the packets sent; the time counts the steps. -/
structure Sender where
  host : Host
  sequence : MtcU32
  thread : Nat → SendPc
  time : Nat
  sent : List SentPacket

inductive SenderAction
  | check (thread : Nat)
  | number (thread : Nat)
  | snapshot (thread : Nat)
  | send (thread : Nat)
  | change (h : Host)

/-- Fewer than 2^31 packets are numbered. -/
def senderNext (me : Nat) (w : Sender) (a : SenderAction) : Option Sender :=
  let w := { w with time := w.time + 1 }
  match a with
  | .check i => match w.thread i with
    | .idle => if w.host.hb.ctl.enableHbSend then some { w with thread := Function.update w.thread i .enabled } else some w
    | _ => none
  | .number i => match w.thread i with
    | .enabled =>
      if w.sequence.toNat + 1 < 2 ^ 31 then some { w with
        sequence := w.sequence + 1
        thread := Function.update w.thread i (.numbered (w.sequence + 1)) }
      else none
    | _ => none
  | .snapshot i => match w.thread i with
    | .numbered sequence => some { w with
        host := { w.host with hb := { w.host.hb with smPhase := Function.update w.host.hb.smPhase me w.host.sm.phase } }
        thread := Function.update w.thread i (.composed ⟨hbPacket me sequence.toNat w.host, w.time⟩) }
    | _ => none
  | .send i => match w.thread i with
    | .composed p => some { w with thread := Function.update w.thread i .idle, sent := p :: w.sent }
    | _ => none
  | .change h => some { w with host := h }

/-- The daemon starts with sequence number 0. -/
def senderMachine (me : Nat) : Machine Sender SenderAction where
  init w := w.sequence = 0 ∧ (∀ i, w.thread i = .idle) ∧ w.sent = []
  next := senderNext me

/-! ## The receiving host -/

/-- Another host, with the packets whose snapshots it has stored, the last one first. -/
structure Receiver where
  domain : DomainWorld
  stored : List SentPacket

inductive ReceiverAction
  | deliver (i : Nat)
  | own (a : DomainAction)

instance (c : HaConfig) (now : MtcClock) (h : Host) (j : Nat) : Decidable (HbFresh c now h j) := by
  unfold HbFresh; infer_instance

/-- The steps that are not about the sender: its packets are delivered, and it does not time out. -/
def Receiver.allows (c : HaConfig) (sender : Nat) (w : Receiver) : DomainAction → Bool
  | .receiveHb pkt => pkt.hostIndex ≠ sender
  | .updateHbdomain => w.stored.isEmpty || decide (HbFresh c w.domain.daemon.clock w.domain.host sender)
  | _ => true

/-- A packet can come late, twice or not at all. -/
def receiverNext (c : HaConfig) (sender : Nat) (sent : List SentPacket) (w : Receiver) : ReceiverAction → Option Receiver
  | .deliver i => match sent[i]? with
    | some p => (domainNext c w.domain (.receiveHb p.pkt)).map fun d =>
      ⟨d, if (d.heard sender).length ≠ (w.domain.heard sender).length then p :: w.stored else w.stored⟩
    | none => none
  | .own a => if w.allows c sender a then (domainNext c w.domain a).map fun d => { w with domain := d } else none

/-- The receiver has nothing of the sender yet. It does not act on the sender, so whatever it receives in the
meantime are packets the sender has sent in the end. -/
def receiverMachine (c : HaConfig) (sender : Nat) (sent : List SentPacket) : Machine Receiver ReceiverAction where
  init w := (domainMachine c).init w.domain ∧ w.stored = []
  next := receiverNext c sender sent

/-! ## Numbers -/

/-- The numbers a host uses are from 1 to 2^31 - 1. -/
structure SentPacket.Numbered (me : Nat) (p : SentPacket) : Prop where
  pos : 0 < p.pkt.sequence
  lt : p.pkt.sequence < 2 ^ 31
  host : p.pkt.hostIndex = me

/-- Between such numbers the check is the order. -/
theorem newerSequence_iff {last n : Nat} (hl : last < 2 ^ 31) (hn : n < 2 ^ 31) :
    newerSequence (BitVec.ofNat 32 last) (BitVec.ofNat 32 n) = true ↔ last < n := by
  unfold newerSequence
  rw [Bool.or_eq_true, decide_eq_true_eq, decide_eq_true_eq]
  constructor
  · rintro (h | h) <;> bv_omega
  · intro h
    left
    bv_omega

structure Sender.Numbers (me : Nat) (w : Sender) : Prop where
  sequence : w.sequence.toNat < 2 ^ 31
  numbered : ∀ i n, w.thread i = .numbered n → 0 < n.toNat ∧ n.toNat < 2 ^ 31
  composed : ∀ i p, w.thread i = .composed p → p.Numbered me
  sent : ∀ p ∈ w.sent, p.Numbered me

/-- Thread `i` moves on to a place that keeps the numbers. -/
theorem Sender.Numbers.thread {me : Nat} {w : Sender} (h : w.Numbers me) (i : Nat) (pc : SendPc)
    (hn : ∀ n, pc = .numbered n → 0 < n.toNat ∧ n.toNat < 2 ^ 31) (hc : ∀ p, pc = .composed p → p.Numbered me) (time : Nat) :
    ({ w with time := time, thread := Function.update w.thread i pc } : Sender).Numbers me := by
  refine ⟨h.sequence, fun j n hj => ?_, fun j p hj => ?_, h.sent⟩
  · by_cases hji : j = i
    · subst hji
      have hself : Function.update w.thread j pc j = pc := Function.update_self ..
      exact hn n (hself.symm.trans hj)
    · have hother : Function.update w.thread i pc j = w.thread j := Function.update_of_ne hji ..
      exact h.numbered j n (hother.symm.trans hj)
  · by_cases hji : j = i
    · subst hji
      have hself : Function.update w.thread j pc j = pc := Function.update_self ..
      exact hc p (hself.symm.trans hj)
    · have hother : Function.update w.thread i pc j = w.thread j := Function.update_of_ne hji ..
      exact h.composed j p (hother.symm.trans hj)

theorem Sender.Numbers.next {me : Nat} {w w' : Sender} {a : SenderAction} (h : w.Numbers me)
    (hn : senderNext me w a = some w') : w'.Numbers me := by
  cases a with
  | check i =>
    simp only [senderNext] at hn
    split at hn
    · split at hn <;> cases hn
      · exact h.thread i .enabled (fun _ hp => by cases hp) (fun _ hp => by cases hp) _
      · exact ⟨h.sequence, h.numbered, h.composed, h.sent⟩
    · cases hn
  | number i =>
    simp only [senderNext] at hn
    split at hn
    · split at hn <;> cases hn
      rename_i hlt
      have hnext : (w.sequence + 1).toNat = w.sequence.toNat + 1 := by bv_omega
      have hthread := h.thread i (.numbered (w.sequence + 1)) (fun n hn => by cases hn; omega)
        (fun _ hp => by cases hp) (w.time + 1)
      exact ⟨by dsimp only; omega, hthread.numbered, hthread.composed, hthread.sent⟩
    · cases hn
  | snapshot i =>
    simp only [senderNext] at hn
    split at hn
    · rename_i sequence hi
      cases hn
      obtain ⟨hpos, hlt⟩ := h.numbered i sequence hi
      have hthread := h.thread i (.composed ⟨hbPacket me sequence.toNat w.host, w.time + 1⟩)
        (fun _ hp => by cases hp) (fun p hp => by cases hp; exact ⟨hpos, hlt, rfl⟩) (w.time + 1)
      exact ⟨hthread.sequence, hthread.numbered, hthread.composed, hthread.sent⟩
    · cases hn
  | send i =>
    simp only [senderNext] at hn
    split at hn
    · rename_i p hi
      cases hn
      have hthread := h.thread i .idle (fun _ hp => by cases hp) (fun _ hp => by cases hp) (w.time + 1)
      refine ⟨h.sequence, hthread.numbered, hthread.composed, fun q hq => ?_⟩
      rcases List.mem_cons.1 hq with rfl | hq
      · exact h.composed i q hi
      · exact h.sent q hq
    · cases hn
  | change t => cases hn; exact ⟨h.sequence, h.numbered, h.composed, h.sent⟩

theorem Sender.numbers {me : Nat} {w : Sender} (h : (senderMachine me).Reachable w) : w.Numbers me := by
  refine h.inv (I := Sender.Numbers me) ?_ fun s t a hs _ hn => hs.next hn
  rintro s ⟨hzero, hidle, hnil⟩
  refine ⟨by rw [hzero]; decide, fun i n hi => ?_, fun i p hi => ?_, fun p hp => ?_⟩
  · rw [hidle i] at hi
    cases hi
  · rw [hidle i] at hi
    cases hi
  · rw [hnil] at hp
    cases hp

/-! ## What a step of the receiver does to the number and the history of the sender -/

section

variable {c : HaConfig} {d d' : DomainWorld}

/-- A packet is too old, dropped with its number noted, or accepted. -/
inductive PacketStep (pkt : HbPacket) (d d' : DomainWorld) : Prop
  | ignored : d'.heard = d.heard → d'.hbSequence = d.hbSequence → d'.daemon.hb = d.daemon.hb → PacketStep pkt d d'
  | dropped : newerSequence (BitVec.ofNat 32 (d.hbSequence pkt.hostIndex)) (BitVec.ofNat 32 pkt.sequence) = true →
      d'.heard = d.heard → d'.hbSequence = Function.update d.hbSequence pkt.hostIndex (pkt.sequence % 2 ^ 32) →
      d'.daemon.hb = d.daemon.hb → PacketStep pkt d d'
  | accepted : newerSequence (BitVec.ofNat 32 (d.hbSequence pkt.hostIndex)) (BitVec.ofNat 32 pkt.sequence) = true →
      d'.heard = Function.update d.heard pkt.hostIndex ((d.daemon.clock, pkt) :: d.heard pkt.hostIndex) →
      d'.hbSequence = Function.update d.hbSequence pkt.hostIndex (pkt.sequence % 2 ^ 32) →
      d'.daemon.hb.raw = Function.update d.daemon.hb.raw pkt.hostIndex pkt.raw →
      d'.daemon.hb.smPhase = Function.update d.daemon.hb.smPhase pkt.hostIndex pkt.smPhase → PacketStep pkt d d'

theorem domainNext_receiveHb {pkt : HbPacket} (hn : domainNext c d (.receiveHb pkt) = some d') : PacketStep pkt d d' := by
  simp only [domainNext] at hn
  split at hn
  · unfold DomainWorld.receiveHb at hn
    dsimp only at hn
    split at hn
    · cases hn; exact .ignored rfl rfl rfl
    · split at hn
      · rename_i hnew
        split at hn
        · cases hn; exact .dropped hnew rfl rfl rfl
        · split at hn <;> cases hn
          refine .accepted hnew rfl rfl ?_ ?_ <;>
            simp only [DomainWorld.setHost, Host.updateHbData_hb, DomainWorld.host]
      · cases hn; exact .ignored rfl rfl rfl
  · cases hn

/-- The number of a host with a fresh heartbeat stays. -/
theorem updateHbdomain_keeps {now : MtcClock} {h : Host} {sequence : Nat → Nat} {j : Nat} (hfresh : HbFresh c now h j) :
    (updateHbdomain c now h sequence).sequence j = sequence j := by
  refine forRange_inv (n := c.hostnum) (s := (⟨false, h.hb.hbdomain, sequence⟩ : HbUpdate)) (f := updateHbHost c now h)
    (fun _ s => s.sequence j = sequence j) rfl fun k s _ hs => ?_
  by_cases hkj : k = j
  · subst hkj
    unfold HbFresh at hfresh
    unfold updateHbHost
    dsimp only
    split_ifs <;> exact hs
  · unfold updateHbHost
    dsimp only
    split_ifs <;> simp only [Function.update_of_ne (Ne.symm hkj), hs]

/-- The steps that are neither about the sender nor an update of the domain leave its number and history alone. -/
theorem domainNext_keeps {a : DomainAction} {sender : Nat} (hpkt : ∀ pkt, a = .receiveHb pkt → pkt.hostIndex ≠ sender)
    (hupdate : a ≠ .updateHbdomain) (hn : domainNext c d a = some d') :
    d'.heard sender = d.heard sender ∧ d'.hbSequence sender = d.hbSequence sender := by
  cases a with
  | sfThread a =>
    simp only [domainNext] at hn
    split at hn
    · cases hn
    · obtain ⟨e, -, rfl⟩ := Option.map_eq_some_iff.1 hn
      exact ⟨rfl, rfl⟩
  | stateFile disk => cases hn; exact ⟨rfl, rfl⟩
  | updateSfdomain => cases hn; exact ⟨rfl, rfl⟩
  | updateHbdomain => exact absurd rfl hupdate
  | receiveHb pkt =>
    have hne : sender ≠ pkt.hostIndex := Ne.symm (hpkt pkt rfl)
    cases domainNext_receiveHb hn with
    | ignored hheard hseq _ => exact ⟨by rw [hheard], by rw [hseq]⟩
    | dropped _ hheard hseq _ => exact ⟨by rw [hheard], by rw [hseq, Function.update_of_ne hne]⟩
    | accepted _ hheard hseq _ _ =>
      exact ⟨by rw [hheard, Function.update_of_ne hne], by rw [hseq, Function.update_of_ne hne]⟩
  | others mask h => cases hn; exact ⟨rfl, rfl⟩

/-- The receiver's own steps leave the sender's number and history alone. -/
theorem domainNext_own {a : DomainAction} {r : Receiver} {sender : Nat} (hallow : r.allows c sender a = true)
    (hn : domainNext c r.domain a = some d') : d'.heard sender = r.domain.heard sender ∧
      (r.stored ≠ [] → d'.hbSequence sender = r.domain.hbSequence sender) := by
  by_cases hupdate : a = .updateHbdomain
  · subst hupdate
    cases hn
    refine ⟨rfl, fun hne => ?_⟩
    simp only [Receiver.allows, Bool.or_eq_true, List.isEmpty_iff, decide_eq_true_eq] at hallow
    exact updateHbdomain_keeps (hallow.resolve_left hne)
  · have hpkt : ∀ pkt, a = .receiveHb pkt → pkt.hostIndex ≠ sender := by
      rintro pkt rfl
      exact of_decide_eq_true hallow
    obtain ⟨hheard, hseq⟩ := domainNext_keeps hpkt hupdate hn
    exact ⟨hheard, fun _ => hseq⟩

end

/-! ## In the order of the numbers -/

/-- The snapshots of the packets are taken in the order of their numbers. -/
def InOrder (sent : List SentPacket) : Prop :=
  ∀ p ∈ sent, ∀ q ∈ sent, p.pkt.sequence < q.pkt.sequence → p.time ≤ q.time

/-- A snapshot is never replaced by an older one. -/
def Newest (stored : List SentPacket) : Prop := stored.Pairwise fun p q => q.time ≤ p.time

/-- What is stored is in order and not after the last number. -/
structure Receiver.Ordered (sender : Nat) (sent : List SentPacket) (w : Receiver) : Prop where
  newest : Newest w.stored
  sent : ∀ p ∈ w.stored, p ∈ sent
  upTo : ∀ p ∈ w.stored, p.pkt.sequence ≤ w.domain.hbSequence sender
  bound : w.stored ≠ [] → w.domain.hbSequence sender < 2 ^ 31

theorem Receiver.Ordered.next {c : HaConfig} {me : Nat} {sent : List SentPacket} {w w' : Receiver} {a : ReceiverAction}
    (hnum : ∀ p ∈ sent, p.Numbered me) (hord : InOrder sent) (h : w.Ordered me sent)
    (hn : receiverNext c me sent w a = some w') : w'.Ordered me sent := by
  cases a with
  | own a =>
    simp only [receiverNext] at hn
    split at hn
    · rename_i hallow
      obtain ⟨d, hd, rfl⟩ := Option.map_eq_some_iff.1 hn
      obtain ⟨-, hseq⟩ := domainNext_own hallow hd
      refine ⟨h.newest, h.sent, fun p hp => ?_, fun hne => ?_⟩
      · dsimp only
        rw [hseq (List.ne_nil_of_mem hp)]
        exact h.upTo p hp
      · dsimp only
        rw [hseq hne]
        exact h.bound hne
    · cases hn
  | deliver i =>
    simp only [receiverNext] at hn
    split at hn
    · rename_i p hi
      have hp : p ∈ sent := List.mem_of_getElem? hi
      obtain ⟨hpos, hlt, hhost⟩ := hnum p hp
      obtain ⟨d, hd, rfl⟩ := Option.map_eq_some_iff.1 hn
      have hmod : p.pkt.sequence % 2 ^ 32 = p.pkt.sequence := Nat.mod_eq_of_lt (by omega)
      -- a packet that passes the check is later than all that are stored
      have hlater : newerSequence (BitVec.ofNat 32 (w.domain.hbSequence p.pkt.hostIndex)) (BitVec.ofNat 32 p.pkt.sequence)
          = true → ∀ q ∈ w.stored, q.pkt.sequence < p.pkt.sequence := by
        intro hnew q hq
        rw [hhost, newerSequence_iff (h.bound (List.ne_nil_of_mem hq)) hlt] at hnew
        exact lt_of_le_of_lt (h.upTo q hq) hnew
      cases domainNext_receiveHb hd with
      | ignored hheard hseq _ =>
        rw [hheard, if_neg (by simp)]
        exact ⟨h.newest, h.sent, by rw [hseq]; exact h.upTo, by rw [hseq]; exact h.bound⟩
      | dropped hnew hheard hseq _ =>
        rw [hheard, if_neg (by simp)]
        rw [hhost, hmod] at hseq
        refine ⟨h.newest, h.sent, fun q hq => ?_, fun _ => ?_⟩
        · rw [hseq, Function.update_self]
          exact (hlater hnew q hq).le
        · rw [hseq, Function.update_self]
          exact hlt
      | accepted hnew hheard hseq _ _ =>
        rw [hheard, hhost, Function.update_self, if_pos (by simp)]
        rw [hhost, hmod] at hseq
        refine ⟨List.pairwise_cons.2 ⟨fun q hq => ?_, h.newest⟩, fun q hq => ?_, fun q hq => ?_, fun _ => ?_⟩
        · exact hord q (h.sent q hq) p hp (hlater hnew q hq)
        · rcases List.mem_cons.1 hq with rfl | hq
          · exact hp
          · exact h.sent q hq
        · rw [hseq, Function.update_self]
          rcases List.mem_cons.1 hq with rfl | hq
          · exact le_rfl
          · exact (hlater hnew q hq).le
        · rw [hseq, Function.update_self]
          exact hlt
    · cases hn

theorem Receiver.ordered {c : HaConfig} {me : Nat} {sent : List SentPacket} (hnum : ∀ p ∈ sent, p.Numbered me)
    (hord : InOrder sent) {w : Receiver} (h : (receiverMachine c me sent).Reachable w) : w.Ordered me sent := by
  refine h.inv (I := Receiver.Ordered me sent) ?_ fun s t a hs _ hn => hs.next hnum hord hn
  rintro ⟨domain, stored⟩ ⟨-, hnil⟩
  dsimp only at hnil
  subst hnil
  constructor
  · exact List.Pairwise.nil
  · rintro p hp
    exact absurd hp List.not_mem_nil
  · rintro p hp
    exact absurd hp List.not_mem_nil
  · rintro hne
    exact absurd rfl hne

/-- The last packet stored is what the receiver has of the sender, its domains masked by then or not. -/
structure Receiver.Shows (n sender : Nat) (w : Receiver) (p : SentPacket) : Prop where
  smPhase : w.domain.daemon.hb.smPhase sender = p.pkt.smPhase
  raw : w.domain.daemon.hb.raw sender = p.pkt.raw ∨ w.domain.daemon.hb.raw sender = p.pkt.raw.maskUnconfig n

theorem Receiver.Shows.own {c : HaConfig} {sender : Nat} {w : Receiver} {p : SentPacket} {a : DomainAction} {d : DomainWorld}
    (hsender : sender ≠ c.myIndex) (h : w.Shows c.hostnum sender p) (hallow : w.allows c sender a = true)
    (hn : domainNext c w.domain a = some d) : (⟨d, w.stored⟩ : Receiver).Shows c.hostnum sender p := by
  obtain ⟨hphase, hraw⟩ := h
  cases a with
  | sfThread a =>
    simp only [domainNext] at hn
    split at hn
    · cases hn
    · rename_i hobjects
      obtain ⟨e, he, rfl⟩ := Option.map_eq_some_iff.1 hn
      have hhb := (sfNext_records he (by simpa using hobjects)).hb
      exact ⟨by dsimp only; rw [hhb]; exact hphase, by dsimp only; rw [hhb]; exact hraw⟩
  | stateFile disk => cases hn; exact ⟨hphase, hraw⟩
  | updateSfdomain => cases hn; exact ⟨hphase, hraw⟩
  | updateHbdomain => cases hn; exact ⟨hphase, hraw⟩
  | receiveHb pkt =>
    have hpkt : sender ≠ pkt.hostIndex := Ne.symm (of_decide_eq_true hallow)
    cases domainNext_receiveHb hn with
    | ignored _ _ hhb => exact ⟨by dsimp only; rw [hhb]; exact hphase, by dsimp only; rw [hhb]; exact hraw⟩
    | dropped _ _ _ hhb => exact ⟨by dsimp only; rw [hhb]; exact hphase, by dsimp only; rw [hhb]; exact hraw⟩
    | accepted _ _ _ h1 h2 =>
      constructor
      · dsimp only
        rw [h2, Function.update_of_ne hpkt]
        exact hphase
      · dsimp only
        rw [h1, Function.update_of_ne hpkt]
        exact hraw
  | others mask t =>
    cases hn
    refine ⟨(if_neg hsender).trans hphase, ?_⟩
    dsimp only [DomainWorld.setHost, otherThreads, DomainWorld.host]
    rw [if_neg hsender]
    split
    · rcases hraw with hr | hr <;> rw [hr]
      · exact .inr rfl
      · exact .inr (RawData.maskUnconfig_twice ..)
    · exact hraw

theorem Receiver.shows_stored {c : HaConfig} {me : Nat} {sent : List SentPacket} (hme : me ≠ c.myIndex)
    (hnum : ∀ p ∈ sent, p.Numbered me) {w : Receiver} (h : (receiverMachine c me sent).Reachable w) {p : SentPacket}
    {rest : List SentPacket} (hp : w.stored = p :: rest) : w.Shows c.hostnum me p := by
  have hinv : ∀ p rest, w.stored = p :: rest → w.Shows c.hostnum me p := by
    refine h.inv (I := fun w => ∀ p rest, w.stored = p :: rest → w.Shows c.hostnum me p) ?_ ?_
    · rintro s ⟨-, hnil⟩ p rest hp
      rw [hnil] at hp
      cases hp
    · intro s t a hs _ hn p rest hp
      cases a with
      | own a =>
        simp only [receiverMachine, receiverNext] at hn
        split at hn
        · rename_i hallow
          obtain ⟨d, hd, rfl⟩ := Option.map_eq_some_iff.1 hn
          exact (hs p rest hp).own hme hallow hd
        · cases hn
      | deliver i =>
        simp only [receiverMachine, receiverNext] at hn
        split at hn
        · rename_i q hi
          have hhost := (hnum q (List.mem_of_getElem? hi)).host
          obtain ⟨d, hd, rfl⟩ := Option.map_eq_some_iff.1 hn
          have hkept : d.heard = s.domain.heard → d.daemon.hb = s.domain.daemon.hb →
              (⟨d, if (d.heard me).length ≠ (s.domain.heard me).length then q :: s.stored else s.stored⟩ : Receiver).Shows
                c.hostnum me p := by
            intro hheard hhb
            dsimp only at hp
            rw [hheard, if_neg (by simp)] at hp
            obtain ⟨h1, h2⟩ := hs p rest hp
            exact ⟨by dsimp only; rw [hhb]; exact h1, by dsimp only; rw [hhb]; exact h2⟩
          cases domainNext_receiveHb hd with
          | ignored hheard _ hhb => exact hkept hheard hhb
          | dropped _ hheard _ hhb => exact hkept hheard hhb
          | accepted _ hheard _ h1 h2 =>
            dsimp only at hp
            rw [hheard, hhost, Function.update_self, if_pos (by simp)] at hp
            cases hp
            constructor
            · dsimp only
              rw [h2, hhost, Function.update_self]
            · dsimp only
              rw [h1, hhost, Function.update_self]
              exact .inl rfl
        · cases hn
  exact hinv p rest hp

/-! ## Out of order -/

section

variable {c : HaConfig} {d : DomainWorld}

/-- A starting host that accepts heartbeats. -/
structure DomainWorld.Listening (d : DomainWorld) : Prop where
  enabled : d.daemon.hb.ctl.enableHbReceive = true
  alone : d.daemon.sm.currentLiveset = .empty
  fencing : d.smvar.fencing = .none ∧ d.daemon.sm.fencing = .none

theorem DomainWorld.Listening.accepts {pkt : HbPacket} (h : d.Listening) (hhost : pkt.hostIndex < c.hostnum)
    (hnew : newerSequence (BitVec.ofNat 32 (d.hbSequence pkt.hostIndex)) (BitVec.ofNat 32 pkt.sequence) = true) :
    ∃ d', domainNext c d (.receiveHb pkt) = some d' ∧ d'.Listening ∧
      d'.heard = Function.update d.heard pkt.hostIndex ((d.daemon.clock, pkt) :: d.heard pkt.hostIndex) ∧
      d'.hbSequence = Function.update d.hbSequence pkt.hostIndex (pkt.sequence % 2 ^ 32) := by
  obtain ⟨henabled, halone, hfencing, hmode⟩ := h
  have hstarting : pkt.fromStarting ⟨d.daemon.sm, d.daemon.hb, d.daemon.sf, d.smvar⟩ = false := by
    simp [HbPacket.fromStarting, halone]
  have hunlock : ∀ t : Host, t.sm.fencing = .none →
      t.smWriterUnlock = { t with smvar := { t.smvar with sr2 := t.sm.sr2 } } := by
    intro t ht
    unfold Host.smWriterUnlock
    rw [if_neg (by rw [ht]; decide)]
  refine ⟨{ DomainWorld.setHost { d with hbSequence := Function.update d.hbSequence pkt.hostIndex (pkt.sequence % 2 ^ 32) }
    (d.host.updateHbData d.daemon.clock pkt) with
      heard := Function.update d.heard pkt.hostIndex ((d.daemon.clock, pkt) :: d.heard pkt.hostIndex) },
    ?_, ?_, rfl, rfl⟩
  · unfold domainNext DomainWorld.receiveHb
    dsimp only [DomainWorld.host]
    have hfence : ¬ (pkt.fenceRequest = true ∧ pkt.raw.currentLiveset.isOn pkt.hostIndex = true ∧
        pkt.raw.proposedLiveset.isOn c.myIndex = false ∧ d.smvar.fencing = .armed) := by
      rw [hfencing]
      rintro ⟨-, -, -, hf⟩
      cases hf
    rw [if_pos hhost, if_neg (by rw [henabled]; decide), if_pos hnew]
    split
    · rename_i hs
      exact absurd hs (Bool.eq_false_iff.1 hstarting)
    · rfl
  · unfold Host.updateHbData
    rw [hunlock _ (by exact hmode)]
    exact ⟨henabled, halone, hfencing, hmode⟩

/-- The receiver before the first packet, with the reception on. -/
def listeningHost (me : Nat) : Host :=
  { Host.initial me with hb := { ComDataHb.initial with ctl := ⟨true, true, false, false⟩ } }

theorem listening_reachable (c : HaConfig) (sender : Nat) (sent : List SentPacket) :
    ∃ d : DomainWorld, (receiverMachine c sender sent).Reachable ⟨d, []⟩ ∧ d.Listening ∧ (∀ j, d.heard j = []) ∧
      ∀ j, d.hbSequence j = 0 := by
  have hinit : (receiverMachine c sender sent).init
      ⟨⟨SfWorld.initial c.myIndex 0 activeDisk activeDisk 0, .initial c.myIndex, fun _ => 0, fun _ => [], fun _ => []⟩, []⟩ :=
    ⟨⟨⟨0, activeDisk, activeDisk, 0, le_rfl, rfl⟩, fun _ => ⟨rfl, rfl⟩⟩, rfl⟩
  exact ⟨_, .step (a := .own (.others (fun _ => false) (listeningHost c.myIndex))) (.init hinit) trivial rfl,
    ⟨rfl, rfl, rfl, rfl⟩, fun _ => rfl, fun _ => rfl⟩

/-- Two packets are both stored when they come in the order of their numbers. -/
theorem stored_by_number {me : Nat} (hme : me < c.hostnum) {sent : List SentPacket} {p q : SentPacket}
    (hp : p ∈ sent) (hq : q ∈ sent) (hpn : p.Numbered me) (hqn : q.Numbered me)
    (hlt : p.pkt.sequence < q.pkt.sequence) :
    ∃ r, (receiverMachine c me sent).Reachable r ∧ r.stored = [q, p] := by
  obtain ⟨d, hd, hlisten, hheard, hseq⟩ := listening_reachable c me sent
  obtain ⟨hpos, hplt, hphost⟩ := hpn
  obtain ⟨-, hqlt, hqhost⟩ := hqn
  have hpmod : p.pkt.sequence % 2 ^ 32 = p.pkt.sequence := Nat.mod_eq_of_lt (by omega)
  obtain ⟨i, hi⟩ := List.getElem?_of_mem hp
  obtain ⟨j, hj⟩ := List.getElem?_of_mem hq
  have hfirst : newerSequence (BitVec.ofNat 32 (d.hbSequence p.pkt.hostIndex)) (BitVec.ofNat 32 p.pkt.sequence) = true := by
    rw [hseq, newerSequence_iff (by decide) hplt]
    exact hpos
  obtain ⟨d1, hd1, hlisten1, hheard1, hseq1⟩ := hlisten.accepts (by rw [hphost]; exact hme) hfirst
  rw [hphost] at hheard1
  rw [hphost, hpmod] at hseq1
  have hsecond : newerSequence (BitVec.ofNat 32 (d1.hbSequence q.pkt.hostIndex))
      (BitVec.ofNat 32 q.pkt.sequence) = true := by
    rw [hqhost, hseq1, Function.update_self, newerSequence_iff hplt hqlt]
    exact hlt
  obtain ⟨d2, hd2, -, hheard2, -⟩ := hlisten1.accepts (by rw [hqhost]; exact hme) hsecond
  rw [hqhost] at hheard2
  have hr1 : (receiverMachine c me sent).Reachable ⟨d1, [p]⟩ := by
    refine hd.step (a := .deliver i) trivial ?_
    dsimp only [receiverMachine, receiverNext]
    rw [hi]
    dsimp only
    rw [hd1, Option.map_some, hheard1, Function.update_self, if_pos (by simp)]
  refine ⟨⟨d2, [q, p]⟩, hr1.step (a := .deliver j) trivial ?_, rfl⟩
  dsimp only [receiverMachine, receiverNext]
  rw [hj]
  dsimp only
  rw [hd2, Option.map_some, hheard2, Function.update_self, if_pos (by simp)]

end

/-- No snapshot of the sender is replaced by an older one, and `raw` and `sm_phase` show the one stored last. -/
structure Receiver.KeepsNewest (c : HaConfig) (sender : Nat) (w : Receiver) : Prop where
  newest : Newest w.stored
  shows : sender ≠ c.myIndex → ∀ p rest, w.stored = p :: rest → w.Shows c.hostnum sender p

/-- A receiver never replaces a snapshot by an older one, whatever it receives of what the host has sent and in
whatever order, if and only if the snapshots of these packets were taken in the order of their numbers. -/
theorem newest_stored_iff {c : HaConfig} {me : Nat} (hme : me < c.hostnum) {w : Sender}
    (h : (senderMachine me).Reachable w) :
    (∀ r, (receiverMachine c me w.sent).Reachable r → r.KeepsNewest c me) ↔ InOrder w.sent := by
  have hnum := (Sender.numbers h).sent
  constructor
  · intro hnew p hp q hq hlt
    obtain ⟨r, hr, hstored⟩ := stored_by_number hme hp hq (hnum p hp) (hnum q hq) hlt
    have hpair := (hnew r hr).newest
    rw [Newest, hstored] at hpair
    exact (List.pairwise_cons.1 hpair).1 p List.mem_cons_self
  · intro hord r hr
    constructor
    · exact (Receiver.ordered hnum hord hr).newest
    · intro hne p rest hp
      exact Receiver.shows_stored hne hnum hr hp

/-! ## Two threads -/

def sendingHost : Host :=
  { Host.initial 0 with hb := { ComDataHb.initial with ctl := ⟨true, true, false, false⟩ } }

def sender : Sender := ⟨sendingHost, 0, fun _ => .idle, 0, []⟩

theorem sender_init : (senderMachine 0).init sender := ⟨rfl, fun _ => rfl, rfl⟩

def receivingPair : HaConfig := watchedPair.at 1 (by decide)

/-- One thread after the other: whatever arrives, the newest snapshot is kept. -/
theorem newest_stored_turns : ∃ w : Sender, w.sent.length = 2 ∧
    ∀ r, (receiverMachine receivingPair 0 w.sent).Reachable r → r.KeepsNewest receivingPair 0 := by
  have hrun : ∃ w, (senderMachine 0).Reachable w ∧ (decide (w.sent.length = 2) &&
      w.sent.all fun p => w.sent.all fun q =>
        !decide (p.pkt.sequence < q.pkt.sequence) || decide (p.time ≤ q.time)) = true :=
    Machine.reach_of_check sender_init
      [.check 0, .number 0, .snapshot 0, .send 0, .check 1, .number 1, .snapshot 1, .send 1] _ (by decide +kernel)
  obtain ⟨w, hw, hp⟩ := hrun
  simp only [Bool.and_eq_true, decide_eq_true_eq, List.all_eq_true, Bool.or_eq_true, Bool.not_eq_true',
    decide_eq_false_iff_not] at hp
  refine ⟨w, hp.1, (newest_stored_iff (by decide) hw).2 fun p hpm q hq hlt => ?_⟩
  exact (hp.2 p hpm q hq).resolve_left fun hn => hn hlt

/-- What a packet has to do with the order. -/
def SentPacket.summary (p : SentPacket) : Nat × SmPhase × Nat := (p.pkt.sequence, p.pkt.smPhase, p.time)

/-- A thread takes its number and waits for the locks; another one numbers, composes and sends its packet; the host
starts a round and the first thread sends its phase. The receiver goes back from it to the phase before. -/
theorem older_snapshot_is_stored : ∃ w, (senderMachine 0).Reachable w ∧
    ∃ r, (receiverMachine receivingPair 0 w.sent).Reachable r ∧ ¬ Newest r.stored ∧
      r.domain.daemon.hb.smPhase 0 = .starting := by
  have hrun : ∃ w, (senderMachine 0).Reachable w ∧
      decide (w.sent.map SentPacket.summary = [(1, .fhready, 8), (2, .starting, 5)]) = true :=
    Machine.reach_of_check sender_init
      [.check 0, .number 0, .check 1, .number 1, .snapshot 1, .send 1, .change (sendingHost.setSmPhase .fhready),
        .snapshot 0, .send 0] _ (by decide +kernel)
  obtain ⟨w, hw, hp⟩ := hrun
  rw [decide_eq_true_eq] at hp
  obtain ⟨p, rest, hsent, hps, hrest⟩ := List.map_eq_cons_iff.1 hp
  obtain ⟨q, last, rfl, hqs, -⟩ := List.map_eq_cons_iff.1 hrest
  have hpm : p ∈ w.sent := by simp [hsent]
  have hqm : q ∈ w.sent := by simp [hsent]
  simp only [SentPacket.summary, Prod.mk.injEq] at hps hqs
  have hnum := (Sender.numbers hw).sent
  obtain ⟨r, hr, hstored⟩ := stored_by_number (c := receivingPair) (by decide) hpm hqm (hnum p hpm) (hnum q hqm)
    (by omega)
  have hshows : r.Shows receivingPair.hostnum 0 q := Receiver.shows_stored (by decide) hnum hr hstored
  refine ⟨w, hw, r, hr, fun hnew => ?_, hshows.smPhase.trans hqs.2.1⟩
  rw [Newest, hstored] at hnew
  have hle := (List.pairwise_cons.1 hnew).1 p List.mem_cons_self
  omega

end Xha
