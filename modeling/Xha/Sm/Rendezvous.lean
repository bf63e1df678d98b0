/-
Rounds of the fault handler over a pool: hosts that hear each other's phase through heartbeats, lost,
delayed or reordered, and through State-File records read late. The rendezvous of `fault_handler` keep
them together as a barrier over the unrolled cycle of phases (`rendezvous_is_barrier`): the phase of a host is its
position in the cycle, and no packet shows more than its sender has reached (`PoolInv`).
-/
import Xha.Lib.DelayedBarrier
import Xha.Lib.Transition
import Xha.Sm.FaultHandler

namespace Xha

open Loop DelayedBarrier

/-! ## The pool -/

/-- What is counted of a host and no step reads: its position in the unrolled cycle of phases, the
positions its views of the others come from, its records, the bodies it has started and finished, and the
weight it committed in each round. -/
structure FhTrace where
  position : Nat
  hbPosition : Nat → Nat
  sfPosition : Nat → Nat
  sfNumber : Nat → Nat
  recordsWritten : Nat
  bodiesStarted : Nat
  bodiesFinished : Nat
  committed : Nat → MtcU32

/-- The phase and the weight of a host-specific record, with its writer, its number among the writer's
records and the position they were copied at. -/
structure SfRecord where
  host : Nat
  number : Nat
  position : Nat
  smPhase : SmPhase
  weight : MtcU32
  deriving DecidableEq

/-- The hosts, every packet ever sent with the position of its phase, every record ever written. -/
structure FhPool where
  host : Nat → FhWorld
  packets : List (HbPacket × Nat)
  records : List SfRecord
  trace : Nat → FhTrace

/-- What a step of the sm thread adds to the trace. -/
def FhTrace.step (pc pc' : FhPc) (weight : MtcU32) (t : FhTrace) : FhTrace :=
  match pc, pc' with
  | .met1 _, _ => { t with position := t.position + 1 }
  | .done _, _ => { t with position := t.position + 1 }
  | .wait2 s, _ => if s = .started then t else { t with bodiesStarted := t.bodiesStarted + 1 }
  | .body .fh1, _ =>
    { t with bodiesFinished := t.bodiesFinished + 1, committed := Function.update t.committed (t.position / 10) weight }
  | .body .started, _ => t
  | _, .done _ => { t with bodiesFinished := t.bodiesFinished + 1 }
  | _, _ => t

inductive PoolAction
  | fh (i : Nat) (timeout : Bool)
  | inner (i : Nat) (a : FhAction)
  | disarm (i : Nat)
  | send (i : Nat)
  | receive (i : Nat) (now : MtcClock) (pkt : HbPacket) (position : Nat)
  | writeRecord (i : Nat)
  | readRecord (i : Nat) (r : SfRecord) (data : SfHost) (stat : HostStat)

/-- A step of host `i`, a configured member. -/
def FhPool.act (c : HaConfig) (members : HostMap) (w : FhPool) (i : Nat) (a : FhAction) : Option FhWorld :=
  if h : i < c.hostnum ∧ members.isOn i = true then fhAct (c.at i h.1) (w.host i) a else none

/-- Host `i` and its trace after a step. -/
def FhPool.set (w : FhPool) (i : Nat) (s : FhWorld) (t : FhTrace) : FhPool :=
  { w with host := Function.update w.host i s, trace := Function.update w.trace i t }

/-- The steps of the members, whose fencing a script may disarm at any time. What comes from other hosts of the pool
is arbitrary. -/
def poolNext (c : HaConfig) (members : HostMap) (w : FhPool) : PoolAction → Option FhPool
  | .fh i timeout =>
    (w.act c members i (.fh timeout)).map fun s =>
      w.set i s ((w.trace i).step (w.host i).pc s.pc s.host.sm.commitedWeight)
  | .inner i a => if a.isInner then (w.act c members i a).map fun s => w.set i s (w.trace i) else none
  | .disarm i =>
    if i < c.hostnum ∧ members.isOn i = true then
      some (w.set i { w.host i with host := (w.host i).host.disarm } (w.trace i))
    else none
  | .send i =>
    (w.act c members i .sendHb).map fun s =>
      { w.set i s { w.trace i with hbPosition := Function.update (w.trace i).hbPosition i (w.trace i).position } with
        packets := (hbPacket i (s.hbSequence i) (w.host i).host, (w.trace i).position) :: w.packets }
  | .receive i now pkt position =>
    if (pkt, position) ∈ w.packets ∨ members.isOn pkt.hostIndex = false then
      (w.act c members i (.receiveHb now pkt)).map fun s =>
        w.set i s
          (if pkt.taken (w.host i) then
            { w.trace i with hbPosition := Function.update (w.trace i).hbPosition pkt.hostIndex position }
          else w.trace i)
    else none
  | .writeRecord i =>
    (w.act c members i .writeRow).map fun s =>
      { w.set i s { w.trace i with
          recordsWritten := (w.trace i).recordsWritten + 1
          sfPosition := Function.update (w.trace i).sfPosition i (w.trace i).position } with
        records := ⟨i, (w.trace i).recordsWritten + 1, (w.trace i).position, (w.host i).host.sm.phase,
          (w.host i).host.sm.commitedWeight⟩ :: w.records }
  | .readRecord i r data stat =>
    if (r ∈ w.records ∧ (w.trace i).sfNumber r.host ≤ r.number) ∨ members.isOn r.host = false then
      (w.act c members i (.readRow r.host { data with smPhase := r.smPhase, weight := r.weight } stat)).map fun s =>
        w.set i s { w.trace i with
          sfNumber := Function.update (w.trace i).sfNumber r.host r.number
          -- the local row is taken from the SM object, not from the record
          sfPosition := Function.update (w.trace i).sfPosition r.host
            (if r.host = i then (w.trace i).position else r.position) }
    else none

/-- The phases a host shows before its first round. -/
def SmPhase.beforeFirst : SmPhase → Bool
  | .starting | .started => true
  | _ => false

/-- The members start in STARTED; nobody has seen a later phase of them. -/
structure FhPool.Started (c : HaConfig) (members : HostMap) (w : FhPool) : Prop where
  configured : ∀ i, members.isOn i = true → i < c.hostnum
  pc : ∀ i, members.isOn i = true → (w.host i).pc = .body .started
  phase : ∀ i, members.isOn i = true → (w.host i).host.sm.phase = .started
  hbSeen : ∀ i j, members.isOn i = true → members.isOn j = true → ((w.host i).host.hb.smPhase j).beforeFirst = true
  sfSeen : ∀ i j, members.isOn i = true → members.isOn j = true → ((w.host i).host.sf.smPhase j).beforeFirst = true
  packets : ∀ q ∈ w.packets, members.isOn q.1.hostIndex = true →
    q.2 = 0 ∧ q.1.smPhase.beforeFirst = true ∧ q.1.sequence ≤ (w.host q.1.hostIndex).hbSequence q.1.hostIndex
  records : ∀ r ∈ w.records, members.isOn r.host = true →
    r.position = 0 ∧ r.smPhase.beforeFirst = true ∧ r.number ≤ (w.trace r.host).recordsWritten
  position : ∀ i, members.isOn i = true → (w.trace i).position = 0
  hbPosition : ∀ i j, members.isOn i = true → members.isOn j = true → (w.trace i).hbPosition j = 0
  sfPosition : ∀ i j, members.isOn i = true → members.isOn j = true → (w.trace i).sfPosition j = 0
  bodies : ∀ i, members.isOn i = true → (w.trace i).bodiesStarted = 0 ∧ (w.trace i).bodiesFinished = 0

/-- Every member has all of them in its liveset and its heartbeat domain. -/
def Together (members : HostMap) (w : FhPool) : Prop :=
  ∀ i < maxHostNum, members.isOn i = true →
    members.subsetEqual (w.host i).host.sm.currentLiveset = true ∧ members.subsetEqual (w.host i).host.hb.hbdomain = true

instance (members : HostMap) (w : FhPool) : Decidable (Together members w) := by
  unfold Together; infer_instance

def fhPool (c : HaConfig) (members : HostMap) : Transition.Machine FhPool PoolAction where
  init w := w.Started c members ∧ Together members w
  next := poolNext c members

/-- Runs in which the members stay in each other's liveset and heartbeat domain. -/
def KeepsTogether (c : HaConfig) (members : HostMap) (w : FhPool) (a : PoolAction) : Prop :=
  match poolNext c members w a with
  | some w' => Together members w'
  | none => True

instance (c : HaConfig) (members : HostMap) (w : FhPool) (a : PoolAction) : Decidable (KeepsTogether c members w a) :=
  match h : poolNext c members w a with
  | some w' => decidable_of_iff (Together members w') (by rw [KeepsTogether, h])
  | none => .isTrue (by rw [KeepsTogether, h]; trivial)

/-! ## The cycle of phases -/

/-- The place of a phase in the cycle STARTED, FHREADY, FH1, …, FH4DONE. -/
def SmPhase.slot : SmPhase → Nat
  | .started => 0 | .fhready => 1 | .fh1 => 2 | .fh1done => 3 | .fh2 => 4 | .fh2done => 5
  | .fh3 => 6 | .fh3done => 7 | .fh4 => 8 | .fh4done => 9 | .starting => 10 | .aborted => 11

theorem SmPhase.slot_inj {p q : SmPhase} (h : p.slot = q.slot) : p = q := by
  cases p <;> cases q <;> first | rfl | cases h

theorem FhStage.slot_phase2 (s : FhStage) : s.phase2.slot = (s.phase1.slot + 1) % 10 := by cases s <;> rfl

theorem FhStage.slot_phase3 (s : FhStage) : s.phase3.slot = (s.phase2.slot + 1) % 10 := by cases s <;> rfl

theorem FhStage.slot_next (s : FhStage) : s.next.phase1.slot = (s.phase2.slot + 1) % 10 := by cases s <;> rfl

theorem FhPc.BodyStep.phase_eq {pc pc' : FhPc} (h : pc.BodyStep pc') : pc'.phase = pc.phase := by cases h <;> rfl

/-- The host is past the check of its rendezvous. -/
def FhPc.met : FhPc → Bool
  | .wait1 _ | .wait2 _ => false
  | _ => true

/-- The two phases a waiting host waits to see. -/
def FhPc.awaits : FhPc → Option (SmPhase × SmPhase)
  | .wait1 s => some (s.phase1, s.phase2)
  | .wait2 s => some (s.phase2, s.phase3)
  | _ => none

/-- The stage whose body a host executes; `wait_fh_event` is none. -/
def FhPc.bodyOf : FhPc → Option FhStage
  | .body .started => none
  | .body s => some s
  | .freezing _ _ _ => some .fh2
  | .fencing => some .fh4
  | .fenced => some .fh3
  | _ => none

/-- The number of a body in its round. -/
def FhStage.number : FhStage → Nat
  | fh1 => 1 | fh2 => 2 | fh3 => 3 | fh4 => 4 | started => 5

/-- A phase seen at a position, or none seen yet. -/
def Shows (p : SmPhase) (position : Nat) : Prop := p.slot = position % 10 ∨ (p = .starting ∧ position = 0)

theorem Shows.beforeFirst {p : SmPhase} (h : p.beforeFirst = true) : Shows p 0 := by
  cases p
  case started => exact .inl rfl
  case starting => exact .inr ⟨rfl, rfl⟩
  all_goals cases h

theorem Shows.mod_eq {p : SmPhase} {position : Nat} (h : Shows p position) (hp : p.slot < 10) : position % 10 = p.slot := by
  rcases h with h | ⟨rfl, -⟩
  · exact h.symm
  · exact absurd hp (by decide)

/-! ## What is seen of the positions -/

/-- How the packets on the way and what has been seen of the positions hang together, for positions
`pos`, seen positions `seen`, seen phases `ph` and accepted sequence numbers `seq`. -/
structure Reports (members : HostMap) (pos : Nat → Nat) (seen : Nat → Nat → Nat) (ph : Nat → Nat → SmPhase)
    (seq : Nat → Nat → Nat) (packets : List (HbPacket × Nat)) : Prop where
  packet : ∀ q ∈ packets, members.isOn q.1.hostIndex = true →
    Shows q.1.smPhase q.2 ∧ q.2 ≤ pos q.1.hostIndex ∧ q.1.sequence ≤ seq q.1.hostIndex q.1.hostIndex
  ordered : ∀ q ∈ packets, ∀ q' ∈ packets, members.isOn q.1.hostIndex = true → q'.1.hostIndex = q.1.hostIndex →
    q.1.sequence < q'.1.sequence → q.2 ≤ q'.2
  newer : ∀ i, members.isOn i = true → ∀ q ∈ packets, members.isOn q.1.hostIndex = true → q.1.hostIndex ≠ i →
    seq i q.1.hostIndex < q.1.sequence → seen i q.1.hostIndex ≤ q.2
  view : ∀ i j, members.isOn i = true → members.isOn j = true → Shows (ph i j) (seen i j)

section

variable {members : HostMap} {pos pos' : Nat → Nat} {seen seen' : Nat → Nat → Nat} {ph ph' : Nat → Nat → SmPhase}
  {seq seq' : Nat → Nat → Nat} {packets : List (HbPacket × Nat)}

/-- Positions go up, and nothing else happens. -/
theorem Reports.mono (h : Reports members pos seen ph seq packets) (hpos : ∀ i, members.isOn i = true → pos i ≤ pos' i)
    (hseen : ∀ i j, members.isOn i = true → members.isOn j = true → seen' i j = seen i j)
    (hph : ∀ i j, members.isOn i = true → members.isOn j = true → ph' i j = ph i j)
    (hseq : ∀ i j, members.isOn i = true → members.isOn j = true → seq' i j = seq i j) :
    Reports members pos' seen' ph' seq' packets := by
  refine ⟨fun q hq hm => ?_, h.ordered, fun i hi q hq hm hne hlt => ?_, fun i j hi hj => ?_⟩
  · obtain ⟨hs, hp, hseq'⟩ := h.packet q hq hm
    exact ⟨hs, le_trans hp (hpos _ hm), by rw [hseq _ _ hm hm]; exact hseq'⟩
  · rw [hseq i _ hi hm] at hlt
    rw [hseen i _ hi hm]
    exact h.newer i hi q hq hm hne hlt
  · rw [hph i j hi hj, hseen i j hi hj]
    exact h.view i j hi hj

/-- A host sends its phase. -/
theorem Reports.send {k : Nat} (pkt : HbPacket) (h : Reports members pos seen ph seq packets)
    (hb : ∀ i j, members.isOn i = true → members.isOn j = true → seen i j ≤ pos j)
    (hk : pkt.hostIndex = k) (hs : Shows pkt.smPhase (pos k)) (hnew : pkt.sequence = seq k k + 1) :
    Reports members pos (Function.update seen k (Function.update (seen k) k (pos k)))
      (Function.update ph k (Function.update (ph k) k pkt.smPhase))
      (Function.update seq k (Function.update (seq k) k (seq k k + 1))) ((pkt, pos k) :: packets) := by
  have hseq : ∀ i, seq i i ≤ Function.update seq k (Function.update (seq k) k (seq k k + 1)) i i := fun i => by
    by_cases hik : i = k
    · subst hik; simp
    · simp [Function.update_of_ne hik]
  have hoff : ∀ i j, i ≠ j → Function.update seq k (Function.update (seq k) k (seq k k + 1)) i j = seq i j ∧
      Function.update seen k (Function.update (seen k) k (pos k)) i j = seen i j := fun i j hij => by
    by_cases hik : i = k
    · subst hik; simp [Function.update_of_ne (Ne.symm hij)]
    · simp [Function.update_of_ne hik]
  refine ⟨fun q hq hm => ?_, fun q hq q' hq' hm heq hlt => ?_, fun i hi q hq hm hne hlt => ?_, fun i j hi hj => ?_⟩
  · rcases List.mem_cons.1 hq with rfl | hq
    · dsimp only at hm ⊢
      rw [hk]
      exact ⟨hs, le_rfl, by simp [hnew]⟩
    · obtain ⟨h1, h2, h3⟩ := h.packet q hq hm
      exact ⟨h1, h2, le_trans h3 (hseq _)⟩
  · -- the new packet has the largest sequence number and the current position
    rcases List.mem_cons.1 hq with rfl | hq
    · rcases List.mem_cons.1 hq' with rfl | hq'
      · exact absurd hlt (lt_irrefl _)
      · have hm' : members.isOn q'.1.hostIndex = true := by rw [heq]; exact hm
        have := (h.packet q' hq' hm').2.2
        dsimp only at heq hlt
        rw [heq, hk] at this
        omega
    · rcases List.mem_cons.1 hq' with rfl | hq'
      · have := (h.packet q hq hm).2.1
        dsimp only at heq ⊢
        rw [← heq, hk] at this
        exact this
      · exact h.ordered q hq q' hq' hm heq hlt
  · obtain ⟨h1, h2⟩ := hoff i q.1.hostIndex (Ne.symm hne)
    rw [h2]
    rw [h1] at hlt
    rcases List.mem_cons.1 hq with rfl | hq
    · dsimp only
      rw [hk]
      rw [show (pkt, pos k).1.hostIndex = k from hk] at hm
      exact hb i k hi hm
    · exact h.newer i hi q hq hm hne hlt
  · by_cases hik : i = k
    · subst hik
      by_cases hjk : j = i
      · subst hjk; simpa using hs
      · simpa [Function.update_of_ne hjk] using h.view i j hi hj
    · simpa [Function.update_of_ne hik] using h.view i j hi hj

/-- A host accepts a packet, and takes what it says or drops it. -/
theorem Reports.receive {i : Nat} {q : HbPacket × Nat} (h : Reports members pos seen ph seq packets)
    (hi : members.isOn i = true) (hne : q.1.hostIndex ≠ i)
    (hq : members.isOn q.1.hostIndex = true → q ∈ packets ∧ seq i q.1.hostIndex < q.1.sequence)
    (hseen : seen' = Function.update seen i (Function.update (seen i) q.1.hostIndex q.2) ∧
      ph' = Function.update ph i (Function.update (ph i) q.1.hostIndex q.1.smPhase) ∨ seen' = seen ∧ ph' = ph) :
    Reports members pos seen' ph' (Function.update seq i (Function.update (seq i) q.1.hostIndex q.1.sequence))
      packets := by
  have hown : ∀ j, Function.update seq i (Function.update (seq i) q.1.hostIndex q.1.sequence) j j = seq j j := fun j => by
    by_cases hji : j = i
    · subst hji; simp [Function.update_of_ne (Ne.symm hne)]
    · simp [Function.update_of_ne hji]
  refine ⟨fun p hp hm => ?_, h.ordered, fun k hk p hp hm hnek hlt => ?_, fun k j hk hj => ?_⟩
  · rw [hown]; exact h.packet p hp hm
  · by_cases hki : k = i
    · subst hki
      by_cases hpq : p.1.hostIndex = q.1.hostIndex
      · have hm' : members.isOn q.1.hostIndex = true := hpq ▸ hm
        obtain ⟨hmem, hold⟩ := hq hm'
        rw [Function.update_self, hpq, Function.update_self] at hlt
        -- a packet later than the one received is at a later position, and one later than a dropped one too
        rcases hseen with ⟨rfl, -⟩ | ⟨rfl, -⟩
        · rw [Function.update_self, hpq, Function.update_self]
          exact h.ordered q hmem p hp hm' hpq hlt
        · rw [hpq]
          have := h.newer k hk p hp hm hnek (by rw [hpq]; omega)
          rw [hpq] at this
          exact this
      · rw [Function.update_self, Function.update_of_ne hpq] at hlt
        have := h.newer k hk p hp hm hnek hlt
        rcases hseen with ⟨rfl, -⟩ | ⟨rfl, -⟩
        · rw [Function.update_self, Function.update_of_ne hpq]; exact this
        · exact this
    · rw [Function.update_of_ne hki] at hlt
      have := h.newer k hk p hp hm hnek hlt
      rcases hseen with ⟨rfl, -⟩ | ⟨rfl, -⟩
      · rw [Function.update_of_ne hki]; exact this
      · exact this
  · rcases hseen with ⟨rfl, rfl⟩ | ⟨rfl, rfl⟩
    · by_cases hki : k = i
      · subst hki
        by_cases hjq : j = q.1.hostIndex
        · subst hjq
          simpa using (h.packet q (hq hj).1 hj).1
        · simpa [Function.update_of_ne hjq] using h.view k j hk hj
      · simpa [Function.update_of_ne hki] using h.view k j hk hj
    · exact h.view k j hk hj

end

/-! ## The invariant of the pool -/

namespace FhPool

def pos (w : FhPool) (i : Nat) : Nat := (w.trace i).position

def seen (w : FhPool) (i j : Nat) : Nat := (w.trace i).hbPosition j

def ph (w : FhPool) (i j : Nat) : SmPhase := (w.host i).host.hb.smPhase j

def seq (w : FhPool) (i j : Nat) : Nat := (w.host i).hbSequence j

end FhPool

section

variable (w : FhPool) (i : Nat) (s : FhWorld) (t : FhTrace)

@[simp] theorem FhPool.set_host_self : (w.set i s t).host i = s := Function.update_self ..

theorem FhPool.set_host_of_ne {j : Nat} (h : j ≠ i) : (w.set i s t).host j = w.host j := Function.update_of_ne h ..

@[simp] theorem FhPool.set_trace_self : (w.set i s t).trace i = t := Function.update_self ..

theorem FhPool.set_trace_of_ne {j : Nat} (h : j ≠ i) : (w.set i s t).trace j = w.trace j := Function.update_of_ne h ..

theorem FhPool.set_pos : (w.set i s t).pos = Function.update w.pos i t.position := by
  funext j
  by_cases h : j = i
  · subst h; simp [pos]
  · simp [pos, set_trace_of_ne _ _ _ _ h, Function.update_of_ne h]

theorem FhPool.set_seen : (w.set i s t).seen = Function.update w.seen i t.hbPosition := by
  funext j
  by_cases h : j = i
  · subst h; funext k; simp [seen]
  · funext k; simp [seen, set_trace_of_ne _ _ _ _ h, Function.update_of_ne h]

theorem FhPool.set_ph : (w.set i s t).ph = Function.update w.ph i s.host.hb.smPhase := by
  funext j
  by_cases h : j = i
  · subst h; funext k; simp [ph]
  · funext k; simp [ph, set_host_of_ne _ _ _ _ h, Function.update_of_ne h]

theorem FhPool.set_seq : (w.set i s t).seq = Function.update w.seq i s.hbSequence := by
  funext j
  by_cases h : j = i
  · subst h; funext k; simp [seq]
  · funext k; simp [seq, set_host_of_ne _ _ _ _ h, Function.update_of_ne h]

end

/-- The bodies that lie before a position. -/
def bodiesBefore (p : Nat) : Nat := 4 * (p / 10) + (p % 10 - 1) / 2

/-- The body of this position is finished. -/
def FhPc.bodyDone : FhPc → Nat
  | .done .started => 0
  | .done _ => 1
  | _ => 0

/-- The bodies started and finished at a point of the cycle. -/
def BodiesCounted (pc : FhPc) (t : FhTrace) : Prop :=
  t.bodiesFinished = bodiesBefore t.position + pc.bodyDone ∧
  t.bodiesStarted = t.bodiesFinished + pc.bodyOf.toList.length

structure PoolInv (members : HostMap) (w : FhPool) : Prop where
  phase : ∀ i, members.isOn i = true → (w.host i).host.sm.phase = (w.host i).pc.phase
  slot : ∀ i, members.isOn i = true → (w.host i).pc.phase.slot = (w.trace i).position % 10
  bodies : ∀ i, members.isOn i = true → BodiesCounted (w.host i).pc (w.trace i)
  reports : Reports members w.pos w.seen w.ph w.seq w.packets
  barrier : Barrier (fun i => members.isOn i = true) w.pos w.seen (fun i => (w.host i).pc.met = true)

theorem PoolInv.init {c : HaConfig} {members : HostMap} {w : FhPool} (h : w.Started c members) : PoolInv members w := by
  refine ⟨fun i hi => ?_, fun i hi => ?_, fun i hi => ?_, ⟨fun q hq hm => ?_, fun q hq q' hq' hm heq _ => ?_,
    fun i hi q hq hm _ _ => ?_, fun i j hi hj => ?_⟩, Barrier.init h.position h.hbPosition⟩
  · rw [h.phase i hi, h.pc i hi]; rfl
  · rw [h.pc i hi, h.position i hi]; rfl
  · rw [BodiesCounted, h.pc i hi, h.position i hi, (h.bodies i hi).1, (h.bodies i hi).2]; exact ⟨rfl, rfl⟩
  · obtain ⟨h0, hb, hs⟩ := h.packets q hq hm
    exact ⟨h0 ▸ Shows.beforeFirst hb, h0 ▸ Nat.zero_le _, hs⟩
  · rw [(h.packets q hq hm).1]; exact Nat.zero_le _
  · show (w.trace i).hbPosition q.1.hostIndex ≤ q.2
    rw [h.hbPosition i _ hi hm]; exact Nat.zero_le _
  · show Shows ((w.host i).host.hb.smPhase j) ((w.trace i).hbPosition j)
    rw [h.hbPosition i j hi hj]
    exact Shows.beforeFirst (h.hbSeen i j hi hj)

/-! ## Steps of the sm thread -/

@[simp] theorem FhTrace.step_views (pc pc' : FhPc) (weight : MtcU32) (t : FhTrace) :
    (t.step pc pc' weight).hbPosition = t.hbPosition ∧ (t.step pc pc' weight).sfPosition = t.sfPosition ∧
      (t.step pc pc' weight).sfNumber = t.sfNumber ∧ (t.step pc pc' weight).recordsWritten = t.recordsWritten := by
  unfold step
  split
  case _ => exact ⟨rfl, rfl, rfl, rfl⟩
  case _ => exact ⟨rfl, rfl, rfl, rfl⟩
  case _ => split <;> exact ⟨rfl, rfl, rfl, rfl⟩
  all_goals exact ⟨rfl, rfl, rfl, rfl⟩

/-- A step of the control moves the position exactly when it sets a phase. -/
def FhPc.Moves (pc pc' : FhPc) (p p' : Nat) : Prop :=
  (p' = p ∧ pc'.phase = pc.phase) ∨
    (p' = p + 1 ∧ pc.met = true ∧ pc'.met = false ∧ pc'.phase.slot = (pc.phase.slot + 1) % 10)

theorem FhControl.moves {n : Nat} {h h' : Host} {pc pc' : FhPc} (hc : FhControl n h h' pc pc') (weight : MtcU32)
    (t : FhTrace) : pc.Moves pc' t.position (t.step pc pc' weight).position := by
  cases hc with
  | met1 s _ _ => exact .inl ⟨rfl, rfl⟩
  | set2 s _ _ => exact .inr ⟨rfl, rfl, rfl, s.slot_phase2⟩
  | met2 s _ _ =>
    refine .inl ⟨?_, rfl⟩
    unfold FhTrace.step
    dsimp only
    split <;> rfl
  | commit _ _ => exact .inl ⟨rfl, rfl⟩
  | within _ _ hb _ => refine .inl ⟨?_, hb.phase_eq⟩; cases hb <;> rfl
  | set1 s _ _ => exact .inr ⟨rfl, rfl, rfl, s.slot_next⟩

/-- The phase shown follows the control. -/
theorem FhControl.phase_eq {n : Nat} {h h' : Host} {pc pc' : FhPc} (hc : FhControl n h h' pc pc')
    (hp : h.sm.phase = pc.phase) : h'.sm.phase = pc'.phase := by
  cases hc with
  | met1 s _ hs => rw [hs.phase, hp]; rfl
  | set2 s hs _ => exact hs
  | met2 s _ hs => rw [hs.phase, hp]; rfl
  | commit hs _ => rw [hs, hp]; rfl
  | within _ _ hb hs => rw [hs.phase, hp, hb.phase_eq]
  | set1 s hs _ => exact hs

theorem FhControl.bodies {n : Nat} {h h' : Host} {pc pc' : FhPc} (hc : FhControl n h h' pc pc') {weight : MtcU32}
    {t : FhTrace} (hslot : pc.phase.slot = t.position % 10) (hb : BodiesCounted pc t) :
    BodiesCounted pc' (t.step pc pc' weight) := by
  obtain ⟨hf, hs⟩ := hb
  cases hc with
  | met1 s _ _ => exact ⟨hf, hs⟩
  | set2 s _ _ =>
    refine ⟨?_, hs⟩
    -- no body lies at the position just left
    have hnext : bodiesBefore (t.position + 1) = bodiesBefore t.position := by
      unfold bodiesBefore
      cases s <;> simp only [FhPc.phase, FhStage.phase1, SmPhase.slot] at hslot <;> omega
    exact hf.trans (congrArg (· + 0) hnext.symm)
  | met2 s _ _ =>
    cases s
    case started => exact ⟨hf, hs⟩
    all_goals exact ⟨hf, congrArg (· + 1) hs⟩
  | commit _ _ => exact ⟨congrArg (· + 1) hf, hs⟩
  | within _ _ hb _ =>
    cases hb
    case event => exact ⟨hf, hs⟩
    case freeze => exact ⟨congrArg (· + 1) hf, hs⟩
    case tested => exact ⟨congrArg (· + 1) hf, hs⟩
    case keep => exact ⟨congrArg (· + 1) hf, hs⟩
    case update => exact ⟨congrArg (· + 1) hf, hs⟩
    all_goals exact ⟨hf, hs⟩
  | set1 s _ _ =>
    refine ⟨?_, hs⟩
    -- the body just finished lies before the next position
    have hnext : bodiesBefore (t.position + 1) = bodiesBefore t.position + (FhPc.done s).bodyDone := by
      unfold bodiesBefore
      cases s <;> simp only [FhPc.phase, FhStage.phase2, SmPhase.slot] at hslot <;> simp only [FhPc.bodyDone] <;> omega
    exact hf.trans (congrArg (· + 0) hnext.symm)

/-- What a passed check has seen. -/
theorem rendezvousWait_spec {n : Nat} {p1 p2 : SmPhase} {onStatefile : Bool} {h : Host}
    (hw : rendezvousWait n p1 p2 onStatefile h = true) {j : Nat} (hj : j < n) (hl : h.sm.currentLiveset.isOn j = true) :
    (h.hb.hbdomain.isOn j = true → h.hb.smPhase j = p1 ∨ h.hb.smPhase j = p2) ∧
    (onStatefile = true → h.sf.sfdomain.isOn j = true → h.sf.smPhase j = p1 ∨ h.sf.smPhase j = p2) := by
  unfold rendezvousWait at hw
  rw [List.all_eq_true] at hw
  have := hw j (List.mem_range.2 hj)
  simp only [hl, Bool.not_true, Bool.false_or, Bool.and_eq_true, Bool.or_eq_true, Bool.not_eq_true', decide_eq_true_eq,
    or_assoc] at this
  refine ⟨fun hd => ?_, fun ho hd => ?_⟩
  · rw [hd] at this
    exact this.1.resolve_left (by simp)
  · rw [ho, hd] at this
    exact (this.2.resolve_left (by simp)).resolve_left (by simp)

theorem Together.liveset {members : HostMap} {w : FhPool} (h : Together members w) {i j : Nat}
    (hi : members.isOn i = true) (hj : members.isOn j = true) :
    (w.host i).host.sm.currentLiveset.isOn j = true ∧ (w.host i).host.hb.hbdomain.isOn j = true := by
  obtain ⟨h1, h2⟩ := h i (HostMap.lt_of_isOn hi) hi
  exact ⟨HostMap.subsetEqual_iff.1 h1 j hj, HostMap.subsetEqual_iff.1 h2 j hj⟩

/-- A passed check has seen every member's residue at the host's own position or the next. -/
theorem PoolInv.showsNear {members : HostMap} {w : FhPool} (h : PoolInv members w) (ht : Together members w) {n : Nat}
    {i : Nat} (hi : members.isOn i = true) {p1 p2 : SmPhase} {onStatefile : Bool}
    (hw : rendezvousWait n p1 p2 onStatefile (w.host i).host = true) (hn : ∀ j, members.isOn j = true → j < n)
    (h1 : p1.slot = w.pos i % 10) (h2 : p2.slot = (p1.slot + 1) % 10) :
    ∀ j, members.isOn j = true → ShowsNear 10 (w.pos i) (w.seen i j) := by
  intro j hj
  obtain ⟨hl, hd⟩ := ht.liveset hi hj
  have hview : Shows (w.ph i j) (w.seen i j) := h.reports.view i j hi hj
  rcases (rendezvousWait_spec hw (hn j hj) hl).1 hd with hp | hp
  · refine .inl ?_
    have := Shows.mod_eq (p := p1) (by rwa [← hp]) (by omega)
    rw [Nat.ModEq]; omega
  · refine .inr ?_
    have := Shows.mod_eq (p := p2) (by rwa [← hp]) (by omega)
    rw [Nat.ModEq]; omega

theorem FhPc.BodyStep.met {pc pc' : FhPc} (h : pc.BodyStep pc') : pc.met = true := by cases h <;> rfl

/-- A host comes past the check of a rendezvous only by that check. -/
theorem FhControl.meets {n : Nat} {h h' : Host} {pc pc' : FhPc} (hc : FhControl n h h' pc pc') (hm : pc'.met = true) :
    pc.met = true ∨ ∃ p2 onStatefile, rendezvousWait n pc.phase p2 onStatefile h = true ∧
      p2.slot = (pc.phase.slot + 1) % 10 := by
  cases hc with
  | met1 s hw _ => exact .inr ⟨s.phase2, s.onStatefile, hw, s.slot_phase2⟩
  | set2 s _ _ => exact .inl rfl
  | met2 s hw _ => exact .inr ⟨s.phase3, s.onStatefile, hw, s.slot_phase3⟩
  | commit _ _ => exact .inl rfl
  | within _ _ hb _ => exact .inl hb.met
  | set1 s _ _ => exact .inl rfl

theorem FhPool.act_spec {c : HaConfig} {members : HostMap} {w : FhPool} {i : Nat} {a : FhAction} {s : FhWorld}
    (h : w.act c members i a = some s) :
    ∃ hi : i < c.hostnum, members.isOn i = true ∧ fhAct (c.at i hi) (w.host i) a = some s := by
  unfold act at h
  split at h
  · rename_i hi
    exact ⟨hi.1, hi.2, h⟩
  · cases h

section

variable {c : HaConfig} {members : HostMap} {w : FhPool} {i : Nat} {s : FhWorld}

theorem PoolInv.fh {timeout : Bool} (h : PoolInv members w) (ht : Together members w)
    (hconf : ∀ j, members.isOn j = true → j < c.hostnum) (ha : w.act c members i (.fh timeout) = some s) :
    PoolInv members (w.set i s ((w.trace i).step (w.host i).pc s.pc s.host.sm.commitedWeight)) := by
  obtain ⟨hi, hm, hn⟩ := FhPool.act_spec ha
  simp only [fhAct, Option.map_eq_some_iff] at hn
  obtain ⟨⟨h', pc'⟩, hn, rfl⟩ := hn
  obtain ⟨hc, hv⟩ := fhNext_control hn
  have hmoves := hc.moves h'.sm.commitedWeight (w.trace i)
  have hseen : (w.set i { w.host i with host := h', pc := pc' }
      ((w.trace i).step (w.host i).pc pc' h'.sm.commitedWeight)).seen = w.seen := by
    rw [FhPool.set_seen, (FhTrace.step_views ..).1]
    exact Function.update_eq_self ..
  have hph : (w.set i { w.host i with host := h', pc := pc' }
      ((w.trace i).step (w.host i).pc pc' h'.sm.commitedWeight)).ph = w.ph := by
    rw [FhPool.set_ph, hv.hbSmPhase]
    exact Function.update_eq_self ..
  have hseq : (w.set i { w.host i with host := h', pc := pc' }
      ((w.trace i).step (w.host i).pc pc' h'.sm.commitedWeight)).seq = w.seq := by
    rw [FhPool.set_seq]
    exact Function.update_eq_self ..
  refine ⟨fun j hj => ?_, fun j hj => ?_, fun j hj => ?_, ?_, ?_⟩
  · by_cases hji : j = i
    · subst hji; rw [FhPool.set_host_self]; exact hc.phase_eq (h.phase j hj)
    · rw [FhPool.set_host_of_ne _ _ _ _ hji]; exact h.phase j hj
  · by_cases hji : j = i
    · subst hji
      have hslot := h.slot j hj
      rw [FhPool.set_host_self, FhPool.set_trace_self]
      rcases hmoves with ⟨hp, hphase⟩ | ⟨hp, _, _, hphase⟩
      · rw [hp]; dsimp only; rw [hphase]; exact hslot
      · rw [hp]; dsimp only; rw [hphase, hslot, Nat.mod_add_mod]
    · rw [FhPool.set_host_of_ne _ _ _ _ hji, FhPool.set_trace_of_ne _ _ _ _ hji]; exact h.slot j hj
  · by_cases hji : j = i
    · subst hji
      rw [FhPool.set_host_self, FhPool.set_trace_self]
      exact hc.bodies (h.slot j hj) (h.bodies j hj)
    · rw [FhPool.set_host_of_ne _ _ _ _ hji, FhPool.set_trace_of_ne _ _ _ _ hji]; exact h.bodies j hj
  · rw [hseen, hph, hseq, FhPool.set_pos]
    refine h.reports.mono (fun j _ => ?_) (fun _ _ _ _ => rfl) (fun _ _ _ _ => rfl) fun _ _ _ _ => rfl
    by_cases hji : j = i
    · subst hji
      rw [Function.update_self]
      show (w.trace j).position ≤ _
      rcases hmoves with ⟨hp, _⟩ | ⟨hp, _⟩ <;> dsimp only <;> omega
    · rw [Function.update_of_ne hji]
  · rw [hseen, FhPool.set_pos]
    rcases hmoves with ⟨hp, _⟩ | ⟨hp, hmi, hmi', _⟩
    · -- the position stays: the host has met the others, or waits on
      rw [show Function.update w.pos i _ = w.pos by dsimp only; rw [hp]; exact Function.update_eq_self ..]
      refine h.barrier.meet (m := 10) (by decide) fun j hj hj' => ?_
      by_cases hji : j = i
      · subst hji
        rw [FhPool.set_host_self] at hj'
        rcases hc.meets hj' with hold | ⟨p2, onStatefile, hw, hp2⟩
        · exact .inl hold
        · exact .inr (h.showsNear ht hj hw hconf (h.slot j hj) hp2)
      · rw [FhPool.set_host_of_ne _ _ _ _ hji] at hj'
        exact .inl hj'
    · -- the next phase: only a host that has met the others goes on
      refine h.barrier.go hmi ?_ (fun j hji _ => Function.update_of_ne hji ..) fun j _ hj' => ?_
      · rw [Function.update_self]; exact hp
      · have hji : j ≠ i := by
          rintro rfl
          rw [FhPool.set_host_self] at hj'
          exact absurd hj' (by rw [hmi']; simp)
        rw [FhPool.set_host_of_ne _ _ _ _ hji] at hj'
        exact ⟨hji, hj'⟩

/-! ## Steps of the other threads -/

/-- A step that leaves the host where it stands keeps the invariant if it keeps the reports. -/
theorem PoolInv.keep {t : FhTrace} {packets : List (HbPacket × Nat)} {records : List SfRecord} (h : PoolInv members w)
    (hphase : s.host.sm.phase = (w.host i).host.sm.phase) (hpc : s.pc = (w.host i).pc)
    (hcount : t.position = (w.trace i).position ∧ t.bodiesStarted = (w.trace i).bodiesStarted ∧
      t.bodiesFinished = (w.trace i).bodiesFinished)
    (hr : Reports members w.pos (w.set i s t).seen (w.set i s t).ph (w.set i s t).seq packets)
    (hold : ∀ k, members.isOn i = true → members.isOn k = true → w.seen i k ≤ t.hbPosition k)
    (hnew : ∀ k, members.isOn i = true → members.isOn k = true → t.hbPosition k ≤ w.pos k) :
    PoolInv members { w.set i s t with packets := packets, records := records } := by
  have hpos : (w.set i s t).pos = w.pos := by
    rw [FhPool.set_pos, hcount.1]
    exact Function.update_eq_self ..
  have hat : ∀ j, ((w.set i s t).host j).host.sm.phase = (w.host j).host.sm.phase ∧
      ((w.set i s t).host j).pc = (w.host j).pc ∧ ((w.set i s t).trace j).position = (w.trace j).position ∧
      ((w.set i s t).trace j).bodiesStarted = (w.trace j).bodiesStarted ∧
      ((w.set i s t).trace j).bodiesFinished = (w.trace j).bodiesFinished := fun j => by
    by_cases hji : j = i
    · subst hji; rw [FhPool.set_host_self, FhPool.set_trace_self]; exact ⟨hphase, hpc, hcount⟩
    · rw [FhPool.set_host_of_ne _ _ _ _ hji, FhPool.set_trace_of_ne _ _ _ _ hji]; exact ⟨rfl, rfl, rfl, rfl, rfl⟩
  refine ⟨fun j hj => ?_, fun j hj => ?_, fun j hj => ?_, ?_, ?_⟩
  · obtain ⟨h1, h2, _⟩ := hat j
    exact h1.trans ((h.phase j hj).trans (congrArg FhPc.phase h2.symm))
  · obtain ⟨_, h2, h3, _⟩ := hat j
    dsimp only
    rw [h2, h3]
    exact h.slot j hj
  · obtain ⟨_, h2, h3, h4, h5⟩ := hat j
    unfold BodiesCounted
    dsimp only
    rw [h2, h3, h4, h5]
    exact h.bodies j hj
  · show Reports members (w.set i s t).pos _ _ _ _
    rw [hpos]
    exact hr
  · show Barrier _ (w.set i s t).pos (w.set i s t).seen _
    rw [hpos, FhPool.set_seen]
    refine (h.barrier.see (fun j k hj hk => ?_) fun j k hj hk => ?_).congr (fun _ _ => rfl) (fun _ _ _ _ => rfl)
      fun j _ hm => (congrArg FhPc.met (hat j).2.1).symm.trans hm
    · by_cases hji : j = i
      · subst hji; rw [Function.update_self]; exact hold k hj hk
      · rw [Function.update_of_ne hji]
    · by_cases hji : j = i
      · subst hji; rw [Function.update_self]; exact hnew k hj hk
      · rw [Function.update_of_ne hji]; exact h.barrier.seen_le j k hj hk

theorem PoolInv.inner {a : FhAction} (h : PoolInv members w) (hin : a.isInner = true)
    (ha : w.act c members i a = some s) (ht : Together members (w.set i s (w.trace i))) :
    PoolInv members (w.set i s (w.trace i)) := by
  obtain ⟨hi, hm, hn⟩ := FhPool.act_spec ha
  obtain ⟨hpc, hself, hviews, hseq⟩ := fhAct_inner hin hn
  refine h.keep hself.phase hpc ⟨rfl, rfl, rfl⟩
    (h.reports.mono (fun _ _ => le_rfl) (fun j k _ _ => ?_) (fun j k _ _ => ?_) fun j k hj hk => ?_)
    (fun _ _ _ => le_rfl) (h.barrier.seen_le i · · ·)
  · rw [FhPool.set_seen]
    exact congrFun (congrFun (Function.update_eq_self i w.seen) j) k
  · rw [FhPool.set_ph, hviews.hbSmPhase]
    exact congrFun (congrFun (Function.update_eq_self i w.ph) j) k
  · rw [FhPool.set_seq]
    by_cases hji : j = i
    · subst hji
      have hdomain := (ht.liveset hj hk).2
      rw [FhPool.set_host_self] at hdomain
      rw [Function.update_self]
      exact (hseq k).resolve_right fun hc => by rw [hc] at hdomain; cases hdomain
    · rw [Function.update_of_ne hji]

theorem PoolInv.send (h : PoolInv members w) (ha : w.act c members i .sendHb = some s) :
    PoolInv members
      { w.set i s { w.trace i with hbPosition := Function.update (w.trace i).hbPosition i (w.trace i).position } with
        packets := (hbPacket i (s.hbSequence i) (w.host i).host, (w.trace i).position) :: w.packets } := by
  obtain ⟨hi, hm, hn⟩ := FhPool.act_spec ha
  simp only [fhAct, Option.some.injEq] at hn
  have hph : s.host.hb.smPhase = Function.update (w.ph i) i (w.host i).host.sm.phase := by rw [← hn]; rfl
  have hseq : s.hbSequence = Function.update (w.seq i) i (w.seq i i + 1) := by rw [← hn]; rfl
  have hnew : s.hbSequence i = w.seq i i + 1 := by rw [hseq, Function.update_self]
  refine h.keep (by rw [← hn]) (by rw [← hn]) ⟨rfl, rfl, rfl⟩ ?_ (fun k hj hk => ?_) fun k hj hk => ?_
  · rw [FhPool.set_seen, FhPool.set_ph, FhPool.set_seq, hph, hnew, hseq]
    refine h.reports.send (k := i) (hbPacket i (w.seq i i + 1) (w.host i).host) h.barrier.seen_le rfl ?_ rfl
    show Shows (w.host i).host.sm.phase _
    rw [h.phase i hm]
    exact .inl (h.slot i hm)
  · by_cases hkj : k = i
    · subst hkj; dsimp only; rw [Function.update_self]; exact h.barrier.seen_le k k hk hk
    · dsimp only; rw [Function.update_of_ne hkj]; rfl
  · by_cases hkj : k = i
    · subst hkj; dsimp only; rw [Function.update_self]; rfl
    · dsimp only; rw [Function.update_of_ne hkj]; exact h.barrier.seen_le i k hj hk

/-- What `receive_hb` does to the views. -/
theorem receiveHb_spec {c : HaConfig} {now : MtcClock} {pkt : HbPacket} {v v' : FhWorld}
    (hn : fhAct c v (.receiveHb now pkt) = some v') :
    pkt.hostIndex ≠ c.myIndex ∧ v'.pc = v.pc ∧ v.host.SameSelf v'.host ∧ v'.host.sf = v.host.sf ∧
      ((v' = v ∧ pkt.taken v = false) ∨
        (v.hbSequence pkt.hostIndex < pkt.sequence ∧
          v'.hbSequence = Function.update v.hbSequence pkt.hostIndex pkt.sequence ∧
          ((pkt.taken v = true ∧ v'.host.hb.smPhase = Function.update v.host.hb.smPhase pkt.hostIndex pkt.smPhase) ∨
            (pkt.taken v = false ∧ v'.host = v.host)))) := by
  cases fhAct_step hn with
  | receiveOld _ _ hne htaken => exact ⟨hne, rfl, ⟨rfl, rfl⟩, rfl, .inl ⟨rfl, htaken⟩⟩
  | receiveStarting _ _ hne hnewer htaken => exact ⟨hne, rfl, ⟨rfl, rfl⟩, rfl, .inr ⟨hnewer, rfl, .inr ⟨htaken, rfl⟩⟩⟩
  | receive _ _ hne hnewer htaken =>
    have hself : v.host.SameSelf (v.host.updateHbData now pkt) :=
      ⟨(Host.smWriterUnlock_self _).phase, (Host.smWriterUnlock_self _).commitedWeight⟩
    exact ⟨hne, rfl, hself, v.host.updateHbData_sf now pkt, .inr ⟨hnewer, rfl, .inl ⟨htaken, by simp⟩⟩⟩

theorem PoolInv.receive {now : MtcClock} {pkt : HbPacket} {position : Nat} (h : PoolInv members w)
    (hq : (pkt, position) ∈ w.packets ∨ members.isOn pkt.hostIndex = false)
    (ha : w.act c members i (.receiveHb now pkt) = some s) :
    PoolInv members (w.set i s
      (if pkt.taken (w.host i) then
        { w.trace i with hbPosition := Function.update (w.trace i).hbPosition pkt.hostIndex position }
      else w.trace i)) := by
  obtain ⟨hi, hm, hn⟩ := FhPool.act_spec ha
  obtain ⟨hne, hpc, hself, -, hcases⟩ := receiveHb_spec hn
  have hmem : members.isOn pkt.hostIndex = true → (pkt, position) ∈ w.packets := fun hon =>
    hq.resolve_right fun hoff => by rw [hon] at hoff; cases hoff
  rcases hcases with ⟨rfl, htaken⟩ | ⟨hnewer, hseq, ⟨htaken, hph⟩ | ⟨htaken, hhost⟩⟩
  · -- an old packet
    rw [htaken]
    refine h.keep rfl rfl ⟨rfl, rfl, rfl⟩ ?_ (fun _ _ _ => le_rfl) (h.barrier.seen_le i · · ·)
    rw [FhPool.set_seen, FhPool.set_ph, FhPool.set_seq]
    exact (h.reports.mono (fun _ _ => le_rfl)
      (fun j k _ _ => congrFun (congrFun (Function.update_eq_self i w.seen) j) k)
      (fun j k _ _ => congrFun (congrFun (Function.update_eq_self i w.ph) j) k)
      fun j k _ _ => congrFun (congrFun (Function.update_eq_self i w.seq) j) k)
  · rw [htaken]
    refine h.keep hself.phase hpc ⟨rfl, rfl, rfl⟩ ?_ (fun k hj hk => ?_) fun k hj hk => ?_
    · rw [FhPool.set_seen, FhPool.set_ph, FhPool.set_seq, hseq, hph]
      exact h.reports.receive (q := (pkt, position)) hm hne (fun hon => ⟨hmem hon, hnewer⟩) (.inl ⟨rfl, rfl⟩)
    · by_cases hkq : k = pkt.hostIndex
      · subst hkq
        simp only [if_true, Function.update_self]
        exact h.reports.newer i hm _ (hmem hk) hk hne hnewer
      · simp only [if_true, Function.update_of_ne hkq]; rfl
    · by_cases hkq : k = pkt.hostIndex
      · subst hkq
        simp only [if_true, Function.update_self]
        exact (h.reports.packet _ (hmem hk) hk).2.1
      · simp only [if_true, Function.update_of_ne hkq]; exact h.barrier.seen_le i k hj hk
  · rw [htaken]
    refine h.keep hself.phase hpc ⟨rfl, rfl, rfl⟩ ?_ (fun _ _ _ => le_rfl) (h.barrier.seen_le i · · ·)
    rw [FhPool.set_seen, FhPool.set_ph, FhPool.set_seq, hseq, hhost]
    exact h.reports.receive (q := (pkt, position)) hm hne (fun hon => ⟨hmem hon, hnewer⟩)
      (.inr ⟨Function.update_eq_self i w.seen, Function.update_eq_self i w.ph⟩)

theorem PoolInv.disarm (h : PoolInv members w) :
    PoolInv members (w.set i { w.host i with host := (w.host i).host.disarm } (w.trace i)) := by
  refine h.keep (w.host i).host.disarm_self.phase rfl ⟨rfl, rfl, rfl⟩ ?_ (fun _ _ _ => le_rfl) (h.barrier.seen_le i · · ·)
  rw [FhPool.set_seen, FhPool.set_ph, FhPool.set_seq, Host.disarm_hb]
  exact (h.reports.mono (fun _ _ => le_rfl)
    (fun j k _ _ => congrFun (congrFun (Function.update_eq_self i w.seen) j) k)
    (fun j k _ _ => congrFun (congrFun (Function.update_eq_self i w.ph) j) k)
    fun j k _ _ => congrFun (congrFun (Function.update_eq_self i w.seq) j) k)

/-- The State-File rows have no part in the heartbeat reports. -/
theorem PoolInv.rows {t : FhTrace} {records : List SfRecord} (h : PoolInv members w)
    (hphase : s.host.sm.phase = (w.host i).host.sm.phase) (hpc : s.pc = (w.host i).pc)
    (hhb : s.host.hb = (w.host i).host.hb) (hseq : s.hbSequence = (w.host i).hbSequence)
    (hcount : t.position = (w.trace i).position ∧ t.bodiesStarted = (w.trace i).bodiesStarted ∧
      t.bodiesFinished = (w.trace i).bodiesFinished) (hpos : t.hbPosition = (w.trace i).hbPosition) :
    PoolInv members { w.set i s t with records := records } := by
  refine h.keep hphase hpc hcount ?_ (fun k _ _ => by rw [hpos]; exact le_rfl) fun k hj hk => ?_
  · rw [FhPool.set_seen, FhPool.set_ph, FhPool.set_seq, hseq, hhb, hpos]
    exact (h.reports.mono (fun _ _ => le_rfl)
      (fun j k _ _ => congrFun (congrFun (Function.update_eq_self i w.seen) j) k)
      (fun j k _ _ => congrFun (congrFun (Function.update_eq_self i w.ph) j) k)
      fun j k _ _ => congrFun (congrFun (Function.update_eq_self i w.seq) j) k)
  · rw [hpos]; exact h.barrier.seen_le i k hj hk

end

/-- Every step of a pool that stays together keeps the invariant. -/
theorem PoolInv.next {c : HaConfig} {members : HostMap} {w w' : FhPool} {a : PoolAction} (h : PoolInv members w)
    (ht : Together members w) (hconf : ∀ j, members.isOn j = true → j < c.hostnum)
    (hn : poolNext c members w a = some w') (ht' : Together members w') : PoolInv members w' := by
  cases a with
  | fh i timeout =>
    simp only [poolNext, Option.map_eq_some_iff] at hn
    obtain ⟨s, ha, rfl⟩ := hn
    exact h.fh ht hconf ha
  | inner i a =>
    simp only [poolNext] at hn
    split at hn
    · rename_i hin
      rw [Option.map_eq_some_iff] at hn
      obtain ⟨s, ha, rfl⟩ := hn
      exact h.inner hin ha ht'
    · cases hn
  | disarm i =>
    simp only [poolNext] at hn
    split at hn <;> cases hn
    exact h.disarm
  | send i =>
    simp only [poolNext, Option.map_eq_some_iff] at hn
    obtain ⟨s, ha, rfl⟩ := hn
    exact h.send ha
  | receive i now pkt position =>
    simp only [poolNext] at hn
    split at hn
    · rename_i hq
      rw [Option.map_eq_some_iff] at hn
      obtain ⟨s, ha, rfl⟩ := hn
      exact h.receive hq ha
    · cases hn
  | writeRecord i =>
    simp only [poolNext, Option.map_eq_some_iff] at hn
    obtain ⟨s, ha, rfl⟩ := hn
    obtain ⟨hi, hm, ha⟩ := FhPool.act_spec ha
    cases ha
    exact h.rows rfl rfl rfl rfl ⟨rfl, rfl, rfl⟩ rfl
  | readRecord i r data stat =>
    simp only [poolNext] at hn
    split at hn
    · rw [Option.map_eq_some_iff] at hn
      obtain ⟨s, ha, rfl⟩ := hn
      obtain ⟨hi, hm, ha⟩ := FhPool.act_spec ha
      cases ha
      exact h.rows rfl rfl rfl rfl ⟨rfl, rfl, rfl⟩ rfl
    · cases hn

theorem reach_poolInv {c : HaConfig} {members : HostMap} {w : FhPool}
    (h : (fhPool c members).Reach (KeepsTogether c members) w) :
    PoolInv members w ∧ Together members w ∧ ∀ j, members.isOn j = true → j < c.hostnum := by
  refine h.inv (I := fun w => PoolInv members w ∧ Together members w ∧ ∀ j, members.isOn j = true → j < c.hostnum) ?_ ?_
  · rintro w ⟨hs, ht⟩
    exact ⟨PoolInv.init hs, ht, hs.configured⟩
  · rintro w w' a ⟨hinv, ht, hconf⟩ hok hn
    have ht' : Together members w' := by
      unfold KeepsTogether at hok
      rw [show poolNext c members w a = some w' from hn] at hok
      exact hok
    exact ⟨hinv.next ht hconf hn ht', ht', hconf⟩

/-! ## The barrier -/

/-- A body lies at an even position of the cycle, and a host is in at most one. -/
theorem FhPc.bodies_le (pc : FhPc) :
    pc.bodyDone + pc.bodyOf.toList.length ≤ 1 ∧ (pc.phase.slot % 2 = 1 → pc.bodyDone + pc.bodyOf.toList.length = 0) := by
  cases pc with
  | wait1 s => exact ⟨Nat.zero_le _, fun _ => rfl⟩
  | met1 s => exact ⟨Nat.zero_le _, fun _ => rfl⟩
  | wait2 s => exact ⟨Nat.zero_le _, fun _ => rfl⟩
  | body s => cases s <;> decide
  | freezing consistent my mys => exact ⟨le_rfl, fun h => absurd (show SmPhase.fh2.slot % 2 = 1 from h) (by decide)⟩
  | fencing => decide
  | done s => cases s <;> decide
  | fenced => decide

theorem FhPc.bodyOf_phase {pc : FhPc} {s : FhStage} (h : pc.bodyOf = some s) :
    pc.phase.slot = 2 * s.number ∧ s.number ≤ 4 ∧ pc.met = true ∧ pc.bodyDone = 0 ∧ 0 < s.number := by
  cases pc with
  | body s' => cases s' <;> cases h <;> decide
  | freezing consistent my mys => cases h; exact ⟨rfl, by decide, rfl, rfl, by decide⟩
  | fencing => cases h; decide
  | fenced => cases h; decide
  | _ => cases h

/-- The phases a waiting host waits for are its own and the next. -/
theorem FhPc.awaits_slot {pc : FhPc} {p1 p2 : SmPhase} (h : pc.awaits = some (p1, p2)) :
    p1.slot = pc.phase.slot ∧ p2.slot = (pc.phase.slot + 1) % 10 := by
  cases pc with
  | wait1 s => cases h; exact ⟨rfl, s.slot_phase2⟩
  | wait2 s => cases h; exact ⟨rfl, s.slot_phase3⟩
  | _ => cases h

/-- In every run of members that stay together: the phases follow the positions; the positions of two
hosts differ by at most one; while a host executes a body every other has finished the one before and
none has started the one after; and no host is past the two phases another waits to see. -/
theorem rendezvous_is_barrier {c : HaConfig} {members : HostMap} {w : FhPool}
    (h : (fhPool c members).Reach (KeepsTogether c members) w) {i j : Nat} (hi : members.isOn i = true)
    (hj : members.isOn j = true) :
    (w.host i).host.sm.phase.slot = (w.trace i).position % 10 ∧
    (w.trace i).position ≤ (w.trace j).position + 1 ∧
    (∀ s, (w.host i).pc.bodyOf = some s →
      (w.trace i).bodiesStarted = 4 * ((w.trace i).position / 10) + s.number ∧
      (w.trace i).bodiesStarted ≤ (w.trace j).bodiesFinished + 1 ∧
      (w.trace j).bodiesStarted ≤ (w.trace i).bodiesStarted) ∧
    (∀ p1 p2, (w.host i).pc.awaits = some (p1, p2) →
      (w.trace j).position < (w.trace i).position ∨ (w.host j).host.sm.phase = p1 ∨ (w.host j).host.sm.phase = p2) := by
  obtain ⟨hinv, -, -⟩ := reach_poolInv h
  have hsloti := hinv.slot i hi
  have hslotj := hinv.slot j hj
  have hij : (w.trace i).position ≤ (w.trace j).position + 1 := hinv.barrier.adjacent hi hj
  have hji : (w.trace j).position ≤ (w.trace i).position + 1 := hinv.barrier.adjacent hj hi
  refine ⟨by rw [hinv.phase i hi]; exact hsloti, hij, fun s hs => ?_, fun p1 p2 hp => ?_⟩
  · obtain ⟨hslot, hle, hmet, hdone, hpos⟩ := FhPc.bodyOf_phase hs
    have hmeet : (w.trace i).position ≤ (w.trace j).position := hinv.barrier.le_of_met hi hj hmet
    obtain ⟨hfi, hsi⟩ := hinv.bodies i hi
    obtain ⟨hfj, hsj⟩ := hinv.bodies j hj
    rw [hs, Option.toList_some, List.length_singleton] at hsi
    rw [hdone] at hfi
    obtain ⟨hone, hnone⟩ := (w.host j).pc.bodies_le
    rw [hslot] at hsloti
    have hbi : bodiesBefore (w.trace i).position + 1 = 4 * ((w.trace i).position / 10) + s.number := by
      unfold bodiesBefore; omega
    rcases (show (w.trace j).position = (w.trace i).position ∨ (w.trace j).position = (w.trace i).position + 1 by omega)
      with hp | hp
    · rw [hp] at hfj
      refine ⟨by omega, by omega, by omega⟩
    · -- a host one further stands at an odd position
      have hbj : bodiesBefore (w.trace j).position = bodiesBefore (w.trace i).position + 1 := by
        unfold bodiesBefore; omega
      have := hnone (by omega)
      refine ⟨by omega, by omega, by omega⟩
  · obtain ⟨h1, h2⟩ := FhPc.awaits_slot hp
    have hphase := hinv.phase j hj
    rcases (show (w.trace j).position < (w.trace i).position ∨ (w.trace j).position = (w.trace i).position ∨
      (w.trace j).position = (w.trace i).position + 1 by omega) with hp | hp | hp
    · exact .inl hp
    · refine .inr (.inl (SmPhase.slot_inj ?_))
      rw [hphase, hslotj, hp, h1, hsloti]
    · refine .inr (.inr (SmPhase.slot_inj ?_))
      rw [hphase, hslotj, hp, h2, hsloti, Nat.mod_add_mod]

/-! ## A pool of two hosts -/

/-- Three hosts are configured, the third is not there. -/
def pairConfig : HaConfig := .triple

def pairMembers : HostMap := 3

/-- A started host of the pair, with a round to run. -/
def pairHost (i : Nat) : FhWorld where
  host :=
    { sm := { ComDataSm.initial with
        currentLiveset := pairMembers, proposedLiveset := pairMembers, fencing := .armed, phase := .started }
      hb := { ComDataHb.initial with hbdomain := pairMembers }
      sf := { ComDataSf.initial i with sfdomain := pairMembers, sfAccess := true }
      smvar := { SmVar.initial i with phase := .started, needFh := true, fencing := .armed } }
  pc := .body .started
  hbReceive := .idle
  smWorker := .idle
  hbSequence _ := 0

def pairPool : FhPool := ⟨pairHost, [], [], fun _ => ⟨0, fun _ => 0, fun _ => 0, fun _ => 0, 0, 0, 0, fun _ => 0⟩⟩

theorem pairPool_started : pairPool.Started pairConfig pairMembers where
  configured := fun i hi => HostMap.forall_isOn (b := pairMembers)
    (p := fun i => i < 3) (by decide +kernel) i hi
  pc := fun _ _ => rfl
  phase := fun _ _ => rfl
  hbSeen := fun _ _ _ _ => rfl
  sfSeen := fun _ _ _ _ => rfl
  packets := fun q hq => by cases hq
  records := fun r hr => by cases hr
  position := fun _ _ => rfl
  hbPosition := fun _ _ _ _ => rfl
  sfPosition := fun _ _ _ _ => rfl
  bodies := fun _ _ => ⟨rfl, rfl⟩

theorem pairPool_init : (fhPool pairConfig pairMembers).init pairPool := ⟨pairPool_started, by decide +kernel⟩

/-- Host `i` receives the last packet of host `j`. -/
def receiveLast (i j : Nat) (w : FhPool) : PoolAction :=
  match w.packets.find? fun q => q.1.hostIndex = j with
  | some q => .receive i 0 q.1 q.2
  | none => .send i

/-- A pending `start_fh` of host `i`, or another heartbeat. -/
def settle (i : Nat) (w : FhPool) : PoolAction := if (w.host i).hbReceive = .idle then .send i else .inner i .hbStartFh

/-- Both hosts send a heartbeat and receive the other's. -/
def exchange : List (FhPool → PoolAction) :=
  [fun _ => .send 0, fun _ => .send 1, receiveLast 0 1, receiveLast 1 0, settle 0, settle 1]

/-- Both sm threads take `n` steps. -/
def bothStep (n : Nat) : List (FhPool → PoolAction) :=
  List.replicate n (fun _ => .fh 0 false) ++ List.replicate n (fun _ => .fh 1 false)

/-- From the end of a stage through the next rendezvous, on heartbeats only. -/
def meetOnHeartbeat : List (FhPool → PoolAction) := bothStep 2 ++ exchange ++ bothStep 2 ++ exchange ++ bothStep 1

theorem rendezvous_is_barrier_pairPool :
    ∃ w : FhPool, (w.host 0).pc = .body .fh1 ∧ (w.trace 0).bodiesStarted ≤ (w.trace 1).bodiesFinished + 1 := by
  have hrun : ∃ w, (fhPool pairConfig pairMembers).Reach (KeepsTogether pairConfig pairMembers) w ∧
      decide ((w.host 0).pc = .body .fh1) = true :=
    Transition.Machine.reach_of_played pairPool_init meetOnHeartbeat _ (by decide +kernel)
  obtain ⟨w, hw, hp⟩ := hrun
  rw [decide_eq_true_eq] at hp
  obtain ⟨-, -, hbody, -⟩ := rendezvous_is_barrier (i := 0) (j := 1) hw (by decide) (by decide)
  exact ⟨w, hp, (hbody .fh1 (by rw [hp]; rfl)).2.1⟩

end Xha
