/-
The weights of the vote: `commit_weight` fixes a host's weight for a round, its State-File record shows it
together with the phase, and the rendezvous before the consistent view waits for that phase. The phases
come back every round, so the wait is as good as the record is young: where the rows of a voter are of its own round,
they show the weights of the round (`votes_with_committed_weights`, by `RowsInv` over the rows and the records).
-/
import Xha.Sm.Rendezvous

namespace Xha

open DelayedBarrier

/-! ## Rows of the State-File -/

/-- A row of the host with trace `t`, copied at `position`, with the phase and the weight shown there. -/
structure RowOk (t : FhTrace) (position : Nat) (phase : SmPhase) (weight : MtcU32) : Prop where
  le : position ≤ t.position
  shows : Shows phase position
  weight : 3 ≤ position % 10 → weight = t.committed (position / 10)

/-- From its commit to the end of the round a host's committed weight is that of the round. -/
def CommitOk (pc : FhPc) (weight : MtcU32) (t : FhTrace) : Prop :=
  pc = .done .fh1 ∨ 3 ≤ t.position % 10 → weight = t.committed (t.position / 10)

/-- The commit comes at FH1 and writes the weight of its own round, every other step none. -/
theorem FhTrace.step_committed (pc pc' : FhPc) (weight : MtcU32) (t : FhTrace) :
    (t.step pc pc' weight).committed = t.committed ∨
      (pc = .body .fh1 ∧ (t.step pc pc' weight).committed = Function.update t.committed (t.position / 10) weight) := by
  unfold step
  split
  case _ => exact .inl rfl
  case _ => exact .inl rfl
  case _ => split <;> exact .inl rfl
  case _ => exact .inr ⟨rfl, rfl⟩
  all_goals exact .inl rfl

theorem RowOk.step {n : Nat} {h h' : Host} {pc pc' : FhPc} {t : FhTrace} {position : Nat} {phase : SmPhase}
    {weight weight' : MtcU32} (hr : RowOk t position phase weight) (hc : FhControl n h h' pc pc')
    (hslot : pc.phase.slot = t.position % 10) : RowOk (t.step pc pc' weight') position phase weight := by
  have hmoves := hc.moves weight' t
  have hle := hr.le
  refine ⟨?_, hr.shows, fun h3 => ?_⟩
  · rcases hmoves with ⟨hp, _⟩ | ⟨hp, _⟩ <;> omega
  · rw [hr.weight h3]
    rcases t.step_committed pc pc' weight' with hsame | ⟨rfl, hset⟩
    · rw [hsame]
    · -- the row is of an earlier round: it was copied after FH1
      have h2 : t.position % 10 = 2 := hslot.symm
      rw [hset, Function.update_of_ne (by omega)]

theorem CommitOk.step {n : Nat} {h h' : Host} {pc pc' : FhPc} {t : FhTrace} (hc : FhControl n h h' pc pc')
    (hslot : pc.phase.slot = t.position % 10) (hold : CommitOk pc h.sm.commitedWeight t) :
    CommitOk pc' h'.sm.commitedWeight (t.step pc pc' h'.sm.commitedWeight) := by
  unfold CommitOk at hold ⊢
  cases hc with
  | met1 s _ hs =>
    rintro (hd | h3)
    · cases hd
    · rw [hs.commitedWeight]; exact hold (.inr h3)
  | set2 s _ hw =>
    rintro (hd | h3)
    · cases hd
    · rw [hw]
      change 3 ≤ (t.position + 1) % 10 at h3
      change _ = t.committed ((t.position + 1) / 10)
      -- the commit of this turn is behind, and the second phase of a stage does not begin a turn
      have : 3 ≤ t.position % 10 ∧ (t.position + 1) / 10 = t.position / 10 := by
        cases s <;> simp only [FhPc.phase, FhStage.phase1, SmPhase.slot] at hslot <;> omega
      rw [this.2]
      exact hold (.inr this.1)
  | met2 s _ hs =>
    rintro (hd | h3)
    · cases hd
    · rw [hs.commitedWeight]
      by_cases hst : s = .started
      · subst hst; exact hold (.inr h3)
      · simp only [FhTrace.step, if_neg hst] at h3 ⊢
        exact hold (.inr h3)
  | commit _ hw =>
    rintro -
    show h'.sm.commitedWeight = Function.update t.committed (t.position / 10) h'.sm.commitedWeight (t.position / 10)
    rw [Function.update_self]
  | within _ _ hb hs =>
    rintro (hd | h3)
    · cases hb <;> cases hd
    · rw [hs.commitedWeight]
      cases hb <;> exact hold (.inr h3)
  | set1 s _ hw =>
    rintro (hd | h3)
    · cases hd
    · rw [hw]
      change 3 ≤ (t.position + 1) % 10 at h3
      change _ = t.committed ((t.position + 1) / 10)
      -- the commit is behind, or the step is the one that leaves it
      have : (FhPc.done s = .done .fh1 ∨ 3 ≤ t.position % 10) ∧ (t.position + 1) / 10 = t.position / 10 := by
        cases s <;> simp only [FhPc.phase, FhStage.phase2, SmPhase.slot] at hslot
        case fh1 => exact ⟨.inl rfl, by omega⟩
        all_goals exact ⟨.inr (by omega), by omega⟩
      rw [this.2]
      exact hold this.1

/-! ## The invariant of the rows -/

/-- From the end of the rendezvous before the consistent view to the next phase. -/
def FhPc.voting : FhPc → Bool
  | .body .fh2 | .freezing _ _ _ | .done .fh2 => true
  | _ => false

structure RowsInv (members : HostMap) (w : FhPool) : Prop where
  committed : ∀ i, members.isOn i = true → CommitOk (w.host i).pc (w.host i).host.sm.commitedWeight (w.trace i)
  record : ∀ r ∈ w.records, members.isOn r.host = true →
    RowOk (w.trace r.host) r.position r.smPhase r.weight ∧ r.number ≤ (w.trace r.host).recordsWritten
  ordered : ∀ r ∈ w.records, ∀ r' ∈ w.records, members.isOn r.host = true → r'.host = r.host → r.number ≤ r'.number →
    r.position ≤ r'.position
  newer : ∀ i, members.isOn i = true → ∀ r ∈ w.records, members.isOn r.host = true → r.host ≠ i →
    (w.trace i).sfNumber r.host ≤ r.number → (w.trace i).sfPosition r.host ≤ r.position
  row : ∀ i j, members.isOn i = true → members.isOn j = true →
    RowOk (w.trace j) ((w.trace i).sfPosition j) ((w.host i).host.sf.smPhase j) ((w.host i).host.sf.weight j)
  fresh : ∀ i j, members.isOn i = true → members.isOn j = true → (w.host i).pc.voting = true →
    (w.trace i).position ≤ (w.trace i).sfPosition j

/-- A host that votes votes with the weights committed in its round. -/
theorem RowsInv.weights {members : HostMap} {w : FhPool} (h : RowsInv members w) (hp : PoolInv members w) {i j : Nat}
    (hi : members.isOn i = true) (hj : members.isOn j = true) (hv : (w.host i).pc.voting = true) :
    (w.host i).host.sf.weight j = (w.trace j).committed ((w.trace i).position / 10) := by
  have hslot : (w.trace i).position % 10 = 4 := by
    rw [← hp.slot i hi]
    cases hpc : (w.host i).pc with
    | body s => cases s <;> rw [hpc] at hv <;> first | rfl | cases hv
    | freezing consistent my mys => rfl
    | done s => cases s <;> rw [hpc] at hv <;> first | rfl | cases hv
    | _ => rw [hpc] at hv; cases hv
  have hrow := h.row i j hi hj
  have hfresh := h.fresh i j hi hj hv
  have hle := hrow.le
  have hadj : (w.trace j).position ≤ (w.trace i).position + 1 := hp.barrier.adjacent hj hi
  have hround : (w.trace i).sfPosition j / 10 = (w.trace i).position / 10 := by omega
  rw [hrow.weight (by omega), hround]

theorem RowsInv.init {c : HaConfig} {members : HostMap} {w : FhPool} (h : w.Started c members) : RowsInv members w := by
  have hrow : ∀ (t : FhTrace) {phase : SmPhase} {weight : MtcU32}, phase.beforeFirst = true → RowOk t 0 phase weight :=
    fun t _ _ hb => ⟨Nat.zero_le _, Shows.beforeFirst hb, fun h3 => absurd h3 (by decide)⟩
  refine ⟨fun i hi => ?_, fun r hr hm => ?_, fun r hr r' hr' hm _ _ => ?_, fun i hi r hr hm _ _ => ?_, fun i j hi hj => ?_,
    fun i j hi hj hv => ?_⟩
  · rintro (hd | h3)
    · rw [h.pc i hi] at hd; cases hd
    · rw [h.position i hi] at h3; exact absurd h3 (by decide)
  · obtain ⟨h0, hb, hn⟩ := h.records r hr hm
    exact ⟨h0 ▸ hrow _ hb, hn⟩
  · rw [(h.records r hr hm).1]; exact Nat.zero_le _
  · rw [h.sfPosition i _ hi hm]; exact Nat.zero_le _
  · rw [h.sfPosition i j hi hj]; exact hrow _ (h.sfSeen i j hi hj)
  · rw [h.pc i hi] at hv; cases hv

/-! ## Steps -/

section

variable {c : HaConfig} {members : HostMap} {w : FhPool} {i : Nat} {s : FhWorld}

/-- The trace of a host without its heartbeat views and its bodies. -/
structure SameRows (t t' : FhTrace) : Prop where
  position : t'.position = t.position
  sfPosition : t'.sfPosition = t.sfPosition
  sfNumber : t'.sfNumber = t.sfNumber
  recordsWritten : t'.recordsWritten = t.recordsWritten
  committed : t'.committed = t.committed

/-- A step that changes neither a row nor a record keeps the invariant. -/
theorem RowsInv.keep {t : FhTrace} {packets : List (HbPacket × Nat)} (h : RowsInv members w)
    (hpc : s.pc = (w.host i).pc) (hcommit : s.host.sm.commitedWeight = (w.host i).host.sm.commitedWeight)
    (hphase : s.host.sf.smPhase = (w.host i).host.sf.smPhase) (hweight : s.host.sf.weight = (w.host i).host.sf.weight)
    (ht : SameRows (w.trace i) t) : RowsInv members { w.set i s t with packets := packets } := by
  have htr : ∀ j, SameRows (w.trace j) ((w.set i s t).trace j) := fun j => by
    by_cases hj : j = i
    · subst hj; rw [FhPool.set_trace_self]; exact ht
    · rw [FhPool.set_trace_of_ne _ _ _ _ hj]; exact ⟨rfl, rfl, rfl, rfl, rfl⟩
  have hho : ∀ j, ((w.set i s t).host j).pc = (w.host j).pc ∧
      ((w.set i s t).host j).host.sm.commitedWeight = (w.host j).host.sm.commitedWeight ∧
      ((w.set i s t).host j).host.sf.smPhase = (w.host j).host.sf.smPhase ∧
      ((w.set i s t).host j).host.sf.weight = (w.host j).host.sf.weight := fun j => by
    by_cases hj : j = i
    · subst hj; rw [FhPool.set_host_self]; exact ⟨hpc, hcommit, hphase, hweight⟩
    · rw [FhPool.set_host_of_ne _ _ _ _ hj]; exact ⟨rfl, rfl, rfl, rfl⟩
  have hrow : ∀ j {position : Nat} {phase : SmPhase} {weight : MtcU32}, RowOk (w.trace j) position phase weight →
      RowOk ((w.set i s t).trace j) position phase weight := fun j _ _ _ hr =>
    ⟨by rw [(htr j).position]; exact hr.le, hr.shows, by rw [(htr j).committed]; exact hr.weight⟩
  refine ⟨fun j hj => ?_, fun r hr hm => ?_, h.ordered, fun j hj r hr hm hne hle => ?_, fun j k hj hk => ?_,
    fun j k hj hk hv => ?_⟩
  · show CommitOk ((w.set i s t).host j).pc _ ((w.set i s t).trace j)
    unfold CommitOk
    rw [(hho j).1, (hho j).2.1, (htr j).position, (htr j).committed]
    exact h.committed j hj
  · obtain ⟨hok, hn⟩ := h.record r hr hm
    exact ⟨hrow _ hok, le_of_le_of_eq hn (htr _).recordsWritten.symm⟩
  · show ((w.set i s t).trace j).sfPosition r.host ≤ _
    rw [(htr j).sfPosition]
    exact h.newer j hj r hr hm hne (le_of_eq_of_le (congrFun (htr j).sfNumber _).symm hle)
  · show RowOk ((w.set i s t).trace k) (((w.set i s t).trace j).sfPosition k) (((w.set i s t).host j).host.sf.smPhase k)
      (((w.set i s t).host j).host.sf.weight k)
    rw [(htr j).sfPosition, (hho j).2.2.1, (hho j).2.2.2]
    exact hrow _ (h.row j k hj hk)
  · show ((w.set i s t).trace j).position ≤ ((w.set i s t).trace j).sfPosition k
    rw [(htr j).position, (htr j).sfPosition]
    exact h.fresh j k hj hk (by rw [← (hho j).1]; exact hv)

/-- Every member has all of them in its State-File domain. -/
def OnStatefile (members : HostMap) (w : FhPool) : Prop :=
  ∀ i < maxHostNum, members.isOn i = true → members.subsetEqual (w.host i).host.sf.sfdomain = true

instance (members : HostMap) (w : FhPool) : Decidable (OnStatefile members w) := by
  unfold OnStatefile; infer_instance

/-- A host that leaves the rendezvous before the consistent view last read a record copied after its
writer had left FH2DONE of the round before, nine positions back from FH2DONE of this round. -/
def FreshRows (members : HostMap) (w : FhPool) : PoolAction → Prop
  | .fh i _ => (w.host i).pc = .wait2 .fh2 →
      ∀ j < maxHostNum, members.isOn j = true → (w.trace i).position + 1 < (w.trace i).sfPosition j + 10
  | _ => True

instance (members : HostMap) (w : FhPool) (a : PoolAction) : Decidable (FreshRows members w a) := by
  unfold FreshRows; split <;> infer_instance

/-- The row of a host that passes the check on the State-File, if it is not of the round before, is of
this round. -/
theorem RowsInv.fresh_of_wait (h : RowsInv members w) (hp : PoolInv members w) (ht : Together members w)
    (hs : OnStatefile members w) (hconf : ∀ j, members.isOn j = true → j < c.hostnum) (hi : members.isOn i = true)
    (hpc : (w.host i).pc = .wait2 .fh2) (hw : rendezvousWait c.hostnum .fh2 .fh2done true (w.host i).host = true) {j : Nat}
    (hj : members.isOn j = true) (hfresh : (w.trace i).position + 1 < (w.trace i).sfPosition j + 10) :
    (w.trace i).position ≤ (w.trace i).sfPosition j := by
  have hslot : (w.trace i).position % 10 = 4 := by rw [← hp.slot i hi, hpc]; rfl
  have hrow := h.row i j hi hj
  have hsf := HostMap.subsetEqual_iff.1 (hs i (HostMap.lt_of_isOn hi) hi) j hj
  have hshown : (w.trace i).sfPosition j % 10 = 4 ∨ (w.trace i).sfPosition j % 10 = 5 := by
    rcases (rendezvousWait_spec hw (hconf j hj) (ht.liveset hi hj).1).2 rfl hsf with hph | hph
    · exact .inl (Shows.mod_eq (hph ▸ hrow.shows) (by decide))
    · exact .inr (Shows.mod_eq (hph ▸ hrow.shows) (by decide))
  omega

theorem RowsInv.fh {timeout : Bool} (h : RowsInv members w) (hp : PoolInv members w) (ht : Together members w)
    (hs : OnStatefile members w) (hconf : ∀ j, members.isOn j = true → j < c.hostnum)
    (hok : FreshRows members w (.fh i timeout)) (ha : w.act c members i (.fh timeout) = some s) :
    RowsInv members (w.set i s ((w.trace i).step (w.host i).pc s.pc s.host.sm.commitedWeight)) := by
  obtain ⟨hi, hm, hn⟩ := FhPool.act_spec ha
  simp only [fhAct, Option.map_eq_some_iff] at hn
  obtain ⟨⟨h', pc'⟩, hn, rfl⟩ := hn
  obtain ⟨hc, hv⟩ := fhNext_control hn
  obtain ⟨-, hsfp, hsfn, hrec⟩ := FhTrace.step_views (w.host i).pc pc' h'.sm.commitedWeight (w.trace i)
  generalize ht' : (w.trace i).step (w.host i).pc pc' h'.sm.commitedWeight = t at hsfp hsfn hrec
  generalize hs' : ({ w.host i with host := h', pc := pc' } : FhWorld) = s
  have hrow : ∀ j, members.isOn j = true → ∀ {position : Nat} {phase : SmPhase} {weight : MtcU32},
      RowOk (w.trace j) position phase weight → RowOk ((w.set i s t).trace j) position phase weight :=
    fun j hj _ _ _ hr => by
      by_cases hji : j = i
      · subst hji; rw [FhPool.set_trace_self, ← ht']; exact hr.step hc (hp.slot j hj)
      · rw [FhPool.set_trace_of_ne _ _ _ _ hji]; exact hr
  have htr : ∀ j, ((w.set i s t).trace j).sfPosition = (w.trace j).sfPosition ∧
      ((w.set i s t).trace j).sfNumber = (w.trace j).sfNumber ∧
      ((w.set i s t).trace j).recordsWritten = (w.trace j).recordsWritten := fun j => by
    by_cases hji : j = i
    · subst hji; rw [FhPool.set_trace_self]; exact ⟨hsfp, hsfn, hrec⟩
    · rw [FhPool.set_trace_of_ne _ _ _ _ hji]; exact ⟨rfl, rfl, rfl⟩
  have hho : ∀ j, ((w.set i s t).host j).host.sf.smPhase = (w.host j).host.sf.smPhase ∧
      ((w.set i s t).host j).host.sf.weight = (w.host j).host.sf.weight := fun j => by
    by_cases hji : j = i
    · subst hji; rw [FhPool.set_host_self, ← hs']; exact ⟨hv.sfSmPhase, hv.sfWeight⟩
    · rw [FhPool.set_host_of_ne _ _ _ _ hji]; exact ⟨rfl, rfl⟩
  refine ⟨fun j hj => ?_, fun r hr hm => ?_, h.ordered, fun j hj r hr hm hne hle => ?_, fun j k hj hk => ?_,
    fun j k hj hk hvote => ?_⟩
  · by_cases hji : j = i
    · subst hji
      rw [FhPool.set_host_self, FhPool.set_trace_self, ← hs', ← ht']
      exact CommitOk.step hc (hp.slot j hj) (h.committed j hj)
    · rw [FhPool.set_host_of_ne _ _ _ _ hji, FhPool.set_trace_of_ne _ _ _ _ hji]; exact h.committed j hj
  · obtain ⟨hrok, hnum⟩ := h.record r hr hm
    exact ⟨hrow _ hm hrok, by rw [(htr _).2.2]; exact hnum⟩
  · rw [(htr j).1]
    exact h.newer j hj r hr hm hne (by rw [← (htr j).2.1]; exact hle)
  · rw [(htr j).1, (hho j).1, (hho j).2]
    exact hrow _ hk (h.row j k hj hk)
  · rw [(htr j).1]
    by_cases hji : j = i
    · subst hji
      rw [FhPool.set_host_self, ← hs'] at hvote
      rw [FhPool.set_trace_self, ← ht']
      have hmoves := hc.moves h'.sm.commitedWeight (w.trace j)
      generalize hpc : (w.host j).pc = pc at hc hmoves
      -- into the vote through the rendezvous, or inside it
      cases hc with
      | met2 st hw _ =>
        cases st <;> cases hvote
        exact h.fresh_of_wait hp ht hs hconf hj hpc hw hk (hok hpc k (HostMap.lt_of_isOn hk) hk)
      | within _ _ hb _ =>
        have hsame : ((w.trace j).step pc pc' h'.sm.commitedWeight).position = (w.trace j).position := by
          cases hb <;> rfl
        rw [hsame]
        refine h.fresh j k hj hk ?_
        rw [hpc]
        cases hb <;> first | rfl | cases hvote
      | _ => cases hvote
    · rw [FhPool.set_host_of_ne _ _ _ _ hji] at hvote
      rw [FhPool.set_trace_of_ne _ _ _ _ hji]
      exact h.fresh j k hj hk hvote

/-- Host `i` takes a row of host `k` that is not older than the one it has. -/
theorem RowsInv.setRow {k position m : Nat} {phase : SmPhase} {weight : MtcU32} (h : RowsInv members w)
    (hpc : s.pc = (w.host i).pc) (hcommit : s.host.sm.commitedWeight = (w.host i).host.sm.commitedWeight)
    (hphase : s.host.sf.smPhase = Function.update (w.host i).host.sf.smPhase k phase)
    (hweight : s.host.sf.weight = Function.update (w.host i).host.sf.weight k weight)
    (hrow : members.isOn k = true → RowOk (w.trace k) position phase weight)
    (hge : members.isOn k = true → (w.trace i).sfPosition k ≤ position)
    (hnum : members.isOn k = true → k ≠ i → ∀ r ∈ w.records, r.host = k → m ≤ r.number → position ≤ r.position) :
    RowsInv members (w.set i s { w.trace i with
      sfNumber := Function.update (w.trace i).sfNumber k m
      sfPosition := Function.update (w.trace i).sfPosition k position }) := by
  generalize ht : FhTrace.mk _ _ _ _ _ _ _ _ = t
  have hkeep : t.position = (w.trace i).position ∧ t.recordsWritten = (w.trace i).recordsWritten ∧
      t.committed = (w.trace i).committed := by rw [← ht]; exact ⟨rfl, rfl, rfl⟩
  have hsfn : t.sfNumber = Function.update (w.trace i).sfNumber k m := by rw [← ht]
  have hsfp : t.sfPosition = Function.update (w.trace i).sfPosition k position := by rw [← ht]
  have htr : ∀ j, ((w.set i s t).trace j).position = (w.trace j).position ∧
      ((w.set i s t).trace j).recordsWritten = (w.trace j).recordsWritten ∧
      ((w.set i s t).trace j).committed = (w.trace j).committed := fun j => by
    by_cases hj : j = i
    · subst hj; rw [FhPool.set_trace_self]; exact hkeep
    · rw [FhPool.set_trace_of_ne _ _ _ _ hj]; exact ⟨rfl, rfl, rfl⟩
  have hok : ∀ j {position : Nat} {phase : SmPhase} {weight : MtcU32}, RowOk (w.trace j) position phase weight →
      RowOk ((w.set i s t).trace j) position phase weight := fun j _ _ _ hr =>
    ⟨by rw [(htr j).1]; exact hr.le, hr.shows, by rw [(htr j).2.2]; exact hr.weight⟩
  refine ⟨fun j hj => ?_, fun r hr hm => ?_, h.ordered, fun j hj r hr hm hne hle => ?_, fun j l hj hl => ?_,
    fun j l hj hl hv => ?_⟩
  · unfold CommitOk
    rw [(htr j).1, (htr j).2.2]
    by_cases hji : j = i
    · subst hji; rw [FhPool.set_host_self, hpc, hcommit]; exact h.committed j hj
    · rw [FhPool.set_host_of_ne _ _ _ _ hji]; exact h.committed j hj
  · obtain ⟨hrok, hn⟩ := h.record r hr hm
    exact ⟨hok _ hrok, by rw [(htr _).2.1]; exact hn⟩
  · by_cases hji : j = i
    · subst hji
      rw [FhPool.set_trace_self] at hle ⊢
      rw [hsfp]
      rw [hsfn] at hle
      -- the records of host `k` are compared with the one just read, the others with what was known
      by_cases hk : r.host = k
      · subst hk
        rw [Function.update_self] at hle ⊢
        exact hnum hm hne r hr rfl hle
      · rw [Function.update_of_ne hk] at hle ⊢
        exact h.newer j hj r hr hm hne hle
    · rw [FhPool.set_trace_of_ne _ _ _ _ hji] at hle ⊢
      exact h.newer j hj r hr hm hne hle
  · refine hok l ?_
    by_cases hji : j = i
    · subst hji
      rw [FhPool.set_trace_self, FhPool.set_host_self, hsfp, hphase, hweight]
      by_cases hlk : l = k
      · subst hlk
        simp only [Function.update_self]
        exact hrow hl
      · simp only [Function.update_of_ne hlk]
        exact h.row j l hj hl
    · rw [FhPool.set_trace_of_ne _ _ _ _ hji, FhPool.set_host_of_ne _ _ _ _ hji]
      exact h.row j l hj hl
  · rw [(htr j).1]
    by_cases hji : j = i
    · subst hji
      rw [FhPool.set_host_self, hpc] at hv
      rw [FhPool.set_trace_self, hsfp]
      have hold := h.fresh j l hj hl hv
      by_cases hlk : l = k
      · subst hlk
        rw [Function.update_self]
        exact le_trans hold (hge hl)
      · rw [Function.update_of_ne hlk]
        exact hold
    · rw [FhPool.set_host_of_ne _ _ _ _ hji] at hv
      rw [FhPool.set_trace_of_ne _ _ _ _ hji]
      exact h.fresh j l hj hl hv

/-- Host `i` writes a record of its current position. -/
theorem RowsInv.addRecord {p : SmPhase} {b : MtcU32} (h : RowsInv members w) (hm : members.isOn i = true)
    (hrow : RowOk (w.trace i) (w.trace i).position p b) :
    RowsInv members { w.set i (w.host i) { w.trace i with recordsWritten := (w.trace i).recordsWritten + 1 } with
      records := ⟨i, (w.trace i).recordsWritten + 1, (w.trace i).position, p, b⟩ :: w.records } := by
  generalize ht : FhTrace.mk _ _ _ _ _ _ _ _ = t
  have htr : ∀ j, ((w.set i (w.host i) t).trace j).position = (w.trace j).position ∧
      ((w.set i (w.host i) t).trace j).sfPosition = (w.trace j).sfPosition ∧
      ((w.set i (w.host i) t).trace j).sfNumber = (w.trace j).sfNumber ∧
      (w.trace j).recordsWritten ≤ ((w.set i (w.host i) t).trace j).recordsWritten ∧
      ((w.set i (w.host i) t).trace j).committed = (w.trace j).committed := fun j => by
    by_cases hj : j = i
    · subst hj; rw [FhPool.set_trace_self, ← ht]; exact ⟨rfl, rfl, rfl, Nat.le_succ _, rfl⟩
    · rw [FhPool.set_trace_of_ne _ _ _ _ hj]; exact ⟨rfl, rfl, rfl, le_rfl, rfl⟩
  have hho : ∀ j, (w.set i (w.host i) t).host j = w.host j := fun j => congrFun (Function.update_eq_self i w.host) j
  have hok : ∀ j {position : Nat} {phase : SmPhase} {weight : MtcU32}, RowOk (w.trace j) position phase weight →
      RowOk ((w.set i (w.host i) t).trace j) position phase weight := fun j _ _ _ hr =>
    ⟨by rw [(htr j).1]; exact hr.le, hr.shows, by rw [(htr j).2.2.2.2]; exact hr.weight⟩
  refine ⟨fun j hj => ?_, fun r hr hmr => ?_, fun r hr r' hr' hmr heq hle => ?_, fun j hj r hr hmr hne hle => ?_,
    fun j k hj hk => ?_, fun j k hj hk hv => ?_⟩
  · show CommitOk ((w.set i (w.host i) t).host j).pc _ ((w.set i (w.host i) t).trace j)
    unfold CommitOk
    rw [hho j, (htr j).1, (htr j).2.2.2.2]
    exact h.committed j hj
  · rcases List.mem_cons.1 hr with rfl | hr
    · refine ⟨hok i hrow, ?_⟩
      show (w.trace i).recordsWritten + 1 ≤ ((w.set i (w.host i) t).trace i).recordsWritten
      rw [FhPool.set_trace_self, ← ht]
    · obtain ⟨hrok, hn⟩ := h.record r hr hmr
      exact ⟨hok _ hrok, le_trans hn (htr _).2.2.2.1⟩
  · rcases List.mem_cons.1 hr with rfl | hr
    · rcases List.mem_cons.1 hr' with rfl | hr'
      · exact le_rfl
      · -- an older record of the same host has a smaller number
        have hm' : members.isOn r'.host = true := by rw [heq]; exact hmr
        have hn := (h.record r' hr' hm').2
        dsimp only at heq hle
        rw [heq] at hn
        omega
    · rcases List.mem_cons.1 hr' with rfl | hr'
      · -- the new record is at the position the host stands at now
        have hle' := (h.record r hr hmr).1.le
        dsimp only at heq ⊢
        rw [← heq] at hle'
        exact hle'
      · exact h.ordered r hr r' hr' hmr heq hle
  · have hle' : (w.trace j).sfNumber r.host ≤ r.number := le_of_eq_of_le (congrFun (htr j).2.2.1 _).symm hle
    show ((w.set i (w.host i) t).trace j).sfPosition r.host ≤ _
    rw [(htr j).2.1]
    rcases List.mem_cons.1 hr with rfl | hr
    · exact (h.row j i hj hm).le
    · exact h.newer j hj r hr hmr hne hle'
  · show RowOk ((w.set i (w.host i) t).trace k) (((w.set i (w.host i) t).trace j).sfPosition k)
      (((w.set i (w.host i) t).host j).host.sf.smPhase k) (((w.set i (w.host i) t).host j).host.sf.weight k)
    rw [(htr j).2.1, hho j]
    exact hok k (h.row j k hj hk)
  · show ((w.set i (w.host i) t).trace j).position ≤ ((w.set i (w.host i) t).trace j).sfPosition k
    rw [(htr j).1, (htr j).2.1]
    exact h.fresh j k hj hk (by rw [← hho j]; exact hv)

/-- The row a host shows of itself. -/
theorem RowsInv.own (h : RowsInv members w) (hp : PoolInv members w) (hm : members.isOn i = true) :
    RowOk (w.trace i) (w.trace i).position (w.host i).host.sm.phase (w.host i).host.sm.commitedWeight :=
  ⟨le_rfl, .inl (by rw [hp.phase i hm]; exact hp.slot i hm), fun h3 => h.committed i hm (.inr h3)⟩

end

/-! ## Runs -/

/-- Every step of a pool whose rows are fresh when they are used keeps the invariant. -/
theorem RowsInv.next {c : HaConfig} {members : HostMap} {w w' : FhPool} {a : PoolAction} (h : RowsInv members w)
    (hp : PoolInv members w) (ht : Together members w) (hs : OnStatefile members w)
    (hconf : ∀ j, members.isOn j = true → j < c.hostnum) (hok : FreshRows members w a)
    (hn : poolNext c members w a = some w') : RowsInv members w' := by
  cases a with
  | fh i timeout =>
    simp only [poolNext, Option.map_eq_some_iff] at hn
    obtain ⟨s, ha, rfl⟩ := hn
    exact h.fh hp ht hs hconf hok ha
  | inner i a =>
    simp only [poolNext] at hn
    split at hn
    · rename_i hin
      rw [Option.map_eq_some_iff] at hn
      obtain ⟨s, ha, rfl⟩ := hn
      obtain ⟨hi, hm, ha⟩ := FhPool.act_spec ha
      obtain ⟨hpc, hself, hviews, -⟩ := fhAct_inner hin ha
      exact h.keep hpc hself.commitedWeight hviews.sfSmPhase hviews.sfWeight ⟨rfl, rfl, rfl, rfl, rfl⟩
    · cases hn
  | disarm i =>
    simp only [poolNext] at hn
    split at hn <;> cases hn
    exact h.keep rfl (w.host i).host.disarm_self.commitedWeight (by simp) (by simp) ⟨rfl, rfl, rfl, rfl, rfl⟩
  | send i =>
    simp only [poolNext, Option.map_eq_some_iff] at hn
    obtain ⟨s, ha, rfl⟩ := hn
    obtain ⟨hi, hm, ha⟩ := FhPool.act_spec ha
    cases ha
    exact h.keep rfl rfl rfl rfl ⟨rfl, rfl, rfl, rfl, rfl⟩
  | receive i now pkt position =>
    simp only [poolNext] at hn
    split at hn
    · rw [Option.map_eq_some_iff] at hn
      obtain ⟨s, ha, rfl⟩ := hn
      obtain ⟨hi, hm, ha⟩ := FhPool.act_spec ha
      obtain ⟨-, hpc, hself, hsf, -⟩ := receiveHb_spec ha
      refine h.keep hpc hself.commitedWeight (by rw [hsf]) (by rw [hsf]) ?_
      split <;> exact ⟨rfl, rfl, rfl, rfl, rfl⟩
    · cases hn
  | writeRecord i =>
    simp only [poolNext, Option.map_eq_some_iff] at hn
    obtain ⟨s, ha, rfl⟩ := hn
    obtain ⟨hi, hm, ha⟩ := FhPool.act_spec ha
    cases ha
    have hown := h.own hp hm
    -- first the row in memory, then the record
    have hset := h.setRow (i := i) (k := i) (m := (w.trace i).sfNumber i)
      (s := { w.host i with host := { (w.host i).host with sf := { (w.host i).host.sf with
        smPhase := Function.update (w.host i).host.sf.smPhase i (w.host i).host.sm.phase
        weight := Function.update (w.host i).host.sf.weight i (w.host i).host.sm.commitedWeight } } })
      rfl rfl rfl rfl (fun _ => hown) (fun hi => (h.row i i hi hi).le) fun _ hne => absurd rfl hne
    rw [Function.update_eq_self] at hset
    have hadd := hset.addRecord (p := (w.host i).host.sm.phase) (b := (w.host i).host.sm.commitedWeight) hm
      (by rw [FhPool.set_trace_self]; exact ⟨hown.le, hown.shows, hown.weight⟩)
    rw [FhPool.set_host_self, FhPool.set_trace_self] at hadd
    unfold FhPool.set at hadd
    simp only [Function.update_idem] at hadd
    exact hadd
  | readRecord i r data stat =>
    simp only [poolNext] at hn
    split at hn
    · rename_i hr
      rw [Option.map_eq_some_iff] at hn
      obtain ⟨s, ha, rfl⟩ := hn
      obtain ⟨hi, hm, ha⟩ := FhPool.act_spec ha
      cases ha
      have hmem : members.isOn r.host = true → r ∈ w.records ∧ (w.trace i).sfNumber r.host ≤ r.number := fun hon =>
        hr.resolve_right fun hoff => by rw [hon] at hoff; cases hoff
      refine h.setRow rfl rfl rfl rfl (fun hon => ?_) (fun hon => ?_) fun hon hne r' hr' heq hle => ?_
      · by_cases hri : r.host = i
        · simp only [hri, show (c.at i hi).myIndex = i from rfl, if_true]
          exact h.own hp hm
        · simp only [show (c.at i hi).myIndex = i from rfl, if_neg hri]
          exact (h.record r (hmem hon).1 hon).1
      · by_cases hri : r.host = i
        · rw [if_pos hri, hri]
          exact (h.row i i hm hm).le
        · rw [if_neg hri]
          exact h.newer i hm r (hmem hon).1 hon hri (hmem hon).2
      · rw [if_neg hne]
        exact h.ordered r (hmem hon).1 r' hr' hon heq hle
    · cases hn

/-- The pool, its members on the State-File as well. -/
def fhPoolOnSf (c : HaConfig) (members : HostMap) : Transition.Machine FhPool PoolAction where
  init w := w.Started c members ∧ Together members w ∧ OnStatefile members w
  next := poolNext c members

/-- Runs in which the members stay in each other's liveset and both domains. -/
def KeepsPool (c : HaConfig) (members : HostMap) (w : FhPool) (a : PoolAction) : Prop :=
  match poolNext c members w a with
  | some w' => Together members w' ∧ OnStatefile members w'
  | none => True

/-- Such runs in which every record a host leaves the rendezvous with is younger than its writer's
FH2DONE of the round before. -/
def KeepsPoolFresh (c : HaConfig) (members : HostMap) (w : FhPool) (a : PoolAction) : Prop :=
  KeepsPool c members w a ∧ FreshRows members w a

instance (c : HaConfig) (members : HostMap) (w : FhPool) (a : PoolAction) : Decidable (KeepsPool c members w a) :=
  match h : poolNext c members w a with
  | some w' => decidable_of_iff (Together members w' ∧ OnStatefile members w') (by rw [KeepsPool, h])
  | none => .isTrue (by rw [KeepsPool, h]; trivial)

instance (c : HaConfig) (members : HostMap) (w : FhPool) (a : PoolAction) : Decidable (KeepsPoolFresh c members w a) := by
  unfold KeepsPoolFresh; infer_instance

theorem reach_rowsInv {c : HaConfig} {members : HostMap} {w : FhPool}
    (h : (fhPoolOnSf c members).Reach (KeepsPoolFresh c members) w) : RowsInv members w ∧ PoolInv members w := by
  have hinv := h.inv (I := fun w => (RowsInv members w ∧ PoolInv members w) ∧ Together members w ∧ OnStatefile members w ∧
    ∀ j, members.isOn j = true → j < c.hostnum) ?_ ?_
  · exact hinv.1
  · rintro w ⟨hs, ht, ho⟩
    exact ⟨⟨RowsInv.init hs, PoolInv.init hs⟩, ht, ho, hs.configured⟩
  · rintro w w' a ⟨⟨hr, hp⟩, ht, ho, hconf⟩ ⟨hok, hfresh⟩ hn
    have hafter : Together members w' ∧ OnStatefile members w' := by
      unfold KeepsPool at hok
      rw [show poolNext c members w a = some w' from hn] at hok
      exact hok
    exact ⟨⟨hr.next hp ht ho hconf hfresh hn, hp.next ht hconf hn hafter.1⟩, hafter.1, hafter.2, hconf⟩

/-- In every run in which the records are fresh, a host that has left the rendezvous before the consistent
view holds for every host the weight that host committed in this round. -/
theorem votes_with_committed_weights {c : HaConfig} {members : HostMap} {w : FhPool}
    (h : (fhPoolOnSf c members).Reach (KeepsPoolFresh c members) w) {i j : Nat} (hi : members.isOn i = true)
    (hj : members.isOn j = true) (hv : (w.host i).pc.voting = true) :
    (w.host i).host.sf.weight j = (w.trace j).committed ((w.trace i).position / 10) := by
  obtain ⟨hr, hp⟩ := reach_rowsInv h
  exact hr.weights hp hi hj hv

/-! ## Two rounds of the pair -/

theorem pairPool_initOnSf : (fhPoolOnSf pairConfig pairMembers).init pairPool :=
  ⟨pairPool_started, by decide +kernel, by decide +kernel⟩

/-- Host 1 gets a new weight. -/
def reloadWeight (weight : MtcU32) (w : FhPool) : PoolAction :=
  .inner 1 (.objects { (w.host 1).host.sm with weight := weight } (w.host 1).host.hb (w.host 1).host.sf)

/-- Host `i` reads the last record of host `j`. -/
def readLast (i j : Nat) (w : FhPool) : PoolAction :=
  match w.records.find? fun r => r.host = j with
  | some r => .readRecord i r ⟨0, false, false, ⟨pairMembers, pairMembers, pairMembers, pairMembers⟩, ⟨false, .empty⟩,
      .starting, 0⟩ ⟨true, 0, 0, 0⟩
  | none => .send i

/-- Both hosts write their records and read the other's. -/
def exchangeRecords : List (FhPool → PoolAction) :=
  [fun _ => .writeRecord 0, fun _ => .writeRecord 1, readLast 0 1, readLast 1 0]

/-- The rendezvous on heartbeat and State-File. -/
def meetOnBoth : List (FhPool → PoolAction) :=
  bothStep 2 ++ exchange ++ exchangeRecords ++ bothStep 2 ++ exchange ++ exchangeRecords ++ bothStep 1

theorem votes_with_committed_weights_pairPool :
    ∃ w : FhPool, (w.host 0).pc = .body .fh2 ∧ (w.trace 1).committed ((w.trace 0).position / 10) = 5 ∧
      (w.host 0).host.sf.weight 1 = 5 := by
  have hrun : ∃ w, (fhPoolOnSf pairConfig pairMembers).Reach (KeepsPoolFresh pairConfig pairMembers) w ∧
      (decide ((w.host 0).pc = .body .fh2) && decide ((w.trace 1).committed ((w.trace 0).position / 10) = 5)) = true :=
    Transition.Machine.reach_of_played pairPool_initOnSf
      (reloadWeight 5 :: meetOnHeartbeat ++ meetOnBoth) _ (by decide +kernel)
  obtain ⟨w, hw, hp⟩ := hrun
  simp only [Bool.and_eq_true, decide_eq_true_eq] at hp
  have hweight := votes_with_committed_weights (i := 0) (j := 1) hw (by decide) (by decide) (by rw [hp.1]; rfl)
  exact ⟨w, hp.1, hp.2, hweight.trans hp.2⟩

/-- A heartbeat of the third host in FHREADY makes host `i` start a round. -/
def startRound (i : Nat) : List (FhPool → PoolAction) :=
  [fun w => .receive i 0 { hbPacket 2 1 (w.host i).host with smPhase := .fhready } 0, settle i]

/-- A full round, then a new weight and a second round in which no record is written or read. -/
def staleRound : List (FhPool → PoolAction) :=
  meetOnHeartbeat ++ meetOnBoth ++ bothStep 1 ++ meetOnHeartbeat ++ meetOnHeartbeat ++ meetOnHeartbeat ++
  startRound 0 ++ startRound 1 ++ [reloadWeight 5] ++ meetOnHeartbeat ++ meetOnHeartbeat

/-- Host 0 leaves the rendezvous of the second round with the weight host 1 committed in the first. -/
theorem stale_weight :
    ∃ w, (fhPoolOnSf pairConfig pairMembers).Reach (KeepsPool pairConfig pairMembers) w ∧ (w.host 0).pc = .body .fh2 ∧
      (w.host 0).host.sf.weight 1 = 0 ∧ (w.trace 1).committed ((w.trace 0).position / 10) = 5 := by
  have hrun : ∃ w, (fhPoolOnSf pairConfig pairMembers).Reach (KeepsPool pairConfig pairMembers) w ∧
      (decide ((w.host 0).pc = .body .fh2) && decide ((w.host 0).host.sf.weight 1 = 0) &&
        decide ((w.trace 1).committed ((w.trace 0).position / 10) = 5)) = true :=
    Transition.Machine.reach_of_played pairPool_initOnSf staleRound _
      (by decide +kernel)
  obtain ⟨w, hw, hp⟩ := hrun
  simp only [Bool.and_eq_true, decide_eq_true_eq] at hp
  exact ⟨w, hw, hp.1.1, hp.1.2, hp.2⟩

end Xha
