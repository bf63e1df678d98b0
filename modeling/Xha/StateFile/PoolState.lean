/-
`script_service_do_set_pool_state` (sc_func.c) waits for the local record as well, though the pool state
lives in the global section: `readsf` publishes the time of the last update and puts the state in the
buffer, and only then `sfthread` calls `sf_writeglobal`, once. The answer is right when that write
succeeds and is over before the call looks (`set_pool_state_on_disk`, by the invariant `StateCall` of the call).
-/
import Xha.StateFile.GlobalField

namespace Xha

open Loop Transition

/-! ## What a step does to the global section -/

/-- The two things a step other than `sf_writeglobal` can do to the global section on its way from the
object to the disk: the update of the objects moves it on. -/
inductive GlobalStep (me : Nat) (w w' : SfWorld) : Prop
  | quiet : w'.sf.poolState = w.sf.poolState → w'.sf.modifiedMask.poolState = w.sf.modifiedMask.poolState →
      w'.sf.timeLastSf me = w.sf.timeLastSf me → w'.globalWrites = w.globalWrites →
      (w.pc.isWritingGlobal = true → w'.pc = w.pc ∧ w'.stateFile.global = w.stateFile.global) → GlobalStep me w w'
  | updated : w.pc.isWritingGlobal = false → w'.globalWrites = w.globalWrites → w'.sf.modifiedMask.poolState = false →
      (w.sf.modifiedMask.poolState = true →
        w'.pc.isWritingGlobal = true ∧ w'.stateFile.global.poolState = w.sf.poolState) → GlobalStep me w w'

theorem sfNext_global {c : HaConfig} {a : SfAction} {w w' : SfWorld} (hn : sfNext c w a = some w')
    (ha : ∀ status, a ≠ .writeGlobal status) : GlobalStep c.myIndex w w' := by
  cases sfNext_field poolStateField_merged hn ha with
  | quiet hvalue hpending htime hwrites hstay => exact .quiet hvalue hpending htime hwrites hstay
  | taken hnot hwrites hclear hcarry =>
    refine .updated hnot hwrites hclear fun hp => ?_
    obtain ⟨hpc, hstored, -⟩ := hcarry hp
    exact ⟨hpc, hstored⟩

/-! ## The way of a request to the disk -/

/-- This host has written the pool state to the global section after its first `since` writes. -/
def WrittenSince (state : PoolState) (since : Nat) (w : SfWorld) : Prop :=
  ∃ g ∈ w.globalWrites.take (w.globalWrites.length - since), g.poolState = state

theorem WrittenSince.write {state : PoolState} {since : Nat} {w w' : SfWorld} {g : SfGlobal}
    (hsince : since ≤ w.globalWrites.length) (hw : w'.globalWrites = g :: w.globalWrites)
    (h : g.poolState = state ∨ WrittenSince state since w) : WrittenSince state since w' :=
  Written.more (F := poolStateField) hsince hw h

/-- Where a requested pool state is: still in the object with its mask bit, in the buffer about to be
written, or written. -/
structure StateRequested (state : PoolState) (since : Nat) (w : SfWorld) : Prop where
  counted : since ≤ w.globalWrites.length
  carried : (w.sf.modifiedMask.poolState = true ∧ w.sf.poolState = state) ∨
    (w.sf.modifiedMask.poolState = false ∧ w.pc.isWritingGlobal = true ∧ w.stateFile.global.poolState = state) ∨
    WrittenSince state since w

theorem StateRequested.request {state : PoolState} {since : Nat} {w : SfWorld} (h : since ≤ w.globalWrites.length) :
    StateRequested state since { w with sf := sfSetPoolState state w.sf } :=
  ⟨h, .inl ⟨rfl, rfl⟩⟩

section

variable {c : HaConfig} {state : PoolState} {since : Nat} {w w' : SfWorld}

/-- `sf_writeglobal` succeeds whenever it carries a request, that is once the mask bit is clear. -/
def WritesThrough (w : SfWorld) : SfAction → Prop
  | .writeGlobal status => w.sf.modifiedMask.poolState = false → status = .success
  | _ => True

instance (w : SfWorld) (a : SfAction) : Decidable (WritesThrough w a) := by
  unfold WritesThrough; split <;> infer_instance

theorem StateRequested.write {status : SfStatus} (h : StateRequested state since w)
    (hok : w.sf.modifiedMask.poolState = false → status = .success)
    (hn : sfNext c w (.writeGlobal status) = some w') : StateRequested state since w' := by
  cases sfNext_move hn with
  | globalWritten =>
    refine ⟨le_trans h.counted (Nat.le_succ _), ?_⟩
    rcases h.carried with hm | ⟨_, _, hg⟩ | hw
    · exact .inl hm
    · exact .inr (.inr (WrittenSince.write h.counted rfl (.inl hg)))
    · exact .inr (.inr (WrittenSince.write h.counted rfl (.inr hw)))
  | globalUnwritten _ _ hfail =>
    refine ⟨h.counted, ?_⟩
    rcases h.carried with hm | ⟨hm, _, _⟩ | hw
    · exact .inl hm
    · exact absurd (hok hm) hfail
    · exact .inr (.inr hw)

/-- A requested pool state is not lost as long as the writes that carry it succeed. -/
theorem StateRequested.next {a : SfAction} (h : StateRequested state since w) (hok : WritesThrough w a)
    (hn : sfNext c w a = some w') : StateRequested state since w' := by
  by_cases ha : ∃ status, a = .writeGlobal status
  · obtain ⟨status, rfl⟩ := ha
    exact h.write hok hn
  · cases sfNext_global hn fun status he => ha ⟨status, he⟩ with
    | quiet hpool hmask _ hwrites hstay =>
      refine ⟨by rw [hwrites]; exact h.counted, ?_⟩
      rcases h.carried with ⟨hm, hp⟩ | ⟨hm, hpc, hg⟩ | hw
      · exact .inl ⟨by rw [hmask]; exact hm, by rw [hpool]; exact hp⟩
      · obtain ⟨hpc', hg'⟩ := hstay hpc
        exact .inr (.inl ⟨by rw [hmask]; exact hm, by rw [hpc']; exact hpc, by rw [hg']; exact hg⟩)
      · unfold WrittenSince
        rw [hwrites]
        exact .inr (.inr hw)
    | updated hnot hwrites hclear hcarry =>
      refine ⟨by rw [hwrites]; exact h.counted, ?_⟩
      rcases h.carried with ⟨hm, hp⟩ | ⟨_, hpc, _⟩ | hw
      · obtain ⟨hpc', hg⟩ := hcarry hm
        exact .inr (.inl ⟨hclear, hpc', hg.trans hp⟩)
      · rw [hnot] at hpc
        cases hpc
      · unfold WrittenSince
        rw [hwrites]
        exact .inr (.inr hw)

/-- The mask bit is clear once a time after the start of the call has been published. -/
theorem sfNext_published {a : SfAction} {t : MtcClock} (hn : sfNext c w a = some w')
    (h : t < w.sf.timeLastSf c.myIndex → w.sf.modifiedMask.poolState = false)
    (hlt : t < w'.sf.timeLastSf c.myIndex) : w'.sf.modifiedMask.poolState = false := by
  by_cases ha : ∃ status, a = .writeGlobal status
  · obtain ⟨status, rfl⟩ := ha
    cases sfNext_move hn with
    | globalWritten | globalUnwritten => exact h hlt
  · cases sfNext_global hn fun status he => ha ⟨status, he⟩ with
    | quiet _ hmask htime _ _ =>
      rw [hmask]
      rw [htime] at hlt
      exact h hlt
    | updated _ _ hclear _ => exact hclear

end

/-! ## The answer -/

/-- What holds of the daemon at each point of a call that sets the pool state. -/
def StateCall (me : Nat) (d : SfWorld) : ScPc → Prop
  | .checked (.setPoolState _) since => since ≤ d.globalWrites.length
  | .requested (.setPoolState s) since => StateRequested s since d
  | .polling (.setPoolState s) t since =>
    StateRequested s since d ∧ (t < d.sf.timeLastSf me → d.sf.modifiedMask.poolState = false)
  | .returned (.setPoolState s) .success since => since ≤ d.globalWrites.length ∧ WrittenSince s since d
  | _ => True

/-- Runs in which `sf_writeglobal` succeeds when it carries the request of the call, and the call does not
look between the update that publishes a new time and that write. -/
def WritesBeforeLook (c : HaConfig) (w : ScWorld) (a : ScAction) : Prop :=
  match a, w.script with
  | .daemon a, .requested (.setPoolState _) _ => WritesThrough w.daemon a
  | .daemon a, .polling (.setPoolState _) _ _ => WritesThrough w.daemon a
  | .poll, .polling (.setPoolState _) t _ => t < w.daemon.sf.timeLastSf c.myIndex → w.daemon.pc.isWritingGlobal = false
  | _, _ => True

instance (c : HaConfig) (w : ScWorld) (a : ScAction) : Decidable (WritesBeforeLook c w a) :=
  decidable_of_iff ((match a, w.script with
    | .daemon a, .requested (.setPoolState _) _ => decide (WritesThrough w.daemon a)
    | .daemon a, .polling (.setPoolState _) _ _ => decide (WritesThrough w.daemon a)
    | .poll, .polling (.setPoolState _) t _ =>
      decide (t < w.daemon.sf.timeLastSf c.myIndex → w.daemon.pc.isWritingGlobal = false)
    | _, _ => true) = true) (by unfold WritesBeforeLook; split <;> simp only [decide_eq_true_iff])

/-- What has been written since the call started is not taken back. -/
theorem WrittenSince.next {c : HaConfig} {a : SfAction} {w w' : SfWorld} {state : PoolState} {since : Nat}
    (h : since ≤ w.globalWrites.length ∧ WrittenSince state since w) (hn : sfNext c w a = some w') :
    since ≤ w'.globalWrites.length ∧ WrittenSince state since w' := by
  rcases sfNext_globalWrites hn with hw | ⟨g, hw⟩
  · unfold WrittenSince
    rw [hw]
    exact h
  · exact ⟨by rw [hw]; exact le_trans h.1 (Nat.le_succ _), WrittenSince.write h.1 hw (.inr h.2)⟩

theorem StateCall.daemon {c : HaConfig} {d d' : SfWorld} {a : SfAction} {script : ScPc}
    (h : StateCall c.myIndex d script) (hok : WritesBeforeLook c ⟨d, script⟩ (.daemon a))
    (hd : sfNext c d a = some d') : StateCall c.myIndex d' script := by
  cases script with
  | checked req since =>
    cases req with
    | setExcluded v => trivial
    | setPoolState s =>
      have hlen : d.globalWrites.length ≤ d'.globalWrites.length := by
        rcases sfNext_globalWrites hd with hw | ⟨g, hw⟩ <;> simp [hw]
      exact le_trans h hlen
  | requested req since =>
    cases req with
    | setExcluded v => trivial
    | setPoolState s => exact StateRequested.next h hok hd
  | polling req t since =>
    cases req with
    | setExcluded v => trivial
    | setPoolState s => exact ⟨h.1.next hok hd, sfNext_published hd h.2⟩
  | returned req status since =>
    cases req with
    | setExcluded v => trivial
    | setPoolState s =>
      cases status with
      | success => exact WrittenSince.next h hd
      | _ => trivial
  | _ => trivial

theorem StateCall.poll {me : Nat} {d : SfWorld} {s : PoolState} {t : MtcClock} {since : Nat}
    (h : StateCall me d (.polling (.setPoolState s) t since))
    (hok : t < d.sf.timeLastSf me → d.pc.isWritingGlobal = false) (hlt : t < d.sf.timeLastSf me) :
    since ≤ d.globalWrites.length ∧ WrittenSince s since d := by
  obtain ⟨hreq, hmask⟩ := h
  refine ⟨hreq.counted, ?_⟩
  rcases hreq.carried with ⟨hm, _⟩ | ⟨_, hpc, _⟩ | hw
  · rw [hmask hlt] at hm
    cases hm
  · rw [hok hlt] at hpc
    cases hpc
  · exact hw

theorem StateCall.next {c : HaConfig} {w w' : ScWorld} {a : ScAction} (ht : TimesPast c.myIndex w.daemon)
    (h : StateCall c.myIndex w.daemon w.script) (hok : WritesBeforeLook c w a) (hn : scNext c w a = some w') :
    StateCall c.myIndex w'.daemon w'.script := by
  cases scNext_move hn with
  | daemon d d' a script hd => exact h.daemon hok hd
  | accepted d req =>
    cases req with
    | setExcluded v => trivial
    | setPoolState s => exact le_refl _
  | refused d req status _ hne =>
    cases req with
    | setExcluded v => trivial
    | setPoolState s =>
      cases status with
      | success => exact absurd rfl hne
      | _ => trivial
  | request d req since =>
    cases req with
    | setExcluded v => trivial
    | setPoolState s => exact StateRequested.request h
  | start d req since =>
    cases req with
    | setExcluded v => trivial
    | setPoolState s => exact ⟨h, fun hlt => absurd ht.published (not_le.2 hlt)⟩
  | accessLost d req => cases req <;> trivial
  | answered d req t since _ hlt =>
    cases req with
    | setExcluded v => trivial
    | setPoolState s => exact StateCall.poll h hok hlt
  | waiting => exact h
  | finish | setMaster => trivial

/-- In every run in which the write of the global section that carries the request succeeds, and is over
before the call looks, an answer of success means that the state has been written since the call started. -/
theorem set_pool_state_on_disk {c : HaConfig} {w : ScWorld} (h : (scMachine c).Reach (WritesBeforeLook c) w)
    {s : PoolState} {since : Nat} (hret : w.script = .returned (.setPoolState s) .success since) :
    ∃ g ∈ w.daemon.globalWrites.take (w.daemon.globalWrites.length - since), g.poolState = s := by
  have hcall : StateCall c.myIndex w.daemon w.script :=
    ScWorld.call_inv (I := StateCall c.myIndex) h (fun _ => trivial) fun _ _ _ ht hcall hok hn => hcall.next ht hok hn
  rw [hret] at hcall
  exact hcall.2

/-- A call between two cycles, up to the update of the objects that publishes the new time. -/
def stateRequest (s : PoolState) : List ScAction :=
  openStateFile ++ [.call (.setPoolState s), .request, .start, .daemon (.tick 1), .daemon .begin, .daemon .copy,
    .daemon (.write .success)] ++ readAll

theorem set_pool_state_on_disk_waiting :
    ∃ w : ScWorld, (∃ since, w.script = .returned (.setPoolState sfStateInit) .success since) ∧
      ∃ g ∈ w.daemon.globalWrites, g.poolState = sfStateInit := by
  have hrun : ∃ w, (scMachine loneHost).Reach (WritesBeforeLook loneHost) w ∧
      decide (w.script = .returned (.setPoolState sfStateInit) .success 0) = true :=
    Machine.reach_of_check loneWorld_init (stateRequest sfStateInit ++ [.daemon (.writeGlobal .success), .poll]) _
      (by decide +kernel)
  obtain ⟨w, hw, hp⟩ := hrun
  rw [decide_eq_true_eq] at hp
  obtain ⟨g, hmem, hg⟩ := set_pool_state_on_disk hw hp
  exact ⟨w, ⟨0, hp⟩, g, List.mem_of_mem_take hmem, hg⟩

/-- The call answers success before the first write of the global section, which may still fail. -/
theorem set_pool_state_too_early :
    ∃ w, (scMachine loneHost).Reachable w ∧
      (∃ since, w.script = .returned (.setPoolState sfStateInit) .success since) ∧ w.daemon.globalWrites = [] := by
  have hrun : ∃ w, (scMachine loneHost).Reachable w ∧
      (decide (w.script = .returned (.setPoolState sfStateInit) .success 0) && w.daemon.globalWrites.isEmpty) = true :=
    Machine.reach_of_check loneWorld_init (stateRequest sfStateInit ++ [.poll]) _ (by decide +kernel)
  obtain ⟨w, hw, hp⟩ := hrun
  simp only [Bool.and_eq_true, decide_eq_true_eq, List.isEmpty_iff] at hp
  exact ⟨w, hw, ⟨0, hp.1⟩, hp.2⟩

end Xha
